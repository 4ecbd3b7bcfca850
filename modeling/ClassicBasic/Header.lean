import ClassicBasic.Attribute
import ClassicBasic.Run

namespace ClassicBasic

/-!
# Module headers

A class module opens with thirteen physical lines: the class marker, a block
of five flags and five attributes, each at its fixed place.  A plain module
opens with a single attribute line.
-/

/-- What the header of a module says. -/
structure Header where
  /-- Only class modules have flags. -/
  classFlags : Option ClassFlags
  attributes : List Node
  /-- The number of physical lines that the header takes. -/
  length : Nat

namespace Header

/-- The first line of a class module. -/
def classMarker : Text := "VERSION 1.0 CLASS"

/-- Position of the first class flag among the physical lines, from zero. -/
def firstFlag : Nat := 2

/-- Position of the first class attribute among the physical lines, from zero. -/
def firstAttribute : Nat := 8

/-- Positions of the class flags. -/
def flagPositions : List Nat :=
  List.range' firstFlag 5

/-- Positions of the class attributes. -/
def attributePositions : List Nat :=
  List.range' firstAttribute 5

/-- The length of a class header. -/
def classLength : Nat := 13

/-- The length of the header of a plain module. -/
def plainLength : Nat := 1

/-- Can stand in front of a file's text. -/
def byteOrderMark : Char := '\ufeff'

/-- A header line without byte order marks in front and blanks around it. -/
def strip (text : Text) : Text :=
  Text.trim (text.dropWhile (· = byteOrderMark))

/-- A fault at a position of the header. -/
def malformed (position : Nat) (text : Text) (reason : HeaderFault) : Fault :=
  .malformedHeader (position + 1) text reason

/-- The stripped line at a position. -/
def lineAt (source : List Text) (position : Nat) : Except Fault Text :=
  match source[position]? with
  | some text => .ok (strip text)
  | none => .error (malformed position [] .endOfInput)

/-- The digits of a flag value and its sign, if a text opens with one that no
word character continues. -/
def flagDigits? (text : Text) : Option (Bool × Text) :=
  let (negative, rest) :=
    match text with
    | '-' :: rest => (true, rest)
    | _ => (false, text)
  let digits := rest.takeWhile Text.isWordDigit
  let behind := rest.dropWhile Text.isWordDigit
  if digits.isEmpty || behind.head?.any Text.isWordChar then none
  else some (negative, digits)

/-- The first flag value that stands behind an equals sign. -/
def writtenFlag? : Text → Option (Bool × Text)
  | [] => none
  | c :: rest =>
      if c = '=' then flagDigits? (Text.trimStart rest) <|> writtenFlag? rest
      else writtenFlag? rest

/-- The number that plain decimal digits denote. -/
def decimal? (digits : Text) : Option Nat :=
  if digits.all Char.isDigit then
    some (digits.foldl (fun value c => value * 10 + (c.toNat - '0'.toNat)) 0)
  else
    none

/-- The value of a flag line.  It has to fit a signed 32-bit integer. -/
def flag? (text : Text) : Option Int32 := do
  let (negative, digits) ← writtenFlag? text
  let magnitude ← decimal? digits
  let value : Int := if negative then -magnitude else magnitude
  if Int32.minValue.toInt ≤ value ∧ value ≤ Int32.maxValue.toInt then
    some (Int32.ofInt value)
  else
    none

/-- The flag at a position. -/
def flagAt (source : List Text) (position : Nat) : Except Fault Int32 := do
  let text ← lineAt source position
  match flag? text with
  | some value => .ok value
  | none => .error (malformed position text .noFlag)

/-- The attribute at a position. -/
def attributeAt (source : List Text) (position : Nat) : Except Fault Node := do
  let text ← lineAt source position
  match Attribute.readNode? text (position + 1) with
  | some node => .ok node
  | none => .error (malformed position text .noAttribute)

/-- The five flags of a class module. -/
def flagsOf (source : List Text) : Except Fault ClassFlags := do
  let multiUse ← flagAt source firstFlag
  let persistable ← flagAt source (firstFlag + 1)
  let dataBindingBehavior ← flagAt source (firstFlag + 2)
  let dataSourceBehavior ← flagAt source (firstFlag + 3)
  let mtsTransactionMode ← flagAt source (firstFlag + 4)
  .ok ⟨multiUse, persistable, dataBindingBehavior, dataSourceBehavior,
    mtsTransactionMode⟩

/-- The five attributes of a class module, the first of which names it. -/
def attributesOf (source : List Text) : Except Fault (List Node) := do
  let attributes ← attributePositions.mapM (attributeAt source)
  if (attributes.head?.map Node.name) = some Node.nameAttribute then
    .ok attributes
  else
    let text ← lineAt source firstAttribute
    .error (malformed firstAttribute text .nameNotFirst)

/-- The header of a class module. -/
def ofClass (source : List Text) : Run Header := do
  let flags ← Run.ofExcept (flagsOf source)
  Run.report (.classHeader flags)
  let attributes ← Run.ofExcept (attributesOf source)
  pure ⟨some flags, attributes, classLength⟩

/-- The header of a plain module. -/
def ofPlain (source : List Text) : Run Header := do
  let stated ← Run.ofExcept (attributeAt source 0)
  pure ⟨none, [stated], plainLength⟩

/-- Read the header of a module. -/
def read (source : List Text) : Run Header := do
  let first ← Run.ofExcept (lineAt source 0)
  if first = classMarker then ofClass source else ofPlain source

end Header

end ClassicBasic
