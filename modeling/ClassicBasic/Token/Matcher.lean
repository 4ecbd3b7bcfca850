import ClassicBasic.Line.Instruction
import ClassicBasic.Token

namespace ClassicBasic

/-!
# Matchers

A matcher recognises one kind of instruction.  Matchers are tried in order and
the first one that accepts decides, so the order of a table tells overlapping
forms apart: a declaration such as `Dim x As Long` comes before an assignment
such as `x = 1`, and that before a call such as `Run 1, 2`.
-/

/-- A rule that recognises one kind of instruction. -/
inductive Matcher where
  | comment
  | attributeLine
  | label
  | declaration
  | instruction
  | statement
  | expression
  | procedureCall
  deriving Repr, DecidableEq

namespace Matcher

/-- The default table of matchers, in priority order. -/
def table : List Matcher :=
  [.comment, .attributeLine, .label, .declaration, .instruction, .statement,
    .expression, .procedureCall]

/-- A comment opens with an apostrophe or with the comment keyword. -/
def comment? (text : Text) : Option TokenKind :=
  if (Text.trimStart text).head? = some Line.commentMarker ||
      Line.startsWithRem text then
    some .comment
  else
    none

/-- An attribute line opens with the word `Attribute`. -/
def attributeLine? (text : Text) : Option TokenKind :=
  if Text.startsWithWord "Attribute" (Text.trimStart text) then
    some .attributeLine
  else
    none

/-- A label ends in a colon. -/
def label? (text : Text) : Option TokenKind := do
  let name ← Text.before? [Instruction.separator] (Text.trim text)
  some (.label (Text.trimEnd name) ((Text.after? "Case " (Text.trim text)).isSome))

/-- A declaration opens with a declaration keyword and a space, or is a field
with an `As` clause and neither a value nor a number sign. -/
def declaration? (text : Text) : Option TokenKind :=
  let opening := Text.trimStart text
  match declarationWords.find? fun word => (Text.after? (word ++ " ") opening).isSome with
  | some word => some (.declaration word false)
  | none =>
      if Text.hasWholeWord "As" none opening &&
          !opening.contains '#' && !opening.contains '=' then
        some (.declaration "Public" true)
      else
        none

/-- An instruction opens with an instruction keyword as a whole identifier. -/
def instruction? (text : Text) : Option TokenKind :=
  let opening := (Text.trimStart text).takeWhile Text.isIdentifierChar
  if instructionWords.contains opening then some (.instruction opening) else none

/-- Whether a text opens with a control statement keyword. -/
def opensStatement (text word : Text) : Bool :=
  if word.getLast? = some ' ' then (Text.after? word text).isSome
  else Text.startsWithWord word text

/-- A control statement opens with one of its keywords. -/
def statement? (text : Text) : Option TokenKind := do
  let word ← statementWords.find? (opensStatement (Text.trimStart text))
  some (.statement (Text.trimEnd word))

/-- An expression holds an equals sign and is not a comment. -/
def expression? (text : Text) : Option TokenKind :=
  if text.contains '=' && (Text.trimStart text).head? ≠ some Line.commentMarker then
    some .expression
  else
    none

/-- Any other instruction is a call of what its first word names. -/
def procedureCall? (text : Text) : Option TokenKind :=
  match Text.leadingWord (Text.trimStart text) with
  | [] => none
  | target => some (.procedureCall target)

/-- The kind that a matcher recognises an instruction as, if it accepts it. -/
def kind? : Matcher → Text → Option TokenKind
  | .comment => comment?
  | .attributeLine => attributeLine?
  | .label => label?
  | .declaration => declaration?
  | .instruction => instruction?
  | .statement => statement?
  | .expression => expression?
  | .procedureCall => procedureCall?

/-- The token that one matcher makes of an instruction. -/
def token? (matcher : Matcher) (text : Text) (location : Location) :
    Option Token :=
  (matcher.kind? text).map fun kind => ⟨kind, text, location⟩

/-- The token that the first accepting matcher of a table makes of an
instruction.  A blank instruction makes none. -/
def classify? (matchers : List Matcher) (text : Text) (location : Location) :
    Option Token :=
  if (Text.trim text).isEmpty then none
  else matchers.findSome? fun matcher => matcher.token? text location

end Matcher

end ClassicBasic
