import ClassicBasic.Node
import ClassicBasic.Node.Query
import ClassicBasic.Text.Quoted
import ClassicBasic.Text.Word
import ClassicBasic.Phrase

namespace ClassicBasic

/-!
# Attribute lines

An attribute line assigns a value to an attribute of the module or, with the
name of a member in front, of that member.  A value written as a string
literal is kept without its quotes.
-/

/-- An attribute as a line states it. -/
structure Attribute where
  member : Option Text
  name : Text
  value : Text
  /-- Whether the value is written as a string literal. -/
  quoted : Bool
  deriving Repr, DecidableEq

namespace Attribute

/-- What every attribute name begins with. -/
def namePrelude : Text := "VB_"

/-- The name of an attribute, which goes on with at least one word character. -/
def name? (text : Text) : Option (Text × Text) := do
  let rest ← Text.after? namePrelude text
  match rest.takeWhile Text.isWordChar with
  | [] => none
  | word => some (namePrelude ++ word, rest.dropWhile Text.isWordChar)

/-- The member that an attribute belongs to, up to the dot behind it. -/
def member? (text : Text) : Option (Text × Text) := do
  let (member, rest) ← Phrase.name? text
  let rest ← Text.after? "." rest
  some (member, rest)

/-- Read an attribute line.  The value reaches to the end of the line and
holds no line feed. -/
def read? (text : Text) : Option Attribute := do
  let rest ← Text.after? "Attribute" (Text.trim text)
  let rest ← Text.afterBlanks? rest
  let (member, rest) :=
    match member? rest with
    | some (member, behind) => (some member, behind)
    | none => (none, rest)
  let (name, rest) ← name? rest
  let rest ← Text.after? "=" (Text.trimStart rest)
  let raw := Text.trim rest
  if raw.contains '\n' then
    none
  else
    let (value, quoted) := Text.unquote raw
    some ⟨member, name, value, quoted⟩

/-- The node of an attribute.  Its member stands below it. -/
def node (stated : Attribute) (line : Nat) : Node :=
  ⟨stated.name, line, .attributeLine stated.value stated.quoted,
    (stated.member.map fun member => Node.leaf .memberReference member line).toList⟩

/-- The node of an attribute line. -/
def readNode? (text : Text) (line : Nat) : Option Node :=
  (read? text).map fun stated => stated.node line

/-- The line that states an attribute. -/
def source (stated : Attribute) : Text :=
  Text.concat
    ["Attribute ",
      stated.member.elim "" fun member => Text.concat [member, "."],
      stated.name, " = ",
      if stated.quoted then Text.quote stated.value else stated.value]

/-- The attribute that a node stands for, if it stands for one. -/
def ofNode? (node : Node) : Option Attribute :=
  match node.payload with
  | .attributeLine value quoted =>
      some ⟨(node.firstChild? .memberReference).map (·.name), node.name, value, quoted⟩
  | _ => none

/-- The source line of an attribute node. -/
def nodeSource? (node : Node) : Option Text :=
  (ofNode? node).map source

end Attribute

end ClassicBasic
