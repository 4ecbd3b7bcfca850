import ClassicBasic.Declaration.Statement
import ClassicBasic.Event
import ClassicBasic.IntegerLiteral
import ClassicBasic.Line.Comment

namespace ClassicBasic

/-!
# Blocks of declarations

The lines between the opening of a user-defined type or of an enumeration and
its terminator.  A type has one field a line.  An enumeration has one member a
line, and a member without a literal value counts on from the member in front
of it; the first counts from zero, and counting wraps around at 64 bits.
-/

/-- Whether a line of code is empty or a comment in the older form. -/
def isSilent (code : Text) : Bool :=
  code.isEmpty || Line.startsWithRem code

/-- A member of an enumeration as written. -/
structure EnumMember where
  name : Text
  /-- The text of its value, if it has one. -/
  value : Option Text
  deriving Repr, DecidableEq

namespace EnumMember

/-- A name in brackets, which holds at least one character and no closing
bracket. -/
def bracketedName? (text : Text) : Option (Text × Text) := do
  let inside ← Text.after? "[" text
  match inside.takeWhile (· ≠ ']'), inside.dropWhile (· ≠ ']') with
  | [], _ => none
  | _, [] => none
  | name, _ :: rest => some (Text.concat ["[", name, "]"], rest)

/-- Read a member of an enumeration. -/
def read? (code : Text) : Option EnumMember := do
  let (name, rest) ←
    bracketedName? code <|> Phrase.nameFrom? Phrase.isTypeStart code
  let value ← Phrase.finalValue? rest
  some ⟨name, value⟩

/-- The value of a member, if it is written as an integer literal. -/
def literal? (member : EnumMember) : Option Int64 :=
  member.value.bind IntegerLiteral.read?

/-- The node of a member with its value in effect. -/
def node (member : EnumMember) (value : Int64) (line : Nat) : Node :=
  Node.leaf (.enumMember value member.literal?.isSome) member.name line

end EnumMember

/-- A block whose terminator has not been read. -/
structure OpenBlock where
  kind : BlockKind
  modifier : Option AccessModifier
  name : Text
  /-- The physical line that opens the block. -/
  line : Nat
  /-- The lines of the block so far, newest first. -/
  lines : List Line
  deriving Repr, DecidableEq

namespace OpenBlock

/-- The field that a line declares. -/
def field? (line : Line) : Option Node :=
  (Declarator.read? line.code).map fun declarator =>
    declarator.node none .field line.number

/-- The fields that lines declare. -/
def fields (lines : List Line) : List Node :=
  (lines.filter fun line => !isSilent line.code).filterMap field?

/-- The enumeration member that a line declares, with the number of the line. -/
def enumMember? (line : Line) : Option (EnumMember × Nat) :=
  (EnumMember.read? line.code).map fun member => (member, line.number)

/-- Number members, given the value that the first of them has if it writes
none itself. -/
def numberMembers (next : Int64) : List (EnumMember × Nat) → List Node
  | [] => []
  | (member, line) :: rest =>
      let value := member.literal?.getD next
      member.node value line :: numberMembers (value + 1) rest

/-- The enumeration members that lines declare. -/
def enumMembers (lines : List Line) : List Node :=
  numberMembers 0
    ((lines.filter fun line => !isSilent line.code).filterMap enumMember?)

/-- What the reading of a line inside a block reports. -/
def reports (kind : BlockKind) (line : Line) : List Event :=
  if isSilent line.code then
    []
  else
    match kind with
    | .type =>
        if (Declarator.read? line.code).isSome then []
        else [.fieldSkipped line.number line.code]
    | .enum =>
        match EnumMember.read? line.code with
        | none => [.enumMemberSkipped line.number line.code]
        | some ⟨_, none⟩ => []
        | some ⟨_, some value⟩ =>
            if (IntegerLiteral.read? value).isSome then []
            else [.valueNotLiteral line.number value]

/-- The node of a block whose lines have all been read. -/
def node (block : OpenBlock) : Node :=
  let lines := block.lines.reverse
  let content :=
    match block.kind with
    | .type => fields lines
    | .enum => enumMembers lines
  ⟨block.name, block.line,
    .declaration block.modifier block.kind.keyword none false none,
    Node.identifier block.name none none none block.line :: content⟩

end OpenBlock

end ClassicBasic
