import ClassicBasic.Node
import ClassicBasic.Phrase
import ClassicBasic.Text.Word

namespace ClassicBasic

/-!
# Declarators

One name of a variable or constant declaration, or one field of a user-defined
type: a name with its array bounds, its type and its value.  `WithEvents` and
`New` are keywords where a name or a type follows them, and names otherwise.
-/

/-- A declarator as written. -/
structure Declarator where
  withEvents : Bool
  /-- The name with its type suffix. -/
  name : Text
  /-- The array bounds with their parentheses. -/
  bounds : Option Text
  /-- Whether `New` stands in front of the type. -/
  isNew : Bool
  /-- The type, with the length of a string of fixed length. -/
  typeName : Option Text
  value : Option Text
  deriving Repr, DecidableEq

namespace Declarator

/-- Array bounds up to the first closing parenthesis, if an opening one comes
next, and what follows them.  Bounds that are not closed are no bounds. -/
def bounds? (text : Text) : Option Text × Text :=
  match Text.after? "(" (Text.trimStart text) with
  | none => (none, text)
  | some inside =>
      match inside.dropWhile (· ≠ ')') with
      | [] => (none, text)
      | _ :: rest =>
          (some (Text.concat ["(", inside.takeWhile (· ≠ ')'), ")"]), rest)

/-- The length behind an asterisk, if there is one, and what follows it. -/
def length? (text : Text) : Option Text × Text :=
  match Text.after? "*" (Text.trimStart text) with
  | none => (none, text)
  | some rest =>
      match (Text.trimStart rest).takeWhile Text.isWordChar with
      | [] => (none, text)
      | length => (some length, (Text.trimStart rest).dropWhile Text.isWordChar)

/-- A type with its length, and what follows it. -/
def sizedType? (text : Text) : Option (Text × Text) := do
  let (typeName, rest) ← Phrase.typeName? text
  match length? rest with
  | (some length, behind) => some (Text.concat [typeName, " * ", length], behind)
  | (none, _) => some (typeName, rest)

/-- The type and the value behind a declarator's name and bounds. -/
def readTyped? (text : Text) : Option (Bool × Option Text × Option Text) :=
  match Phrase.afterAs? text with
  | none => (Phrase.finalValue? text).map fun value => (false, none, value)
  | some rest =>
      Phrase.optionally (Phrase.word? "New") rest fun isNew rest => do
        let (typeName, rest) ← sizedType? rest
        let value ← Phrase.finalValue? rest
        some (isNew.isSome, some typeName, value)

/-- Read a declarator that has no blanks around it. -/
def read? (text : Text) : Option Declarator :=
  Phrase.optionally (Phrase.word? "WithEvents") text fun withEvents text => do
    let (name, rest) ← Phrase.suffixedName? text
    let (bounds, rest) := bounds? rest
    let (isNew, typeName, value) ← readTyped? rest
    some ⟨withEvents.isSome, name, bounds, isNew, typeName, value⟩

/-- The node of a declarator under a declaration keyword. -/
def node
    (declarator : Declarator)
    (modifier : Option AccessModifier)
    (keyword : DeclarationKeyword)
    (line : Nat) :
    Node :=
  let initializer : Option Text := if declarator.isNew then some "New" else none
  (Node.leaf
      (.declaration modifier keyword declarator.value declarator.withEvents none)
      declarator.name line).withChildren
    [Node.identifier declarator.name declarator.bounds initializer
      declarator.typeName line]

end Declarator

end ClassicBasic
