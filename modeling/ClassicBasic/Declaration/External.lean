import ClassicBasic.Parameter

namespace ClassicBasic

/-!
# External procedures

A `Declare` statement makes a procedure of a library known, with the library,
an alias, parameters and a return type.
-/

/-- A `Declare` statement as written. -/
structure ExternalDeclaration where
  modifier : Option AccessModifier
  name : Text
  procedure : ExternalProcedure
  /-- The text between the outer parentheses, if there are any. -/
  parameters : Option Text
  returnType : Option Text
  deriving Repr, DecidableEq

namespace ExternalDeclaration

/-- The modifier of a `Declare` statement that a word spells. -/
def modifier? (word : Text) : Option AccessModifier :=
  (AccessModifier.ofKeyword? word).filter [.public, .private].contains

/-- A keyword, and the string behind it up to the next quote. -/
def stringAfter? (keyword text : Text) : Option (Text × Text) := do
  let rest ← Text.afterBlanks? text
  let rest ← Text.after? keyword rest
  let rest ← Text.afterBlanks? rest
  let inside ← Text.after? "\"" rest
  match inside.dropWhile (· ≠ '"') with
  | [] => none
  | _ :: behind => some (inside.takeWhile (· ≠ '"'), behind)

/-- The end of a statement: nothing, or a return type. -/
def returnType? (text : Text) : Option (Option Text) :=
  if text.isEmpty then
    some none
  else do
    let rest ← Phrase.afterAs? text
    let (typeName, rest) ← Phrase.typeName? rest
    if rest.isEmpty then some (some typeName) else none

/-- A text cut at its last closing parenthesis. -/
def cutAtLastClosing? (text : Text) : Option (Text × Text) :=
  match text.reverse.dropWhile (· ≠ ')') with
  | [] => none
  | _ :: before =>
      some (before.reverse, (text.reverse.takeWhile (· ≠ ')')).reverse)

/-- The parameter list and the return type of a statement.  The list reaches
from the first parenthesis to the last one and holds no line feed. -/
def parametersAndType? (text : Text) : Option (Option Text × Option Text) :=
  match Text.trimStart text with
  | [] => some (none, none)
  | '(' :: inside => do
      let (parameters, rest) ← cutAtLastClosing? inside
      let returnType ← returnType? rest
      if parameters.contains '\n' then none else some (some parameters, returnType)
  | _ => (returnType? text).map fun returnType => (none, returnType)

/-- Read a `Declare` statement without its modifier. -/
def readUnmodified? (modifier : Option AccessModifier) (text : Text) :
    Option ExternalDeclaration := do
  let (_, rest) ← Phrase.keyword? (Phrase.word? "Declare") text
  let rest := (Phrase.keyword? (Phrase.word? "PtrSafe") rest).elim rest (·.2)
  let (kind, rest) ← Phrase.keyword? MethodKind.ofKeyword? rest
  let (name, rest) ← Phrase.name? rest
  let (library, rest) ← stringAfter? "Lib" rest
  let (aliasName, rest) :=
    match stringAfter? "Alias" rest with
    | some (given, behind) => (some given, behind)
    | none => (none, rest)
  let (parameters, returnType) ← parametersAndType? rest
  some ⟨modifier, name, ⟨kind, library, aliasName⟩, parameters, returnType⟩

/-- Read a `Declare` statement that has no blanks around it. -/
def read? (text : Text) : Option ExternalDeclaration :=
  match Phrase.keyword? modifier? text with
  | some (modifier, rest) => readUnmodified? (some modifier) rest
  | none => readUnmodified? none text

/-- The node of a `Declare` statement. -/
def node (statement : ExternalDeclaration) (line : Nat) : Node :=
  let parameters := statement.parameters.elim [] fun list => Parameter.nodes list line
  ⟨statement.name, line,
    .declaration statement.modifier .declare none false (some statement.procedure),
    Node.identifier statement.name none none statement.returnType line :: parameters⟩

/-- The segments of a statement's parameter list that are no parameters. -/
def skippedParameters (statement : ExternalDeclaration) : List Text :=
  statement.parameters.elim [] Parameter.skipped

end ExternalDeclaration

end ClassicBasic
