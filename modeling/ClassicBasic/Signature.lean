import ClassicBasic.Parameter
import ClassicBasic.Terminator

namespace ClassicBasic

/-!
# Signatures

The line that opens a property procedure, a sub or a function.  `Get`, `Let`
and `Set` are accessors where a name follows them and names otherwise; a
property procedure has an accessor and a method has none.
-/

/-- What a signature declares. -/
inductive Procedure where
  | property (accessor : Accessor)
  | method (kind : MethodKind)
  deriving Repr, DecidableEq

/-- The name of a procedure with its parameter list and its return type. -/
structure Heading where
  name : Text
  /-- The text between the parentheses, if there are any. -/
  parameters : Option Text
  returnType : Option Text
  deriving Repr, DecidableEq

/-- A signature as written. -/
structure Signature where
  modifier : Option AccessModifier
  isStatic : Bool
  procedure : Procedure
  heading : Heading
  deriving Repr, DecidableEq

namespace Heading

/-- The text up to the parenthesis that closes a parameter list, and what
follows it.  Inside the list only empty pairs of parentheses may occur. -/
def parameterList? : Text → Option (Text × Text)
  | [] => none
  | ')' :: rest => some ([], rest)
  | '(' :: ')' :: rest =>
      (parameterList? rest).map fun (list, behind) => ('(' :: ')' :: list, behind)
  | '(' :: _ => none
  | c :: rest =>
      (parameterList? rest).map fun (list, behind) => (c :: list, behind)

/-- The return type behind `As`: the rest of the line, which holds no line
feed.  Where only blanks are left the type is empty; then the last blank
stands in its place, so one more has to set it off. -/
def writtenType? (text : Text) : Option Text :=
  let blanks := text.takeWhile Text.isBlank
  match Text.trimStart text with
  | [] => if 2 ≤ blanks.length ∧ blanks.getLast? ≠ some '\n' then some [] else none
  | written =>
      if blanks.isEmpty || written.contains '\n' then none
      else some (Text.trimEnd written)

/-- The end of a signature: nothing, or a return type. -/
def returnType? (text : Text) : Option (Option Text) :=
  if text.isEmpty then
    some none
  else do
    let rest ← Text.afterBlanks? text
    let rest ← Text.after? "As" rest
    let written ← writtenType? rest
    some (some written)

/-- Read a heading. -/
def read? (text : Text) : Option Heading := do
  let (name, rest) ← Phrase.name? text
  match Text.after? "(" (Text.trimStart rest) with
  | some inside =>
      let (parameters, rest) ← parameterList? inside
      let returnType ← returnType? rest
      some ⟨name, some parameters, returnType⟩
  | none =>
      let rest := if (Text.trimStart rest).isEmpty then [] else rest
      let returnType ← returnType? rest
      some ⟨name, none, returnType⟩

end Heading

namespace Signature

/-- Modifiers that can lead a signature. -/
def modifiers : List AccessModifier :=
  [.public, .private, .friend]

/-- The modifier of a signature that a word spells. -/
def modifier? (word : Text) : Option AccessModifier :=
  (AccessModifier.ofKeyword? word).filter modifiers.contains

/-- A leading keyword with what follows it, or the text as it is. -/
def leading (recognise : Text → Option α) (text : Text) : Option α × Text :=
  match Phrase.keyword? recognise text with
  | some (found, rest) => (some found, rest)
  | none => (none, text)

/-- The keyword of a procedure: a method kind, or `none` for a property. -/
def procedure? (word : Text) : Option (Option MethodKind) :=
  if word = "Property" then some none
  else (MethodKind.ofKeyword? word).map some

/-- The heading behind a procedure keyword, with its accessor if reading one
leads to a heading. -/
def accessed? (text : Text) : Option (Option Accessor × Heading) :=
  Phrase.optionally Accessor.ofKeyword? text fun accessor rest =>
    (Heading.read? rest).map fun heading => (accessor, heading)

/-- Read a signature. -/
def read? (code : Text) : Option Signature := do
  let (modifier, rest) := leading modifier? code
  let (isStatic, rest) := leading (Phrase.word? "Static") rest
  let (kind, rest) ← Phrase.keyword? procedure? rest
  let (accessor, heading) ← accessed? rest
  match kind, accessor with
  | none, some accessor =>
      some ⟨modifier, isStatic.isSome, .property accessor, heading⟩
  | some kind, none => some ⟨modifier, isStatic.isSome, .method kind, heading⟩
  | _, _ => none

/-- Whether a line of code opens a property procedure, a sub or a function. -/
def opensMember (code : Text) : Bool :=
  (read? code).isSome

/-- What closes the body behind a signature. -/
def terminator (signature : Signature) : Terminator :=
  match signature.procedure with
  | .property _ => .endProperty
  | .method kind => .endMethod kind

/-- The payload of a signature's node. -/
def payload (signature : Signature) : Payload :=
  match signature.procedure with
  | .property accessor => .property signature.modifier signature.isStatic accessor
  | .method kind => .method signature.modifier signature.isStatic kind

/-- The identifier that a signature declares.  A return type that ends in empty
parentheses is an array of the type in front of them. -/
def identifier (signature : Signature) (line : Nat) : Node :=
  let heading := signature.heading
  match heading.returnType.bind (Text.before? "()") with
  | some element =>
      Node.identifier heading.name (some "()") none (some (Text.trimEnd element)) line
  | none => Node.identifier heading.name none none heading.returnType line

/-- The node of a signature, before its body is read. -/
def node (signature : Signature) (line : Nat) : Node :=
  let parameters := signature.heading.parameters.elim [] fun list =>
    Parameter.nodes list line
  ⟨signature.heading.name, line, signature.payload,
    signature.identifier line :: parameters⟩

/-- The segments of a signature's parameter list that are no parameters. -/
def skippedParameters (signature : Signature) : List Text :=
  signature.heading.parameters.elim [] Parameter.skipped

end Signature

end ClassicBasic
