import ClassicBasic.Declaration.Declarator
import ClassicBasic.Declaration.External
import ClassicBasic.Terminator

namespace ClassicBasic

/-!
# Declaring instructions

An instruction of the declaration section names an interface, makes an
external procedure known, declares variables or constants, or opens the block
of a user-defined type or of an enumeration.
-/

/-- The two kinds of blocks in a declaration section. -/
inductive BlockKind where
  | type
  | enum
  deriving Repr, DecidableEq

namespace BlockKind

/-- The keyword that opens a block. -/
def keyword : BlockKind → DeclarationKeyword
  | .type => .type
  | .enum => .enum

/-- What closes a block. -/
def terminator : BlockKind → Terminator
  | .type => .endType
  | .enum => .endEnum

end BlockKind

/-- An instruction that declares something. -/
inductive DeclaringInstruction where
  | implements (interface : Text)
  | externalProcedure (statement : ExternalDeclaration)
  | variables
      (modifier : Option AccessModifier)
      (keyword : DeclarationKeyword)
      (declarators : List Declarator)
  | block (modifier : Option AccessModifier) (kind : BlockKind) (name : Text)
  deriving Repr, DecidableEq

namespace DeclaringInstruction

/-- The interface that an instruction names. -/
def interface? (text : Text) : Option Text := do
  let (_, rest) ← Phrase.keyword? (Phrase.word? "Implements") text
  let (interface, rest) ← Phrase.name? rest
  if rest.isEmpty then some interface else none

/-- Keywords that a declaration can have; `Declare` has a form of its own. -/
def keyword? (word : Text) : Option DeclarationKeyword :=
  (DeclarationKeyword.ofKeyword? word).filter (· ≠ .declare)

/-- The declarators of a list.  Segments that are no declarators are left out. -/
def declarators (text : Text) : List Declarator :=
  (((Text.splitTopLevel ',' text).map Text.trim).filter fun segment =>
    !segment.isEmpty).filterMap Declarator.read?

/-- What stands behind the keyword of a declaration: a text without line feed. -/
def readKeyword? (text : Text) : Option (DeclarationKeyword × Text) := do
  let (keyword, rest) ← Phrase.keyword? keyword? text
  if rest.isEmpty || rest.contains '\n' then none else some (keyword, rest)

/-- The modifier and keyword of a declaration with what stands behind them.
The first word is a modifier if a keyword follows it; otherwise it is the
keyword, and the modifier too where it can be one. -/
def readLeading? (text : Text) :
    Option (Option AccessModifier × DeclarationKeyword × Text) :=
  Phrase.optionally AccessModifier.ofKeyword? text fun modifier rest => do
    let (keyword, rest) ← readKeyword? rest
    let own := AccessModifier.ofKeyword? keyword.keyword
    some (modifier <|> own, keyword, rest)

/-- Read a declaration of variables or constants, or the opening of a block. -/
def declaration? (text : Text) : Option DeclaringInstruction := do
  let (modifier, keyword, rest) ← readLeading? text
  match keyword with
  | .type => some (.block modifier .type (Text.trim rest))
  | .enum => some (.block modifier .enum (Text.trim rest))
  | _ =>
      match declarators rest with
      | [] => none
      | declarators => some (.variables modifier keyword declarators)

/-- Read an instruction that has no blanks around it. -/
def read? (text : Text) : Option DeclaringInstruction :=
  (interface? text).map .implements <|>
    (ExternalDeclaration.read? text).map .externalProcedure <|>
      declaration? text

end DeclaringInstruction

end ClassicBasic
