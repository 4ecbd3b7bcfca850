import ClassicBasic.Text.Blank

namespace ClassicBasic

/-!
# Tokens

A token is one instruction with its kind and its place.  What the kind was
recognised by is part of the kind.
-/

/-- Place of a token: physical line and 1-based column in the logical line. -/
structure Location where
  line : Nat
  column : Nat
  deriving Repr, DecidableEq

/-- What an instruction is. -/
inductive TokenKind where
  | comment
  | attributeLine
  | label (name : Text) (isCase : Bool)
  /-- `isMember` tells that an `As` clause, and no leading keyword, makes the
  instruction a declaration. -/
  | declaration (keyword : Text) (isMember : Bool)
  | instruction (keyword : Text)
  | statement (keyword : Text)
  | expression
  | procedureCall (target : Text)
  deriving Repr, DecidableEq

namespace TokenKind

/-- The name of a token kind. -/
def name : TokenKind → Text
  | .comment => "Comment"
  | .attributeLine => "Attribute"
  | .label .. => "Label"
  | .declaration .. => "Declaration"
  | .instruction .. => "Instruction"
  | .statement .. => "Statement"
  | .expression => "Expression"
  | .procedureCall .. => "ProcedureCall"

/-- The keyword or marker that a token kind was recognised by. -/
def keyword : TokenKind → Text
  | .comment => "'"
  | .attributeLine => "Attribute"
  | .label .. => ":"
  | .declaration keyword _ => keyword
  | .instruction keyword => keyword
  | .statement keyword => keyword
  | .expression => "="
  | .procedureCall target => target

end TokenKind

/-- An instruction with its kind and its place. -/
structure Token where
  kind : TokenKind
  instruction : Text
  location : Location
  deriving Repr, DecidableEq

namespace Token

/-- A token in words: its kind, what it was recognised by, and its text. -/
def display (token : Token) : Text :=
  Text.concat
    [token.kind.name, ": [", token.kind.keyword, "] ", Text.trim token.instruction]

end Token

end ClassicBasic
