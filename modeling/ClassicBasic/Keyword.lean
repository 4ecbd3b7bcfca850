import ClassicBasic.Text

namespace ClassicBasic

/-!
# Keywords

The keywords that lead declarations and signatures.  Each type lists the words
that one place of a line may hold; `keyword` spells a word and `ofKeyword?`
reads it back.
-/

/-- Access modifiers that can lead a declaration or signature. -/
inductive AccessModifier where
  | «public»
  | «private»
  | friend
  | global
  | static
  | dim
  deriving Repr, DecidableEq

/-- The primary keyword of a declaration.  A field of a user-defined type has
no keyword in source text. -/
inductive DeclarationKeyword where
  | dim
  | static
  | «public»
  | «private»
  | friend
  | global
  | const
  | declare
  | type
  | enum
  | field
  deriving Repr, DecidableEq

/-- Which access to a property a procedure implements. -/
inductive Accessor where
  | get
  | letValue
  | setReference
  deriving Repr, DecidableEq

/-- The kind of a method or of an external procedure. -/
inductive MethodKind where
  | sub
  | function
  deriving Repr, DecidableEq

/-- How an argument is passed to a parameter. -/
inductive PassingMode where
  /-- Neither mode is written. -/
  | unspecified
  | byReference
  | byValue
  deriving Repr, DecidableEq

namespace AccessModifier

/-- The spelling of an access modifier. -/
def keyword : AccessModifier → Text
  | .public => "Public"
  | .private => "Private"
  | .friend => "Friend"
  | .global => "Global"
  | .static => "Static"
  | .dim => "Dim"

/-- All access modifiers. -/
def all : List AccessModifier :=
  [.public, .private, .friend, .global, .static, .dim]

/-- The access modifier with the given spelling. -/
def ofKeyword? (word : Text) : Option AccessModifier :=
  all.find? fun modifier => modifier.keyword = word

end AccessModifier

namespace DeclarationKeyword

/-- The name of a declaration keyword, its spelling if it has one. -/
def keyword : DeclarationKeyword → Text
  | .dim => "Dim"
  | .static => "Static"
  | .public => "Public"
  | .private => "Private"
  | .friend => "Friend"
  | .global => "Global"
  | .const => "Const"
  | .declare => "Declare"
  | .type => "Type"
  | .enum => "Enum"
  | .field => "Field"

/-- The declaration keywords that source text can hold. -/
def written : List DeclarationKeyword :=
  [.dim, .static, .public, .private, .friend, .global,
    .const, .declare, .type, .enum]

/-- The declaration keyword with the given spelling. -/
def ofKeyword? (word : Text) : Option DeclarationKeyword :=
  written.find? fun declaration => declaration.keyword = word

end DeclarationKeyword

namespace Accessor

/-- The spelling of an accessor. -/
def keyword : Accessor → Text
  | .get => "Get"
  | .letValue => "Let"
  | .setReference => "Set"

/-- All accessors. -/
def all : List Accessor :=
  [.get, .letValue, .setReference]

/-- The accessor with the given spelling. -/
def ofKeyword? (word : Text) : Option Accessor :=
  all.find? fun accessor => accessor.keyword = word

end Accessor

namespace MethodKind

/-- The spelling of a method kind. -/
def keyword : MethodKind → Text
  | .sub => "Sub"
  | .function => "Function"

/-- All method kinds. -/
def all : List MethodKind :=
  [.sub, .function]

/-- The method kind with the given spelling. -/
def ofKeyword? (word : Text) : Option MethodKind :=
  all.find? fun kind => kind.keyword = word

end MethodKind

namespace PassingMode

/-- The passing mode that applies; an unspecified one is by reference. -/
def effective : PassingMode → PassingMode
  | .byValue => .byValue
  | .unspecified | .byReference => .byReference

end PassingMode

end ClassicBasic
