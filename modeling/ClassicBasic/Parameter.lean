import ClassicBasic.Node
import ClassicBasic.Phrase
import ClassicBasic.Text.TopLevel

namespace ClassicBasic

/-!
# Parameters

The list between the parentheses of a signature or of a `Declare` statement.
Its segments are read one by one, and segments that are no parameters are
skipped.
-/

/-- A parameter as written. -/
structure Parameter where
  isOptional : Bool
  passing : PassingMode
  isParamArray : Bool
  /-- The name with its type suffix. -/
  name : Text
  /-- Whether empty array bounds follow the name. -/
  hasBounds : Bool
  typeName : Option Text
  defaultValue : Option Text
  deriving Repr, DecidableEq

namespace Parameter

/-- The passing mode that a keyword stands for. -/
def passing? (word : Text) : Option PassingMode :=
  if word = "ByRef" then some .byReference
  else if word = "ByVal" then some .byValue
  else none

/-- Empty array bounds, and what follows them. -/
def bounds (text : Text) : Bool × Text :=
  match Text.after? "()" (Text.trimStart text) with
  | some rest => (true, rest)
  | none => (false, text)

/-- The type behind `As`, and what follows it. -/
def typeClause (text : Text) : Option Text × Text :=
  match (Phrase.afterAs? text).bind Phrase.typeName? with
  | some (typeName, rest) => (some typeName, rest)
  | none => (none, text)

/-- Read a parameter from its name on. -/
def readNamed?
    (isOptional : Bool)
    (passing : PassingMode)
    (isParamArray : Bool)
    (text : Text) :
    Option Parameter := do
  let (name, rest) ← Phrase.suffixedName? text
  let (hasBounds, rest) := bounds rest
  let (typeName, rest) := typeClause rest
  let defaultValue ← Phrase.finalValue? rest
  some ⟨isOptional, passing, isParamArray, name, hasBounds, typeName, defaultValue⟩

/-- Read a parameter that has no blanks around it. -/
def read? (text : Text) : Option Parameter :=
  Phrase.optionally (Phrase.word? "Optional") text fun isOptional text =>
    Phrase.optionally passing? text fun passing text =>
      Phrase.optionally (Phrase.word? "ParamArray") text fun isParamArray text =>
        readNamed? isOptional.isSome (passing.getD .unspecified)
          isParamArray.isSome text

/-- The segments of a parameter list that are not blank. -/
def segments (text : Text) : List Text :=
  ((Text.splitTopLevel ',' text).map Text.trim).filter fun segment => !segment.isEmpty

/-- The parameters of a list. -/
def readAll (text : Text) : List Parameter :=
  (segments text).filterMap read?

/-- The segments of a list that are no parameters. -/
def skipped (text : Text) : List Text :=
  (segments text).filter fun segment => (read? segment).isNone

/-- The node of a parameter.  A parameter array is an array even where its
bounds are not written. -/
def node (parameter : Parameter) (line : Nat) : Node :=
  let isArray := parameter.isParamArray || parameter.hasBounds
  let arraySpec : Option Text := if isArray then some "()" else none
  (Node.leaf
      (.parameter parameter.passing parameter.isOptional parameter.isParamArray
        parameter.defaultValue)
      parameter.name line).withChildren
    [Node.identifier parameter.name arraySpec none parameter.typeName line]

/-- The nodes of a parameter list. -/
def nodes (text : Text) (line : Nat) : List Node :=
  (readAll text).map fun parameter => parameter.node line

end Parameter

end ClassicBasic
