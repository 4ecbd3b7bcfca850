import ClassicBasic.Node

namespace ClassicBasic

/-!
# Nodes in words

One line of text for a node: its kind, the keywords that matter and its name.
-/

namespace PassingMode

/-- The name of a passing mode, its spelling if it has one. -/
def name : PassingMode → Text
  | .unspecified => "Default"
  | .byReference => "ByRef"
  | .byValue => "ByVal"

end PassingMode

namespace Node

/-- A parameter in words. -/
def displayParameter
    (name : Text)
    (passing : PassingMode)
    (isOptional isParamArray : Bool)
    (defaultValue : Option Text) :
    Text :=
  Text.concat
    ["Parameter ", name,
      if isOptional then " Optional" else "",
      if passing = .unspecified then "" else Text.concat [" ", passing.name],
      if isParamArray then " ParamArray" else "",
      defaultValue.elim "" fun value => Text.concat [" = ", value]]

/-- A keyword and the space behind it, or nothing. -/
def leadingKeyword (keyword : Option Text) : Text :=
  keyword.elim "" fun word => Text.concat [word, " "]

/-- A node in words.  A declaration names its modifier only where it differs
from its keyword. -/
def display (node : Node) : Text :=
  match node.payload with
  | .module _ flags =>
      Text.concat [if flags.isSome then "ClassModule " else "Module ", node.name]
  | .attributeLine value _ =>
      Text.concat ["Attribute ", node.name, " = ", value]
  | .declaration modifier keyword .. =>
      let leading := (modifier.map (·.keyword)).filter (· ≠ keyword.keyword)
      Text.concat
        ["Declaration ", leadingKeyword leading, keyword.keyword, " ", node.name]
  | .property modifier _ accessor =>
      Text.concat
        ["Property ", leadingKeyword (modifier.map (·.keyword)),
          accessor.keyword, " ", node.name]
  | .method modifier _ kind =>
      Text.concat
        ["Method ", leadingKeyword (modifier.map (·.keyword)),
          kind.keyword, " ", node.name]
  | .parameter passing isOptional isParamArray defaultValue =>
      displayParameter node.name passing isOptional isParamArray defaultValue
  | .enumMember value _ =>
      Text.concat ["EnumMember ", node.name, " = ", toString value.toInt]
  | _ => Text.concat [node.kind.name, " ", node.name]

end Node

end ClassicBasic
