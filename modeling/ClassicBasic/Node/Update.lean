import ClassicBasic.Node.Query

namespace ClassicBasic.Node

/-!
# Changing a node

An attribute is changed by writing a new value into the first attribute with
its name, and a module is renamed through its name attribute.
-/

/-- A node with another value, if it is an attribute. -/
def withValue (node : Node) (value : Text) : Node :=
  match node.payload with
  | .attributeLine _ quoted => { node with payload := .attributeLine value quoted }
  | _ => node

/-- Write a value into the first attribute of a list with the given name. -/
def setValueIn? (name value : Text) : List Node → Option (List Node)
  | [] => none
  | node :: rest =>
      if isAttribute name node then some (node.withValue value :: rest)
      else (setValueIn? name value rest).map (node :: ·)

/-- A node with a new value for the first attribute of the given name. -/
def setAttributeValue? (node : Node) (name value : Text) : Option Node :=
  (setValueIn? name value node.children).map fun children =>
    { node with children := children }

/-- A module with another name, in its name attribute and in its root. -/
def renameModule? (node : Node) (name : Text) : Option Node :=
  (node.setAttributeValue? nameAttribute name).map fun renamed =>
    { renamed with name := name }

/-- The node at the end of a path of child positions. -/
def get? (node : Node) : List Nat → Option Node
  | [] => some node
  | position :: path => node.children[position]?.bind fun child => child.get? path

/-- Replace the node at the end of a path of child positions. -/
def replace? (node replacement : Node) : List Nat → Option Node
  | [] => some replacement
  | position :: path => do
      let child ← node.children[position]?
      let changed ← child.replace? replacement path
      some { node with children := node.children.set position changed }

end ClassicBasic.Node
