import ClassicBasic.Node

namespace ClassicBasic.Node

/-!
# Questions to a node

What a node says about itself and the nodes directly below it.  Attributes are
looked up by name, and of several with one name the first counts.
-/

/-- The children of one kind. -/
def childrenOfKind (node : Node) (kind : NodeKind) : List Node :=
  node.children.filter fun child => child.kind = kind

/-- The first child of a kind. -/
def firstChild? (node : Node) (kind : NodeKind) : Option Node :=
  node.children.find? fun child => child.kind = kind

/-- The first identifier below a declaration, member or parameter. -/
def identifierNode? (node : Node) : Option Node :=
  node.firstChild? .identifier

/-- The identifier that a node is or has. -/
def ownIdentifier? (node : Node) : Option Node :=
  if node.kind = .identifier then some node else node.identifierNode?

/-- The declared type of a node's identifier, looked for inside its
initializer when it does not stand alone. -/
def typeName? (node : Node) : Option Text := do
  let identifier ← node.ownIdentifier?
  let reference ←
    identifier.firstChild? .typeReference <|>
      (identifier.firstChild? .initializer).bind (·.firstChild? .typeReference)
  some reference.name

/-- Whether a node's identifier has array bounds. -/
def isArray (node : Node) : Bool :=
  node.ownIdentifier?.any fun identifier => (identifier.firstChild? .arraySpec).isSome

/-- The value of an attribute. -/
def value? (node : Node) : Option Text :=
  match node.payload with
  | .attributeLine value _ => some value
  | _ => none

/-- Whether a node is an attribute with the given name. -/
def isAttribute (name : Text) (node : Node) : Bool :=
  node.kind = .attributeLine && node.name = name

/-- The first attribute below a node with the given name. -/
def attribute? (node : Node) (name : Text) : Option Node :=
  node.children.find? (isAttribute name)

/-- The value of the first attribute with the given name. -/
def attributeValue? (node : Node) (name : Text) : Option Text :=
  (node.attribute? name).bind value?

/-- A list of entries with one more, in front of the first whose name is not smaller. -/
def insertByName (entry : Text × Node) : List (Text × Node) → List (Text × Node)
  | [] => [entry]
  | next :: rest =>
      if next.1 < entry.1 then next :: insertByName entry rest else entry :: next :: rest

/-- An index with a node entered under its name, unless the name is taken. -/
def enterFirst (index : List (Text × Node)) (node : Node) : List (Text × Node) :=
  if (index.lookup node.name).isSome then index else insertByName (node.name, node) index

/-- The attributes below a node by their names, in the order of the names.  They are
entered as they come, so that the first of each name is kept. -/
def attributeIndex (node : Node) : List (Text × Node) :=
  (node.childrenOfKind .attributeLine).foldl enterFirst []

/-- The attribute that holds the name of a module. -/
def nameAttribute : Text := "VB_Name"

/-- The name of a module as its name attribute gives it. -/
def moduleName? (node : Node) : Option Text :=
  node.attributeValue? nameAttribute

/-- The class flags of a class module. -/
def classFlags? (node : Node) : Option ClassFlags :=
  match node.payload with
  | .module _ flags => flags
  | _ => none

/-- Whether a node is the root of a class module. -/
def isClassModule (node : Node) : Bool :=
  node.classFlags?.isSome

/-- How a parameter is passed in effect. -/
def effectivePassing? (node : Node) : Option PassingMode :=
  match node.payload with
  | .parameter passing .. => some passing.effective
  | _ => none

end ClassicBasic.Node
