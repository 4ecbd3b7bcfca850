import ClassicBasic.Keyword

namespace ClassicBasic

/-!
# The tree of a module

A module is a tree of nodes.  Every node has a name, the physical line that it
starts on, a payload that belongs to its kind, and the nodes below it.
-/

/-- The kinds of nodes. -/
inductive NodeKind where
  | module
  | attributeLine
  | declaration
  | identifier
  | typeReference
  | arraySpec
  | initializer
  | interface
  | property
  | method
  | parameter
  | enumMember
  | codeBlock
  | comment
  | memberReference
  deriving Repr, DecidableEq

/-- Flags in the header of a class module, in the order of its lines. -/
structure ClassFlags where
  multiUse : Int32
  persistable : Int32
  dataBindingBehavior : Int32
  dataSourceBehavior : Int32
  mtsTransactionMode : Int32
  deriving DecidableEq

/-- The procedure that a `Declare` statement makes known. -/
structure ExternalProcedure where
  kind : MethodKind
  library : Text
  aliasName : Option Text
  deriving Repr, DecidableEq

/-- What a node carries according to its kind. -/
inductive Payload where
  /-- The root.  Only class modules have class flags. -/
  | module (fileName : Text) (classFlags : Option ClassFlags)
  /-- `quoted` tells that the value was written as a string literal. -/
  | attributeLine (value : Text) (quoted : Bool)
  | declaration
      (modifier : Option AccessModifier)
      (keyword : DeclarationKeyword)
      (constantValue : Option Text)
      (withEvents : Bool)
      (externalProcedure : Option ExternalProcedure)
  | identifier
  | typeReference
  | arraySpec
  | initializer
  | interface
  | property
      (modifier : Option AccessModifier)
      (isStatic : Bool)
      (accessor : Accessor)
  | method
      (modifier : Option AccessModifier)
      (isStatic : Bool)
      (kind : MethodKind)
  | parameter
      (passing : PassingMode)
      (isOptional : Bool)
      (isParamArray : Bool)
      (defaultValue : Option Text)
  /-- `isExplicit` tells that the value was written and not counted on. -/
  | enumMember (value : Int64) (isExplicit : Bool)
  | codeBlock
  | comment
  | memberReference
  deriving DecidableEq

/-- A node of the tree. -/
structure Node where
  name : Text
  line : Nat
  payload : Payload
  children : List Node

namespace NodeKind

/-- The name of a kind. -/
def name : NodeKind → Text
  | .module => "Module"
  | .attributeLine => "Attribute"
  | .declaration => "Declaration"
  | .identifier => "Identifier"
  | .typeReference => "TypeReference"
  | .arraySpec => "ArraySpec"
  | .initializer => "Initializer"
  | .interface => "Interface"
  | .property => "Property"
  | .method => "Method"
  | .parameter => "Parameter"
  | .enumMember => "EnumMember"
  | .codeBlock => "CodeBlock"
  | .comment => "Comment"
  | .memberReference => "MemberReference"

/-- All kinds. -/
def all : List NodeKind :=
  [.module, .attributeLine, .declaration, .identifier, .typeReference,
    .arraySpec, .initializer, .interface, .property, .method, .parameter,
    .enumMember, .codeBlock, .comment, .memberReference]

/-- The kind with the given name. -/
def ofName? (name : Text) : Option NodeKind :=
  all.find? fun kind => kind.name = name

end NodeKind

/-- The kind that a payload belongs to. -/
def Payload.kind : Payload → NodeKind
  | .module .. => .module
  | .attributeLine .. => .attributeLine
  | .declaration .. => .declaration
  | .identifier => .identifier
  | .typeReference => .typeReference
  | .arraySpec => .arraySpec
  | .initializer => .initializer
  | .interface => .interface
  | .property .. => .property
  | .method .. => .method
  | .parameter .. => .parameter
  | .enumMember .. => .enumMember
  | .codeBlock => .codeBlock
  | .comment => .comment
  | .memberReference => .memberReference

namespace Node

/-- The kind of a node. -/
def kind (node : Node) : NodeKind :=
  node.payload.kind

/-- A node with nothing below it. -/
def leaf (payload : Payload) (name : Text) (line : Nat) : Node :=
  ⟨name, line, payload, []⟩

/-- A node with more children behind those it has. -/
def withChildren (node : Node) (children : List Node) : Node :=
  { node with children := node.children ++ children }

/-- A reference to a type. -/
def typeReference (name : Text) (line : Nat) : Node :=
  leaf .typeReference name line

/-- An identifier: its array bounds, if it has any, and then either an
initializer around its type or the type alone.  An empty part counts as
missing. -/
def identifier
    (name : Text)
    (arraySpec initializer typeName : Option Text)
    (line : Nat) :
    Node :=
  let present := Option.filter fun (part : Text) => !part.isEmpty
  let bounds := ((present arraySpec).map fun spec => leaf .arraySpec spec line).toList
  let reference := ((present typeName).map fun name => typeReference name line).toList
  let typed :=
    match present initializer with
    | some keyword => [(leaf .initializer keyword line).withChildren reference]
    | none => reference
  ⟨name, line, .identifier, bounds ++ typed⟩

end Node

end ClassicBasic
