import ClassicBasic.Attribute
import ClassicBasic.Declaration.Block
import ClassicBasic.Node.Display
import ClassicBasic.Proofs.Line.Layout
import ClassicBasic.Signature

namespace ClassicBasic

/-!
# Renumbering trees

A node takes its line from the line that it is read from, and nothing else in
it depends on that line: what is read from a renumbered line is what is read
from the line, renumbered.
-/

namespace Node

mutual

/-- A tree with other line numbers. -/
def renumber (f : Nat → Nat) : Node → Node
  | ⟨name, line, payload, children⟩ =>
      ⟨name, f line, payload, renumberAll f children⟩

/-- Several trees with other line numbers. -/
def renumberAll (f : Nat → Nat) : List Node → List Node
  | [] => []
  | node :: rest => renumber f node :: renumberAll f rest

end

section

variable (f : Nat → Nat)

/-- Trees move one by one. -/
theorem renumberAll_eq_map
    (nodes : List Node) :
    renumberAll f nodes = nodes.map (renumber f) := by
  induction nodes with
  | nil =>
      rfl
  | cons node rest inductionHypothesis =>
      rw [renumberAll, inductionHypothesis, List.map_cons]

/-- A tree moves with all that is below it. -/
@[simp] theorem renumber_mk
    (name : Text)
    (line : Nat)
    (payload : Payload)
    (children : List Node) :
    renumber f ⟨name, line, payload, children⟩ =
      ⟨name, f line, payload, children.map (renumber f)⟩ := by
  rw [renumber, renumberAll_eq_map]

/-- A node that moves keeps its name. -/
@[simp] theorem name_renumber
    (node : Node) :
    (node.renumber f).name = node.name := by
  cases node
  rfl

/-- A node that moves has the new number of its line. -/
@[simp] theorem line_renumber
    (node : Node) :
    (node.renumber f).line = f node.line := by
  cases node
  rfl

/-- A node that moves keeps its payload. -/
@[simp] theorem payload_renumber
    (node : Node) :
    (node.renumber f).payload = node.payload := by
  cases node
  rfl

/-- A node that moves keeps its kind. -/
@[simp] theorem kind_renumber
    (node : Node) :
    (node.renumber f).kind = node.kind := by
  rw [kind, payload_renumber, kind]

/-- A node in words does not tell its line. -/
@[simp] theorem display_renumber
    (node : Node) :
    (node.renumber f).display = node.display := by
  simp only [display, payload_renumber, name_renumber, kind_renumber]

/-- A leaf moves alone. -/
@[simp] theorem renumber_leaf
    (payload : Payload)
    (name : Text)
    (line : Nat) :
    (leaf payload name line).renumber f = leaf payload name (f line) := by
  rfl

/-- New children move with their node. -/
@[simp] theorem renumber_withChildren
    (node : Node)
    (children : List Node) :
    (node.withChildren children).renumber f =
      (node.renumber f).withChildren (children.map (renumber f)) := by
  cases node
  simp [withChildren]

/-- A type moves with its line. -/
@[simp] theorem renumber_typeReference
    (name : Text)
    (line : Nat) :
    (typeReference name line).renumber f = typeReference name (f line) := by
  rfl

/-- An identifier moves with its line. -/
@[simp] theorem renumber_identifier
    (name : Text)
    (arraySpec initializer typeName : Option Text)
    (line : Nat) :
    (identifier name arraySpec initializer typeName line).renumber f =
      identifier name arraySpec initializer typeName (f line) := by
  unfold identifier
  dsimp only
  split <;>
    simp [Option.toList_map, Function.comp_def]

end

end Node

/-! ## Nodes of phrases -/

section

variable (f : Nat → Nat)

/-- An attribute moves with its line. -/
@[simp] theorem Attribute.renumber_node
    (stated : Attribute)
    (line : Nat) :
    (stated.node line).renumber f = stated.node (f line) := by
  simp [Attribute.node, Option.toList_map]

/-- An attribute is read alike from any line. -/
theorem Attribute.map_renumber_readNode?
    (text : Text)
    (line : Nat) :
    (readNode? text line).map (Node.renumber f) = readNode? text (f line) := by
  simp [readNode?, Function.comp_def]

/-- A parameter moves with its line. -/
@[simp] theorem Parameter.renumber_node
    (parameter : Parameter)
    (line : Nat) :
    (parameter.node line).renumber f = parameter.node (f line) := by
  simp [Parameter.node]

/-- The parameters of a list move with its line. -/
@[simp] theorem Parameter.map_renumber_nodes
    (text : Text)
    (line : Nat) :
    (nodes text line).map (Node.renumber f) = nodes text (f line) := by
  simp [nodes]

/-- A declared variable moves with its line. -/
@[simp] theorem Declarator.renumber_node
    (declarator : Declarator)
    (modifier : Option AccessModifier)
    (keyword : DeclarationKeyword)
    (line : Nat) :
    (declarator.node modifier keyword line).renumber f =
      declarator.node modifier keyword (f line) := by
  simp [Declarator.node]

/-- An external procedure moves with its line. -/
@[simp] theorem ExternalDeclaration.renumber_node
    (statement : ExternalDeclaration)
    (line : Nat) :
    (statement.node line).renumber f = statement.node (f line) := by
  cases parameters : statement.parameters <;>
    simp [ExternalDeclaration.node, parameters]

/-- A member of an enumeration moves with its line and keeps its value. -/
@[simp] theorem EnumMember.renumber_node
    (member : EnumMember)
    (value : Int64)
    (line : Nat) :
    (member.node value line).renumber f = member.node value (f line) := by
  simp [EnumMember.node]

/-- The identifier of a member moves with its signature. -/
@[simp] theorem Signature.renumber_identifier
    (signature : Signature)
    (line : Nat) :
    (signature.identifier line).renumber f = signature.identifier (f line) := by
  unfold Signature.identifier
  dsimp only
  split <;>
    simp

/-- A signature moves with its line. -/
@[simp] theorem Signature.renumber_node
    (signature : Signature)
    (line : Nat) :
    (signature.node line).renumber f = signature.node (f line) := by
  cases parameters : signature.heading.parameters <;>
    simp [Signature.node, parameters]

end

/-! ## Nodes of blocks -/

namespace OpenBlock

/-- A block with other line numbers. -/
def renumber
    (f : Nat → Nat)
    (block : OpenBlock) :
    OpenBlock :=
  { block with
    line := f block.line
    lines := block.lines.map (Line.renumber f) }

variable (f : Nat → Nat)

/-- A field is read alike from any line. -/
theorem field?_renumber
    (line : Line) :
    field? (line.renumber f) = (field? line).map (Node.renumber f) := by
  simp [field?, Function.comp_def]

/-- Whether a line says anything does not depend on its number. -/
theorem filter_isSilent_renumber
    (lines : List Line) :
    (lines.map (Line.renumber f)).filter (fun line => !isSilent line.code) =
      (lines.filter fun line => !isSilent line.code).map (Line.renumber f) := by
  rw [List.filter_map]
  rfl

/-- The fields of a block move with their lines. -/
theorem fields_renumber
    (lines : List Line) :
    fields (lines.map (Line.renumber f)) =
      (fields lines).map (Node.renumber f) := by
  simp only [fields, filter_isSilent_renumber, List.filterMap_map,
    List.map_filterMap, Function.comp_def, field?_renumber]

/-- Counting on does not look at line numbers. -/
theorem numberMembers_renumber
    (next : Int64)
    (members : List (EnumMember × Nat)) :
    numberMembers next (members.map (Prod.map id f)) =
      (numberMembers next members).map (Node.renumber f) := by
  induction members generalizing next with
  | nil =>
      rfl
  | cons member rest inductionHypothesis =>
      simp only [List.map_cons, numberMembers, Prod.map_fst, Prod.map_snd, id,
        inductionHypothesis, EnumMember.renumber_node]

/-- A member of an enumeration is read alike from any line. -/
theorem enumMember?_renumber
    (line : Line) :
    enumMember? (line.renumber f) = (enumMember? line).map (Prod.map id f) := by
  simp [enumMember?, Function.comp_def]

/-- The members of an enumeration move with their lines and keep their values. -/
theorem enumMembers_renumber
    (lines : List Line) :
    enumMembers (lines.map (Line.renumber f)) =
      (enumMembers lines).map (Node.renumber f) := by
  simp only [enumMembers, filter_isSilent_renumber, ← numberMembers_renumber,
    List.filterMap_map, List.map_filterMap, Function.comp_def,
    enumMember?_renumber]

/-- The node of a block moves with its lines. -/
@[simp] theorem node_renumber
    (block : OpenBlock) :
    (block.renumber f).node = block.node.renumber f := by
  rcases block with ⟨kind, modifier, name, line, lines⟩
  cases kind <;>
    simp [renumber, node, ← List.map_reverse, fields_renumber,
      enumMembers_renumber]

end OpenBlock

end ClassicBasic
