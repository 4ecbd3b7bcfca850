import ClassicBasic.Proofs.Node.Listing
import ClassicBasic.Proofs.Node.Shape

namespace ClassicBasic

/-!
# Where blocks of declarations stand in a tree

A user-defined type or an enumeration is declared only in the declaration section of
its module.  Nothing below another node declares a block, so a walk over a module
meets its blocks among the declarations and nowhere else.
-/

/-- The kind of block that a payload belongs to. -/
def Payload.blockKind? : Payload → Option BlockKind
  | .declaration _ .type _ _ _ => some .type
  | .declaration _ .enum _ _ _ => some .enum
  | _ => none

/-- Only declarations are blocks. -/
theorem Payload.kind_of_blockKind?
    {payload : Payload}
    {kind : BlockKind}
    (isBlock : payload.blockKind? = some kind) :
    payload.kind = .declaration := by
  cases payload with
  | declaration => rfl
  | _ => cases isBlock

namespace Node

/-- The kind of block that a node declares. -/
def blockKind? (node : Node) : Option BlockKind :=
  node.payload.blockKind?

/-- Whether neither a node nor anything below it declares a block. -/
def WithoutBlocks (node : Node) : Prop :=
  ∀ part ∈ preorder [node], part.blockKind? = none

section

variable {node : Node}

/-- A tree is without blocks if its root is none and the trees below have none. -/
theorem withoutBlocks_iff :
    node.WithoutBlocks ↔
      node.blockKind? = none ∧ ∀ child ∈ node.children, child.WithoutBlocks := by
  constructor
  · intro without
    refine ⟨without node (by simp), fun child isChild part isPart => ?_⟩
    exact without part (mem_preorder_singleton.mpr (.inr ⟨child, isChild, isPart⟩))
  · rintro ⟨plain, below⟩ part isPart
    rcases mem_preorder_singleton.mp isPart with rfl | ⟨child, isChild, isInside⟩
    · exact plain
    · exact below child isChild part isInside

/-! ## Shapes without blocks -/

/-- A leaf that is no block itself has none. -/
theorem IsLeaf.withoutBlocks
    {payload : Payload}
    (shape : IsLeaf payload node)
    (plain : payload.blockKind? = none) :
    node.WithoutBlocks := by
  cases shape
  exact withoutBlocks_iff.mpr ⟨plain, by simp⟩

/-- Nothing that types an identifier is a block. -/
theorem IsTyping.withoutBlocks
    (shape : IsTyping node) :
    node.WithoutBlocks := by
  cases shape with
  | reference isReference =>
      exact isReference.withoutBlocks rfl
  | initializer isReference =>
      refine withoutBlocks_iff.mpr ⟨rfl, ?_⟩
      simpa using isReference.withoutBlocks rfl

/-- There are no blocks in an identifier. -/
theorem IsIdentifier.withoutBlocks
    {name : Text}
    (shape : IsIdentifier name node) :
    node.WithoutBlocks := by
  cases shape with
  | mk isBounds isTyping =>
      refine withoutBlocks_iff.mpr ⟨rfl, List.forall_mem_append.mpr ⟨?_, ?_⟩⟩
      · intro child isChild
        exact (isBounds child (Option.mem_toList.mp isChild)).withoutBlocks rfl
      · intro child isChild
        exact (isTyping child (Option.mem_toList.mp isChild)).withoutBlocks

/-- There are no blocks in a parameter. -/
theorem IsParameter.withoutBlocks
    (shape : IsParameter node) :
    node.WithoutBlocks := by
  cases shape with
  | mk identifies =>
      refine withoutBlocks_iff.mpr ⟨rfl, ?_⟩
      simpa using identifies.withoutBlocks

/-- There are no blocks in an attribute. -/
theorem IsAttributeLine.withoutBlocks
    (shape : IsAttributeLine node) :
    node.WithoutBlocks := by
  cases shape with
  | mk isMember =>
      refine withoutBlocks_iff.mpr ⟨rfl, fun child isChild => ?_⟩
      exact (isMember child (Option.mem_toList.mp isChild)).withoutBlocks rfl

/-- There are no blocks inside a declaration. -/
theorem IsContent.withoutBlocks
    {keyword : DeclarationKeyword}
    (shape : IsContent keyword node) :
    node.WithoutBlocks := by
  cases keyword with
  | type =>
      cases shape with
      | mk identifies =>
          refine withoutBlocks_iff.mpr ⟨rfl, ?_⟩
          simpa using identifies.withoutBlocks
  | enum =>
      cases shape
      exact withoutBlocks_iff.mpr ⟨rfl, by simp⟩
  | declare =>
      exact IsParameter.withoutBlocks shape
  | dim | static | «public» | «private» | friend | global | const | field =>
      exact shape.elim

/-- There are no declared blocks in a body. -/
theorem IsCodeBlock.withoutBlocks
    (shape : IsCodeBlock node) :
    node.WithoutBlocks := by
  induction shape with
  | mk isCode inductionHypothesis =>
      exact withoutBlocks_iff.mpr ⟨rfl, inductionHypothesis⟩

/-- There are no declared blocks in a member. -/
theorem IsMember.withoutBlocks
    (shape : IsMember node) :
    node.WithoutBlocks := by
  cases shape with
  | @mk name line payload identifier parameters attributes body
      isProcedure identifies isParameter isAttribute isCode =>
      have plain : payload.blockKind? = none := by
        refine Option.eq_none_iff_forall_ne_some.mpr fun kind isBlock => ?_
        simp [Payload.kind_of_blockKind? isBlock] at isProcedure
      refine withoutBlocks_iff.mpr ⟨plain, ?_⟩
      simp only [List.forall_mem_cons, List.forall_mem_append]
      exact
        ⟨identifies.withoutBlocks,
          ⟨fun child isChild => (isParameter child isChild).withoutBlocks,
            fun child isChild => (isAttribute child isChild).withoutBlocks⟩,
          isCode.withoutBlocks, by simp⟩

/-- A declaration may declare a block, but nothing below it does. -/
theorem IsDeclared.withoutBlocks
    {comment : Option Node}
    (shape : IsDeclared comment node) :
    ∀ child ∈ node.children, child.WithoutBlocks := by
  cases shape with
  | declaration isDeclaration =>
      cases isDeclaration with
      | mk written isExternal identifies isContent isComment =>
          simp only [List.forall_mem_cons, List.forall_mem_append]
          refine
            ⟨identifies.withoutBlocks,
              fun child isChild => (isContent child isChild).withoutBlocks, ?_⟩
          intro child isChild
          exact (isComment child (Option.mem_toList.mp isChild)).withoutBlocks rfl
  | interface isInterface =>
      cases isInterface with
      | mk =>
          have isReference {name : Text} {line : Nat} :
              IsLeaf .typeReference (typeReference name line) :=
            .mk
          simpa using isReference.withoutBlocks rfl

end

end Node

end ClassicBasic
