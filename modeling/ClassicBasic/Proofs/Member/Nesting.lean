import ClassicBasic.Proofs.Member.Accounting
import ClassicBasic.Proofs.Module.Leaving

namespace ClassicBasic

/-!
# Terminators inside bodies

The terminator of a member neither opens nor closes a region.  So as long as a
body is not read on behind it outside all regions, the text of the terminator
stands only on nodes below regions, and these have no nodes below them.  And a
region that is open at such a line stays open up to a line that can close one:
loops that stay to be closed do not change this, because they stay so only inside
a condition.
-/

/-! ## Nesting -/

namespace Node

/-- Only lines that open regions have nodes below them. -/
def Nests (node : Node) : Prop :=
  ∀ inner ∈ preorder [node],
    inner.children ≠ [] → (opensRegion? inner.asLine.code).isSome

/-- The node of a line nests if what is below it does, and nothing is below a line
that opens nothing. -/
theorem nests_block
    {line : Line}
    {inside : List Node}
    (opens : inside ≠ [] → (opensRegion? line.code).isSome)
    (nests : ∀ node ∈ inside, node.Nests) :
    (line.block inside).Nests := by
  intro inner member hasChildren
  rcases mem_preorder_singleton.mp member with rfl | ⟨top, isTop, isInside⟩
  · exact opens hasChildren
  · exact nests top isTop inner isInside hasChildren

end Node

/-- A region is opened by its first line, and its nodes nest. -/
structure OpenRegion.Nests (region : OpenRegion) : Prop where
  opens : (opensRegion? region.opening.code).isSome
  items : ∀ node ∈ region.items, node.Nests

/-- A region that nests becomes a node that does. -/
theorem OpenRegion.Nests.node
    {region : OpenRegion}
    (nests : region.Nests) :
    region.node.Nests :=
  Node.nests_block (fun _ => nests.opens) fun node member =>
    nests.items node (List.mem_reverse.mp member)

/-- A region still nests with one more node that does. -/
theorem OpenRegion.Nests.add
    {region : OpenRegion}
    {node : Node}
    (nests : region.Nests)
    (isNested : node.Nests) :
    (region.add node).Nests := by
  refine ⟨nests.opens, ?_⟩
  intro other member
  rcases List.mem_cons.mp member with rfl | earlier
  · exact isNested
  · exact nests.items other earlier

namespace Signature

variable {signature : Signature}

/-- No terminator of a member opens a region. -/
theorem opensRegion?_terminator
    (signature : Signature) :
    opensRegion? signature.terminator.text = none := by
  have first := signature.head?_terminator
  unfold opensRegion?
  split
  · next opens =>
      rw [head?_of_opensCondition opens] at first
      cases first
  · split
    · next opens =>
        rw [head?_of_opensLoop opens] at first
        cases first
    · rfl

/-- What opens a region is no terminator of a member. -/
theorem ne_terminator_of_opens
    {code : Text}
    (opens : (opensRegion? code).isSome) :
    code ≠ signature.terminator.text := by
  rintro rfl
  rw [signature.opensRegion?_terminator] at opens
  cases opens

/-- No terminator of a member closes a region. -/
theorem not_closesRegion
    {line : Line}
    (isTerminator : line.code = signature.terminator.text) :
    ¬line.ClosesRegion := by
  rintro (isEndIf | lists)
  · exact signature.terminator_ne_endIf (isTerminator.symm.trans isEndIf)
  · obtain ⟨counters, isList⟩ := Option.isSome_iff_exists.mp lists
    have first := head?_of_nextCounters? isList
    rw [isTerminator, signature.head?_terminator] at first
    cases first

end Signature

namespace OpenBody

/-- The nodes of a body nest, and none of those outside its regions has the given
code. -/
structure Nests (body : OpenBody) (terminator : Text) : Prop where
  items : ∀ node ∈ body.items, node.Nests ∧ node.asLine.code ≠ terminator
  regions : ∀ region ∈ body.regions, region.Nests

variable {signature : Signature}

/-- A body still nests when a node is settled, whichever regions close. -/
theorem Nests.settle
    {items : List Node}
    {surplus : Nat}
    {node : Node}
    {regions : List OpenRegion}
    (isItems :
      ∀ node ∈ items,
        node.Nests ∧ node.asLine.code ≠ signature.terminator.text)
    (isNested : node.Nests)
    (outside : regions = [] → node.asLine.code ≠ signature.terminator.text)
    (isRegions : ∀ region ∈ regions, region.Nests) :
    (OpenBody.settle items surplus node regions).1.Nests
      signature.terminator.text := by
  induction regions generalizing surplus node with
  | nil =>
      refine ⟨?_, by simp [OpenBody.settle]⟩
      intro other member
      rcases List.mem_cons.mp member with rfl | earlier
      · exact ⟨isNested, outside rfl⟩
      · exact isItems other earlier
  | cons region outer inductionHypothesis =>
      have longer := (isRegions region (by simp)).add isNested
      have isOuter : ∀ other ∈ outer, other.Nests :=
        fun other member => isRegions other (by simp [member])
      unfold OpenBody.settle
      split
      · exact inductionHypothesis longer.node
          (fun _ => Signature.ne_terminator_of_opens longer.opens) isOuter
      · refine ⟨isItems, ?_⟩
        intro other member
        rcases List.mem_cons.mp member with rfl | isOther
        · exact longer
        · exact isOuter other isOther

/-- A line that is not the terminator outside all regions keeps the nesting. -/
theorem Nests.readLine
    {body : OpenBody}
    {line : Line}
    (nests : body.Nests signature.terminator.text)
    (outside : body.regions = [] → line.code ≠ signature.terminator.text) :
    (body.readLine line).1.Nests signature.terminator.text := by
  rcases body with ⟨items, regions, surplus⟩
  -- A line that closes nothing is an item whether regions are open or not.
  have item :
      (readItem ⟨items, regions, surplus⟩ line).1.Nests
        signature.terminator.text := by
    unfold readItem
    cases opens : opensRegion? line.code with
    | some kind =>
        refine ⟨nests.items, ?_⟩
        intro region member
        rcases List.mem_cons.mp member with rfl | isOpen
        · exact ⟨by simp [opens], by simp⟩
        · exact nests.regions region isOpen
    | none =>
        have leaf : (line.block []).Nests := Node.nests_block (by simp) (by simp)
        exact settle nests.items leaf outside nests.regions
  cases regions with
  | nil =>
      exact item
  | cons region outer =>
      cases closes : region.closedBy? surplus line.code with
      | none =>
          rw [readLine_item (by simpa using closes)]
          exact item
      | some left =>
          have isRegion := nests.regions region (by simp)
          rw [readLine_closing closes]
          exact settle nests.items isRegion.node
            (fun _ => Signature.ne_terminator_of_opens isRegion.opens)
            fun other member => nests.regions other (by simp [member])

/-! ## Open regions -/

/-- Loops stay to be closed inside a condition only. -/
def SurplusInside (body : OpenBody) : Prop :=
  0 < body.surplus → ∃ region ∈ body.regions, region.kind = .condition

/-- Settling a node does not close a condition. -/
theorem exists_condition_settle
    {items : List Node}
    {surplus : Nat}
    {node : Node}
    {regions : List OpenRegion}
    (isOpen : ∃ region ∈ regions, region.kind = .condition) :
    ∃ region ∈ (settle items surplus node regions).1.regions,
      region.kind = .condition := by
  induction regions generalizing surplus node with
  | nil =>
      simp at isOpen
  | cons region outer inductionHypothesis =>
      obtain ⟨condition, member, isCondition⟩ := isOpen
      unfold settle
      split
      · next completes =>
          refine inductionHypothesis ⟨condition, ?_, isCondition⟩
          refine (List.mem_cons.mp member).resolve_left ?_
          rintro rfl
          rw [isCondition] at completes
          cases completes.1
      · rcases List.mem_cons.mp member with rfl | isOuter
        · exact ⟨condition.add node, by simp, isCondition⟩
        · exact ⟨condition, by simp [isOuter], isCondition⟩

/-- No line leaves loops to be closed where no condition is open. -/
theorem SurplusInside.readLine
    {body : OpenBody}
    (inside : body.SurplusInside)
    (line : Line) :
    (body.readLine line).1.SurplusInside := by
  have settled :
      ∀ (surplus : Nat) (node : Node) (regions : List OpenRegion),
        (settle body.items surplus node regions).1.SurplusInside := by
    intro surplus node regions unclosed
    exact exists_condition_settle (surplus_settle_pos_iff.mp unclosed).2
  have item : (body.readItem line).1.SurplusInside := by
    unfold readItem
    split
    · intro unclosed
      obtain ⟨region, isOpen, isCondition⟩ := inside unclosed
      exact ⟨region, List.mem_cons_of_mem _ isOpen, isCondition⟩
    · exact settled _ _ _
  unfold OpenBody.readLine
  split
  · exact item
  · split
    · exact settled _ _ _
    · exact item

/-- Where a region is open, one stays open behind a line that can close none. -/
theorem regions_readLine_ne_nil
    {body : OpenBody}
    {line : Line}
    (inside : body.SurplusInside)
    (isOpen : body.regions ≠ [])
    (keeps : ¬line.ClosesRegion) :
    (body.readLine line).1.regions ≠ [] := by
  intro nothing
  have all : body.leaves line = body.regions := by
    rw [← take_regions_readLine, nothing, List.length_nil, Nat.sub_zero,
      List.take_length]
  rcases body with ⟨items, _ | ⟨region, outer⟩, surplus⟩
  · exact isOpen rfl
  · cases surplus with
    | succ less =>
        -- Loops that stay to be closed may fall here, but not the condition
        -- that they stay so in.
        obtain ⟨condition, member, isCondition⟩ := inside (Nat.succ_pos less)
        rw [← all] at member
        exact keeps (.inl (endIf_of_mem_leaves member isCondition))
    | zero =>
        cases closes : region.closedBy? 0 line.code with
        | some left =>
            exact keeps (closesRegion_of_closedBy? closes)
        | none =>
            cases opens : opensRegion? line.code <;>
              simp [leaves, closes, opens] at all

end OpenBody

end ClassicBasic
