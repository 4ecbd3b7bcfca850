import ClassicBasic.Proofs.Node.Listing
import ClassicBasic.Proofs.Phrase
import Mathlib.Data.List.Chain

namespace ClassicBasic.Node

/-!
# A tree is told from its walk

A visit shows how deep a node stands and what it has apart from its children.  Where the
children of a node end is seen from the depths alone: at the first entry that stands no
deeper than the node.  So a walk leaves nothing of its tree out, and any entries whose
depths grow by steps of one are those of a tree.
-/

/-- What a visit shows: how deep the node stands, and what it has apart from its
children. -/
structure Entry where
  depth : Nat
  name : Text
  line : Nat
  payload : Payload

/-- The entry of a visit. -/
def Entry.ofVisit (visit : Nat × Node) : Entry :=
  ⟨visit.1, visit.2.name, visit.2.line, visit.2.payload⟩

/-- The entries of a walk over a tree. -/
def entries (node : Node) : List Entry :=
  node.walk.map .ofVisit

/-- The entries of a tree that stands at a depth. -/
def entriesFrom (depth : Nat) (node : Node) : List Entry :=
  (visitsFrom depth node).map .ofVisit

/-- The entries of trees that stand at a depth. -/
def allEntriesFrom (depth : Nat) (nodes : List Node) : List Entry :=
  (allVisitsFrom depth nodes).map .ofVisit

/-- A root is listed in front of all that is below it. -/
@[simp] theorem entriesFrom_mk
    (depth : Nat)
    (name : Text)
    (line : Nat)
    (payload : Payload)
    (children : List Node) :
    entriesFrom depth ⟨name, line, payload, children⟩ =
      ⟨depth, name, line, payload⟩ :: allEntriesFrom (depth + 1) children :=
  rfl

/-- Without trees there is nothing to list. -/
@[simp] theorem allEntriesFrom_nil
    (depth : Nat) :
    allEntriesFrom depth [] = [] :=
  rfl

/-- The first of several trees is listed in front of the others. -/
@[simp] theorem allEntriesFrom_cons
    (depth : Nat)
    (node : Node)
    (rest : List Node) :
    allEntriesFrom depth (node :: rest) =
      entriesFrom depth node ++ allEntriesFrom depth rest := by
  simp [allEntriesFrom, allVisitsFrom, entriesFrom]

/-- A listing of trees begins at their depth. -/
theorem depth_of_head?_allEntriesFrom
    {depth : Nat}
    {nodes : List Node} :
    ∀ first ∈ (allEntriesFrom depth nodes).head?, first.depth = depth := by
  cases nodes with
  | nil =>
      simp
  | cons node rest =>
      cases node
      rintro first ⟨⟩
      rfl

/-- Whether entries, if there are any, begin no deeper than a depth. -/
def BeginAbove (depth : Nat) (listed : List Entry) : Prop :=
  ∀ first ∈ listed.head?, first.depth ≤ depth

/-- Trees stand no deeper than the first of them. -/
theorem BeginAbove.allEntriesFrom_append
    {depth : Nat}
    {rest : List Entry}
    (above : BeginAbove depth rest)
    (nodes : List Node) :
    BeginAbove (depth + 1) (allEntriesFrom (depth + 1) nodes ++ rest) := by
  cases nodes with
  | nil =>
      exact fun first isFirst => Nat.le_succ_of_le (above first isFirst)
  | cons node rest =>
      cases node
      rintro first ⟨⟩
      exact Nat.le_refl (depth + 1)

/-- What begins no deeper than a node does not begin with a tree below it. -/
theorem BeginAbove.ne_allEntriesFrom_append
    {depth : Nat}
    {listed : List Entry}
    (above : BeginAbove depth listed)
    (node : Node)
    (nodes : List Node)
    (rest : List Entry) :
    listed ≠ allEntriesFrom (depth + 1) (node :: nodes) ++ rest := by
  cases node
  rintro rfl
  exact Nat.not_succ_le_self depth (above _ rfl)

mutual

/-- A tree is told from its entries and what follows them, as long as that is not below
its root. -/
theorem entriesFrom_append_cancel
    {depth : Nat}
    {rest rest' : List Entry}
    (above : BeginAbove depth rest)
    (above' : BeginAbove depth rest')
    {first second : Node}
    (same : entriesFrom depth first ++ rest = entriesFrom depth second ++ rest') :
    first = second ∧ rest = rest' := by
  cases first with
  | mk name line payload children =>
      cases second with
      | mk name' line' payload' children' =>
          simp only [entriesFrom_mk, List.cons_append, List.cons.injEq,
            Entry.mk.injEq] at same
          obtain ⟨⟨-, rfl, rfl, rfl⟩, below⟩ := same
          obtain ⟨rfl, rfl⟩ := allEntriesFrom_append_cancel above above' below
          exact ⟨rfl, rfl⟩

/-- Trees are told from their entries as well, as long as what follows is above
them. -/
theorem allEntriesFrom_append_cancel
    {depth : Nat}
    {rest rest' : List Entry}
    (above : BeginAbove depth rest)
    (above' : BeginAbove depth rest')
    {first second : List Node}
    (same :
      allEntriesFrom (depth + 1) first ++ rest =
        allEntriesFrom (depth + 1) second ++ rest') :
    first = second ∧ rest = rest' := by
  cases first with
  | nil =>
      cases second with
      | nil =>
          exact ⟨rfl, same⟩
      | cons node' nodes' =>
          exact absurd same (above.ne_allEntriesFrom_append node' nodes' rest')
  | cons node nodes =>
      cases second with
      | nil =>
          exact absurd same.symm (above'.ne_allEntriesFrom_append node nodes rest)
      | cons node' nodes' =>
          rw [allEntriesFrom_cons, allEntriesFrom_cons, List.append_assoc,
            List.append_assoc] at same
          -- The siblings begin beside the first tree, so its entries end in front of them.
          obtain ⟨rfl, others⟩ :=
            entriesFrom_append_cancel (above.allEntriesFrom_append nodes)
              (above'.allEntriesFrom_append nodes') same
          obtain ⟨rfl, rfl⟩ := allEntriesFrom_append_cancel above above' others
          exact ⟨rfl, rfl⟩

end

/-- No two trees have the same entries. -/
theorem entries_injective : Function.Injective entries := by
  intro first second same
  have nothingBehind : BeginAbove 0 [] := by
    simp [BeginAbove]
  refine (entriesFrom_append_cancel nothingBehind nothingBehind ?_).1
  rw [List.append_nil, List.append_nil]
  exact same

/-! ## Depths -/

/-- Whether an entry may follow another among those below a depth: it is at most one
deeper. -/
def Entry.Follows (depth : Nat) (earlier later : Entry) : Prop :=
  depth < later.depth ∧ later.depth ≤ earlier.depth + 1

/-- Whether entries are indented as those of a tree that stands at a depth. -/
structure IsIndented (depth : Nat) (listed : List Entry) : Prop where
  root : listed.head?.map Entry.depth = some depth
  steps : listed.IsChain (Entry.Follows depth)

/-- Whether an entry stands below a depth. -/
def Entry.isBelow (depth : Nat) (entry : Entry) : Bool :=
  depth < entry.depth

/-- Steps that stay below a depth lead to entries below it only. -/
theorem depth_lt_of_isChain
    {depth : Nat}
    {root : Entry}
    {below : List Entry}
    (steps : (root :: below).IsChain (Entry.Follows depth)) :
    ∀ entry ∈ below, depth < entry.depth := by
  induction below generalizing root with
  | nil =>
      exact List.forall_mem_nil _
  | cons first rest inductionHypothesis =>
      obtain ⟨follows, steps⟩ := List.isChain_cons_cons.mp steps
      exact List.forall_mem_cons.mpr ⟨follows.1, inductionHypothesis steps⟩

namespace IsIndented

variable {depth : Nat} {listed : List Entry}

/-- No entry of an indented listing stands above its root. -/
theorem le_depth
    (indented : IsIndented depth listed) :
    ∀ entry ∈ listed, depth ≤ entry.depth := by
  obtain ⟨root, steps⟩ := indented
  cases listed with
  | nil =>
      exact List.forall_mem_nil _
  | cons first below =>
      refine List.forall_mem_cons.mpr ⟨(Option.some.inj root).ge, fun entry isBelow => ?_⟩
      exact (depth_lt_of_isChain steps entry isBelow).le

end IsIndented

mutual

/-- A tree is listed with indentation. -/
theorem isIndented_entriesFrom
    (depth : Nat)
    (node : Node) :
    IsIndented depth (entriesFrom depth node) := by
  cases node with
  | mk name line payload children =>
      refine ⟨rfl, List.IsChain.cons (isChain_allEntriesFrom depth children) ?_⟩
      intro first isFirst
      rw [Entry.Follows, depth_of_head?_allEntriesFrom first isFirst]
      exact ⟨Nat.lt_succ_self depth, Nat.le_refl _⟩

/-- Trees one behind the other are listed in steps that stay below their root. -/
theorem isChain_allEntriesFrom
    (depth : Nat)
    (nodes : List Node) :
    (allEntriesFrom (depth + 1) nodes).IsChain (Entry.Follows depth) := by
  cases nodes with
  | nil =>
      exact .nil
  | cons node rest =>
      have indented := isIndented_entriesFrom (depth + 1) node
      rw [allEntriesFrom_cons]
      refine List.IsChain.append ?_ (isChain_allEntriesFrom depth rest) ?_
      · exact indented.steps.imp fun _ _ follows => ⟨Nat.lt_of_succ_lt follows.1, follows.2⟩
      · -- A sibling stands beside the root, so no entry below that is a step too deep for it.
        intro last isLast sibling isSibling
        rw [Entry.Follows, depth_of_head?_allEntriesFrom sibling isSibling]
        have lastDepth := indented.le_depth last (List.mem_of_getLast? isLast)
        exact ⟨Nat.lt_succ_self depth, Nat.le_succ_of_le lastDepth⟩

end

/-- The entries of a tree fall into those of its first child and those of the tree
without it. -/
theorem IsIndented.exists_cut
    {depth : Nat}
    {root first : Entry}
    {behind : List Entry}
    (indented : IsIndented depth (root :: first :: behind)) :
    ∃ inside rest,
      behind = inside ++ rest ∧
        IsIndented (depth + 1) (first :: inside) ∧
          IsIndented depth (root :: rest) := by
  obtain ⟨rootDepth, steps⟩ := indented
  have isBelow := depth_lt_of_isChain steps
  obtain ⟨⟨lower, upper⟩, steps⟩ := List.isChain_cons_cons.mp steps
  replace rootDepth : root.depth = depth := Option.some.inj rootDepth
  have firstDepth : first.depth = depth + 1 := by
    omega
  -- The first child ends in front of the first entry that stands no deeper than it.
  obtain ⟨whole, areBelow, stops⟩ :=
    span_eq_iff.mp
      (⟨rfl, rfl⟩ :
        behind.takeWhile (Entry.isBelow (depth + 1)) = _ ∧
          behind.dropWhile (Entry.isBelow (depth + 1)) = _)
  rw [whole, ← List.cons_append] at steps
  refine ⟨_, _, whole, ⟨congrArg some firstDepth, ?_⟩, ⟨congrArg some rootDepth, ?_⟩⟩
  · refine steps.left_of_append.imp_of_mem_tail_imp fun _ later _ isLater follows => ?_
    exact ⟨of_decide_eq_true (areBelow later isLater), follows.2⟩
  · refine List.IsChain.cons steps.right_of_append fun next isNext => ?_
    have inBehind : next ∈ behind :=
      (List.dropWhile_suffix _).mem (List.mem_of_head? isNext)
    have notBelow : ¬ depth + 1 < next.depth :=
      of_decide_eq_false (stops next isNext)
    exact ⟨isBelow next (List.mem_cons_of_mem first inBehind), by omega⟩

/-- Entries that are indented as those of a tree are those of a tree. -/
theorem IsIndented.exists_node
    {depth : Nat}
    {listed : List Entry}
    (indented : IsIndented depth listed) :
    ∃ node, entriesFrom depth node = listed := by
  match listed with
  | [] =>
      exact absurd indented.root (by simp)
  | [⟨_, name, line, payload⟩] =>
      obtain rfl := Option.some.inj indented.root
      exact ⟨⟨name, line, payload, []⟩, rfl⟩
  | root :: first :: behind =>
      obtain ⟨inside, rest, rfl, child, others⟩ := indented.exists_cut
      obtain ⟨child, childListed⟩ := child.exists_node
      obtain ⟨⟨name, line, payload, children⟩, othersListed⟩ := others.exists_node
      obtain ⟨rfl, rfl⟩ := List.cons.inj othersListed
      refine ⟨⟨name, line, payload, child :: children⟩, ?_⟩
      rw [entriesFrom_mk, allEntriesFrom_cons, childListed]
      rfl
termination_by listed.length

/-- A walk visits every node once, the root first and at depth zero and then nodes at
most one deeper than the visit before, and no two trees show the same entries.  Nothing
else holds of the depths: entries indented in this way are always those of a tree. -/
theorem walk_determines_tree :
    (∀ node : Node,
      node.walk.length = node.count ∧
        node.walk.head? = some (0, node) ∧
          node.walk.IsChain fun earlier later =>
            1 ≤ later.1 ∧ later.1 ≤ earlier.1 + 1) ∧
      Function.Injective entries ∧
        ∀ listed, (∃ node, entries node = listed) ↔ IsIndented 0 listed := by
  refine ⟨fun node => ⟨length_walk node, ?_, ?_⟩, entries_injective, fun listed => ?_⟩
  · cases node
    rfl
  · exact (List.isChain_map _).mp (isIndented_entriesFrom 0 node).steps
  · constructor
    · rintro ⟨node, rfl⟩
      exact isIndented_entriesFrom 0 node
    · intro indented
      exact indented.exists_node

end ClassicBasic.Node
