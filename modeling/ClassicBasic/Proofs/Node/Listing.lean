import ClassicBasic.Node.Walk
import ClassicBasic.Proofs.Member.Body

namespace ClassicBasic.Node

/-!
# Nodes in walking order

The nodes of trees in the order of a walk, without their depths.  Nodes of a
body stand for the lines that they were read from, so a walk over a body is a
list of lines.
-/

/-- The nodes of trees in walking order. -/
def preorder (nodes : List Node) : List Node :=
  (allVisitsFrom 0 nodes).map (·.2)

/-- The line that a node of a body was read from. -/
def asLine (node : Node) : Line :=
  ⟨node.name, node.line⟩

/-- The lines that the nodes below a node were read from, in walking order. -/
def linesBelow (node : Node) : List Line :=
  node.walk.tail.map fun visit => visit.2.asLine

/-- The lines that the nodes of a body were read from, in walking order. -/
def listing (nodes : List Node) : List Line :=
  (preorder nodes).map asLine

mutual

/-- Which nodes a walk visits does not depend on the depth that it starts at. -/
theorem visitsFrom_depth
    (first second : Nat)
    (node : Node) :
    (visitsFrom first node).map (·.2) = (visitsFrom second node).map (·.2) := by
  cases node with
  | mk name line payload children =>
      simp only [visitsFrom, List.map_cons, List.cons.injEq, true_and]
      exact allVisitsFrom_depth (first + 1) (second + 1) children

/-- Which nodes a walk over several trees visits does not depend on the depth
either. -/
theorem allVisitsFrom_depth
    (first second : Nat)
    (nodes : List Node) :
    (allVisitsFrom first nodes).map (·.2) =
      (allVisitsFrom second nodes).map (·.2) := by
  cases nodes with
  | nil =>
      rfl
  | cons node rest =>
      simp only [allVisitsFrom, List.map_append]
      rw [visitsFrom_depth first second node,
        allVisitsFrom_depth first second rest]

end

/-- A walk from a node visits the node and all that is below it in walking order. -/
theorem map_snd_walk
    (node : Node) :
    node.walk.map (·.2) = preorder [node] := by
  simp [walk, preorder, allVisitsFrom]

mutual

/-- A walk visits as many nodes as are counted. -/
theorem length_visitsFrom
    (depth : Nat)
    (node : Node) :
    (visitsFrom depth node).length = node.count := by
  cases node with
  | mk name line payload children =>
      rw [visitsFrom, List.length_cons, count, length_allVisitsFrom (depth + 1) children,
        Nat.add_comm]

/-- A walk over several trees visits as many nodes as are counted in all of them. -/
theorem length_allVisitsFrom
    (depth : Nat)
    (nodes : List Node) :
    (allVisitsFrom depth nodes).length = countAll nodes := by
  cases nodes with
  | nil =>
      rfl
  | cons node rest =>
      rw [allVisitsFrom, List.length_append, countAll, length_visitsFrom depth node,
        length_allVisitsFrom depth rest]

end

/-- A walk visits every node once. -/
theorem length_walk
    (node : Node) :
    node.walk.length = node.count :=
  length_visitsFrom 0 node

/-- Below a node are its children and all that is below them. -/
theorem linesBelow_eq
    (node : Node) :
    node.linesBelow = listing node.children := by
  cases node with
  | mk name line payload children =>
      have sameNodes := congrArg (List.map asLine) (allVisitsFrom_depth 1 0 children)
      rw [List.map_map] at sameNodes
      exact sameNodes

/-- Without trees there are no nodes. -/
@[simp] theorem preorder_nil : preorder [] = [] :=
  rfl

/-- A node comes before all that is below it. -/
@[simp] theorem preorder_cons
    (node : Node)
    (rest : List Node) :
    preorder (node :: rest) =
      node :: (preorder node.children ++ preorder rest) := by
  cases node with
  | mk name line payload children =>
      simp only [preorder, allVisitsFrom, visitsFrom, List.map_cons,
        List.map_append, List.cons_append]
      rw [allVisitsFrom_depth (0 + 1) 0 children]

/-- The nodes of some trees come before those of the trees behind them. -/
@[simp] theorem preorder_append
    (before after : List Node) :
    preorder (before ++ after) = preorder before ++ preorder after := by
  induction before with
  | nil =>
      rfl
  | cons node rest inductionHypothesis =>
      simp [inductionHypothesis]

/-- A node of several trees is one of one of them. -/
theorem mem_preorder_iff
    {nodes : List Node}
    {node : Node} :
    node ∈ preorder nodes ↔ ∃ top ∈ nodes, node ∈ preorder [top] := by
  induction nodes with
  | nil =>
      simp
  | cons first rest inductionHypothesis =>
      rw [← List.singleton_append, preorder_append, List.mem_append,
        inductionHypothesis]
      simp

/-- A walk over one node meets the node and what is below its children. -/
theorem mem_preorder_singleton
    {node part : Node} :
    part ∈ preorder [node] ↔
      part = node ∨ ∃ child ∈ node.children, part ∈ preorder [child] := by
  rw [preorder_cons, preorder_nil, List.append_nil, List.mem_cons]
  exact or_congr_right mem_preorder_iff

/-- Without trees there are no lines. -/
@[simp] theorem listing_nil : listing [] = [] :=
  rfl

/-- The lines of some trees come before those of the trees behind them. -/
@[simp] theorem listing_append
    (before after : List Node) :
    listing (before ++ after) = listing before ++ listing after := by
  simp [listing]

/-- The lines of one tree are listed in order among those of all. -/
theorem listing_sublist_of_mem
    {node : Node}
    {nodes : List Node}
    (member : node ∈ nodes) :
    (listing [node]).Sublist (listing nodes) := by
  obtain ⟨before, after, rfl⟩ := List.append_of_mem member
  have split : before ++ node :: after = before ++ [node] ++ after := by
    simp
  rw [split, listing_append, listing_append]
  exact (List.sublist_append_right _ _).trans (List.sublist_append_left _ _)

/-- The line of a block stands in front of the lines inside. -/
@[simp] theorem listing_block
    (line : Line)
    (inside : List Node) :
    listing [line.block inside] = line :: listing inside := by
  simp [listing, Line.block, asLine]

end ClassicBasic.Node
