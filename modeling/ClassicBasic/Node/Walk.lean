import ClassicBasic.Node

namespace ClassicBasic.Node

/-!
# Walking a tree

A walk visits a node and then, in order, everything below each of its
children.
-/

mutual

/-- The nodes of a tree in walking order, each with its depth below the node
that the walk started at. -/
def visitsFrom (depth : Nat) : Node → List (Nat × Node)
  | ⟨name, line, payload, children⟩ =>
      (depth, ⟨name, line, payload, children⟩) ::
        allVisitsFrom (depth + 1) children

/-- The nodes of several trees in walking order. -/
def allVisitsFrom (depth : Nat) : List Node → List (Nat × Node)
  | [] => []
  | node :: rest => visitsFrom depth node ++ allVisitsFrom depth rest

end

/-- The nodes of a tree in walking order, the root at depth zero. -/
def walk (node : Node) : List (Nat × Node) :=
  visitsFrom 0 node

mutual

/-- The number of nodes in a tree. -/
def count : Node → Nat
  | ⟨_, _, _, children⟩ => 1 + countAll children

/-- The number of nodes in several trees. -/
def countAll : List Node → Nat
  | [] => 0
  | node :: rest => count node + countAll rest

end

end ClassicBasic.Node
