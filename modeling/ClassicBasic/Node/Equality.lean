import ClassicBasic.Node

namespace ClassicBasic.Node

/-!
# Equality of nodes

Two nodes are equal when name, line, payload and all nodes below them are.
-/

mutual

/-- Decide whether two nodes are equal. -/
def decideEq : (first second : Node) → Decidable (first = second)
  | ⟨name, line, payload, children⟩, ⟨name', line', payload', children'⟩ =>
      if heads : name = name' ∧ line = line' ∧ payload = payload' then
        match decideAllEq children children' with
        | isTrue below => isTrue (by simp [heads, below])
        | isFalse below => isFalse (by simp [below])
      else
        isFalse (by
          simp only [mk.injEq]
          exact fun same => heads ⟨same.1, same.2.1, same.2.2.1⟩)

/-- Decide whether two lists of nodes are equal. -/
def decideAllEq : (first second : List Node) → Decidable (first = second)
  | [], [] => isTrue rfl
  | [], _ :: _ => isFalse (by simp)
  | _ :: _, [] => isFalse (by simp)
  | node :: rest, node' :: rest' =>
      match decideEq node node', decideAllEq rest rest' with
      | isTrue heads, isTrue tails => isTrue (by simp [heads, tails])
      | isFalse heads, _ => isFalse (by simp [heads])
      | _, isFalse tails => isFalse (by simp [tails])

end

instance : DecidableEq Node :=
  decideEq

end ClassicBasic.Node
