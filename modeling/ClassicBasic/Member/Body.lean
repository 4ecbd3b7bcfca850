import ClassicBasic.Event
import ClassicBasic.Member.Region

namespace ClassicBasic

/-!
# Bodies

The lines of a body become nodes, and nodes nest in regions.  A body that is
being read keeps its open regions, innermost first, and the number of loops
that the last `Next` line has still to close.
-/

/-- A body of which lines have been read. -/
structure OpenBody where
  /-- The nodes outside regions so far, newest first. -/
  items : List Node
  /-- The open regions, innermost first. -/
  regions : List OpenRegion
  /-- The number of loops that the last `Next` line has still to close. -/
  surplus : Nat

namespace OpenBody

/-- A body of which nothing has been read. -/
def empty : OpenBody :=
  ⟨[], [], 0⟩

/-- Put a complete node into the innermost of the open regions.  While loops
stay to be closed, a loop that gets a node is complete with it and goes into
the region around it.  Outside all regions nothing is left to close. -/
def settle (items : List Node) (surplus : Nat) (node : Node) :
    List OpenRegion → OpenBody × List Event
  | [] =>
      (⟨node :: items, [], 0⟩,
        if 0 < surplus then [.loopsOverclosed node.line] else [])
  | region :: outer =>
      if region.kind = .loop ∧ 0 < surplus then
        settle items (surplus - 1) (region.add node).node outer
      else
        (⟨items, region.add node :: outer, surplus⟩, [])

/-- Read a line that opens a region or stands for itself. -/
def readItem (body : OpenBody) (line : Line) : OpenBody × List Event :=
  match opensRegion? line.code with
  | some kind => ({ body with regions := ⟨kind, line, []⟩ :: body.regions }, [])
  | none =>
      settle body.items body.surplus (Node.leaf .codeBlock line.text line.number)
        body.regions

/-- Read one more line. -/
def readLine (body : OpenBody) (line : Line) : OpenBody × List Event :=
  match body.regions with
  | [] => body.readItem line
  | region :: outer =>
      match region.closedBy? body.surplus line.code with
      | some surplus => settle body.items surplus region.node outer
      | none => body.readItem line

end OpenBody

end ClassicBasic
