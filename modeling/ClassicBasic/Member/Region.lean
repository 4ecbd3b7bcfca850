import ClassicBasic.Line.Instruction
import ClassicBasic.Node
import ClassicBasic.Phrase
import ClassicBasic.Terminator
import ClassicBasic.Text.TopLevel
import ClassicBasic.Text.Word

namespace ClassicBasic

/-!
# Regions of a body

Conditions and loops that span several lines are regions of a member's body.
A condition is closed by its terminator.  A loop is closed by a `Next` line,
which may list several counters and then closes that many loops: the innermost
one and those around it.
-/

/-- The two kinds of regions. -/
inductive RegionKind where
  | condition
  | loop
  deriving Repr, DecidableEq

namespace RegionKind

/-- What closes a region. -/
def terminator : RegionKind → Terminator
  | .condition => .endIf
  | .loop => .next

end RegionKind

/-- Whether a line of code opens a condition of several lines: it begins with
`If` and ends with `Then`, and holds no line feed behind the first blank. -/
def opensCondition (code : Text) : Bool :=
  match Text.after? "If" code with
  | some (blank :: rest) =>
      match Text.before? "Then" rest with
      | some between =>
          Text.isBlank blank && !between.contains '\n' &&
            !((blank :: between).getLast?.any Text.isWordChar)
      | none => false
  | _ => false

/-- Whether a text is a counter: a name, and nothing else. -/
def isCounter (text : Text) : Bool :=
  (Phrase.nameFrom? Phrase.isTypeStart text).any fun (_, rest) => rest.isEmpty

/-- The counters of a `Next` line, none if the keyword stands alone.  No blank
follows the last counter. -/
def nextCounters? (code : Text) : Option (List Text) := do
  let rest ← Text.after? Terminator.next.text code
  if rest.isEmpty then
    some []
  else do
    let list ← Text.afterBlanks? rest
    let counters := (Text.splitTopLevel ',' list).map Text.trim
    if counters.all isCounter && !list.getLast?.any Text.isBlank then
      some counters
    else
      none

/-- The number of loops that a `Next` line closes: one for each counter, and
one if there is no counter. -/
def closedLoops (counters : List Text) : Nat :=
  max 1 counters.length

/-- Whether a line of code opens a loop whose `Next` is on a later line. -/
def opensLoop (code : Text) : Bool :=
  ((Text.after? "For" code).bind (·.head?)).any Text.isBlank &&
    !((Instruction.split code).drop 1).any fun instruction =>
      (nextCounters? instruction.text).isSome

/-- The kind of region that a line of code opens, if it opens one. -/
def opensRegion? (code : Text) : Option RegionKind :=
  if opensCondition code then some .condition
  else if opensLoop code then some .loop
  else none

/-- A region whose terminator has not been read. -/
structure OpenRegion where
  kind : RegionKind
  opening : Line
  /-- The nodes of the region so far, newest first. -/
  items : List Node

namespace OpenRegion

/-- The node of a region. -/
def node (region : OpenRegion) : Node :=
  ⟨region.opening.text, region.opening.number, .codeBlock, region.items.reverse⟩

/-- A region with one more node. -/
def add (region : OpenRegion) (node : Node) : OpenRegion :=
  { region with items := node :: region.items }

/-- The number of loops that stay to be closed behind a line that closes the
region, given how many there were before it; `none` if the line does not
close the region. -/
def closedBy? (region : OpenRegion) (surplus : Nat) (code : Text) : Option Nat :=
  match region.kind with
  | .condition => if code = Terminator.endIf.text then some surplus else none
  | .loop => (nextCounters? code).map fun counters => closedLoops counters - 1

end OpenRegion

end ClassicBasic
