import ClassicBasic.Member
import ClassicBasic.Proofs.Node.Renumbering
import ClassicBasic.Proofs.Run.Renumbering

namespace ClassicBasic

/-!
# Renumbering members

A member, its body and the regions of the body keep the lines that they are
read from, but no decision looks at them: a renumbered line changes a
renumbered member as the line changes the member.
-/

/-! ## Blocks -/

namespace OpenBlock

/-- What a line inside a block reports moves with the line. -/
theorem reports_renumber
    (f : Nat → Nat)
    (kind : BlockKind)
    (line : Line) :
    reports kind (line.renumber f) =
      (reports kind line).map (Event.renumber f) := by
  by_cases silent : isSilent line.code = true
  · simp [reports, silent]
  · cases kind with
    | type =>
        by_cases declares : (Declarator.read? line.code).isSome = true <;>
          simp [reports, silent, declares, Event.renumber]
    | enum =>
        rcases read : EnumMember.read? line.code with _ | ⟨name, _ | value⟩
        · simp [reports, silent, read, Event.renumber]
        · simp [reports, silent, read]
        · by_cases literal : (IntegerLiteral.read? value).isSome = true <;>
            simp [reports, silent, read, literal, Event.renumber]

end OpenBlock

/-! ## Regions -/

namespace OpenRegion

/-- A region with other line numbers. -/
def renumber
    (f : Nat → Nat)
    (region : OpenRegion) :
    OpenRegion :=
  { region with
    opening := region.opening.renumber f
    items := region.items.map (Node.renumber f) }

variable (f : Nat → Nat)

/-- The node of a region moves with its lines. -/
@[simp] theorem node_renumber
    (region : OpenRegion) :
    (region.renumber f).node = region.node.renumber f := by
  simp [node, renumber]

/-- A node in a region moves with the region. -/
@[simp] theorem add_renumber
    (region : OpenRegion)
    (node : Node) :
    (region.renumber f).add (node.renumber f) = (region.add node).renumber f :=
  rfl

/-- What kind a region is does not depend on its line. -/
@[simp] theorem kind_renumber
    (region : OpenRegion) :
    (region.renumber f).kind = region.kind :=
  rfl

/-- What closes a region does not depend on its line. -/
@[simp] theorem closedBy?_renumber
    (region : OpenRegion)
    (surplus : Nat)
    (code : Text) :
    (region.renumber f).closedBy? surplus code = region.closedBy? surplus code :=
  rfl

end OpenRegion

/-! ## Bodies -/

namespace OpenBody

/-- A body with other line numbers. -/
def renumber
    (f : Nat → Nat)
    (body : OpenBody) :
    OpenBody :=
  { body with
    items := body.items.map (Node.renumber f)
    regions := body.regions.map (OpenRegion.renumber f) }

/-- What a line makes of a body and what it reports, with other line numbers. -/
def renumberRead
    (f : Nat → Nat) :
    OpenBody × List Event → OpenBody × List Event :=
  Prod.map (renumber f) (List.map (Event.renumber f))

variable (f : Nat → Nat)

/-- Where a node settles does not depend on its line. -/
theorem settle_renumber
    (items : List Node)
    (surplus : Nat)
    (node : Node)
    (regions : List OpenRegion) :
    settle (items.map (Node.renumber f)) surplus (node.renumber f)
        (regions.map (OpenRegion.renumber f)) =
      renumberRead f (settle items surplus node regions) := by
  induction regions generalizing surplus node with
  | nil =>
      simp only [List.map_nil, settle, Node.line_renumber]
      split <;>
        rfl
  | cons region outer inductionHypothesis =>
      simp only [List.map_cons, settle, OpenRegion.kind_renumber,
        OpenRegion.add_renumber, OpenRegion.node_renumber]
      split
      · exact inductionHypothesis (surplus - 1) (region.add node).node
      · rfl

/-- An item is read alike wherever it stands. -/
theorem readItem_renumber
    (body : OpenBody)
    (line : Line) :
    (body.renumber f).readItem (line.renumber f) =
      renumberRead f (body.readItem line) := by
  simp only [readItem, Line.code_renumber, Line.text_renumber,
    Line.number_renumber]
  split
  · rfl
  · rw [← Node.renumber_leaf]
    exact settle_renumber f _ _ _ _

/-- A line of a body is read alike wherever it stands. -/
theorem readLine_renumber
    (body : OpenBody)
    (line : Line) :
    (body.renumber f).readLine (line.renumber f) =
      renumberRead f (body.readLine line) := by
  rcases body with ⟨items, regions, surplus⟩
  cases regions with
  | nil =>
      exact readItem_renumber f ⟨items, [], surplus⟩ line
  | cons region outer =>
      simp only [readLine, renumber, List.map_cons,
        OpenRegion.closedBy?_renumber, Line.code_renumber,
        OpenRegion.node_renumber]
      split
      · exact settle_renumber f _ _ _ _
      · exact readItem_renumber f ⟨items, region :: outer, surplus⟩ line

end OpenBody

/-! ## Members -/

namespace OpenMember

/-- A member with other line numbers. -/
def renumber
    (f : Nat → Nat)
    (member : OpenMember) :
    OpenMember :=
  { member with
    line := f member.line
    attributes := member.attributes.map (Node.renumber f)
    body := member.body.renumber f }

/-- What a member is after one more line, with other line numbers. -/
def Outcome.renumber (f : Nat → Nat) : Outcome → Outcome
  | .stillOpen member => .stillOpen (member.renumber f)
  | .closed node => .closed (node.renumber f)

variable (f : Nat → Nat)

/-- A member opens alike wherever it stands. -/
theorem ofSignature_renumber
    (signature : Signature)
    (line : Nat) :
    ofSignature signature (f line) =
      (ofSignature signature line).renumber f (renumber f) := by
  rw [ofSignature, ofSignature, Run.renumber_reportAll_bind, List.map_map,
    ← Signature.renumber_node, Node.display_renumber]
  simp only [Run.renumber_report_bind]
  rfl

/-- The node of a member moves with its lines. -/
theorem node_renumber
    (member : OpenMember) :
    (member.renumber f).node = member.node.renumber f := by
  simp [node, renumber, OpenBody.renumber, ← Signature.renumber_node]

/-- A line of the body is read into the member alike wherever it stands. -/
theorem readBody_renumber
    (member : OpenMember)
    (line : Line) :
    (member.renumber f).readBody (line.renumber f) =
      (member.readBody line).renumber f (Outcome.renumber f) := by
  simp only [readBody, Run.renumber_reportAll_bind, renumber,
    OpenBody.readLine_renumber]
  rfl

/-- A line inside a member is read alike wherever it stands. -/
theorem readLine_renumber
    (member : OpenMember)
    (line : Line) :
    (member.renumber f).readLine (line.renumber f) =
      (member.readLine line).renumber f (Outcome.renumber f) := by
  have atTop :
      (member.renumber f).body.regions.isEmpty = member.body.regions.isEmpty := by
    simp [renumber, OpenBody.renumber]
  have sameTerminator :
      (member.renumber f).signature.terminator = member.signature.terminator :=
    rfl
  simp only [readLine, atTop, sameTerminator, Line.code_renumber,
    Line.text_renumber, Line.number_renumber, ← Attribute.map_renumber_readNode?,
    node_renumber, readBody_renumber]
  split
  · split
    · rfl
    · cases Attribute.readNode? line.text line.number <;>
        rfl
  · rfl

/-- The fault of a member that does not end moves with its signature. -/
theorem unterminated_renumber
    (member : OpenMember) :
    (member.renumber f).unterminated = member.unterminated.renumber f := by
  rcases member with ⟨signature, line, attributes, ⟨items, regions, surplus⟩⟩
  cases regions <;>
    rfl

end OpenMember

end ClassicBasic
