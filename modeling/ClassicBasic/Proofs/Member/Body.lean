import ClassicBasic.Member
import ClassicBasic.Proofs.Line.Opening
import ClassicBasic.Proofs.Signature

namespace ClassicBasic

/-!
# Reading bodies

What a line does to a body that is being read, and what lines in a row do.  A
line is one of three kinds: it closes the innermost region, it opens a region,
or it stands for itself.
-/

/-- The node of a line, over the nodes of the region that it opens. -/
def Line.block
    (line : Line)
    (inside : List Node) :
    Node :=
  ⟨line.text, line.number, .codeBlock, inside⟩

/-- A region becomes the node of its opening line over its items. -/
theorem OpenRegion.node_eq
    (region : OpenRegion) :
    region.node = region.opening.block region.items.reverse :=
  rfl

/-- The node of a member with its signature, its attributes and its body. -/
def Signature.memberNode
    (signature : Signature)
    (line : Nat)
    (attributes body : List Node) :
    Node :=
  (signature.node line).withChildren
    (attributes ++ [⟨signature.heading.name, line, .codeBlock, body⟩])

/-- Besides its identifier and parameters a member has what was gathered. -/
theorem Signature.childrenOfKind_memberNode
    {kind : NodeKind}
    (signature : Signature)
    (line : Nat)
    (attributes body : List Node)
    (notIdentifier : kind ≠ .identifier)
    (notParameter : kind ≠ .parameter) :
    (signature.memberNode line attributes body).childrenOfKind kind =
      (attributes ++
          [(⟨signature.heading.name, line, .codeBlock, body⟩ : Node)]).filter
        fun child => child.kind = kind := by
  have opening :
      ∀ child ∈ (signature.node line).children, ¬child.kind = kind := by
    intro child member
    rcases List.mem_cons.mp member with rfl | isParameter
    · rw [(signature.isIdentifier_identifier line).kind_eq]
      exact notIdentifier.symm
    · cases list : signature.heading.parameters with
      | none =>
          simp [list] at isParameter
      | some text =>
          rw [list] at isParameter
          rw [(Node.isParameter_of_mem_nodes isParameter).kind_eq]
          exact notParameter.symm
  have none :
      (signature.node line).children.filter (fun child => child.kind = kind) = [] := by
    simpa using opening
  simp only [Node.childrenOfKind, Signature.memberNode, Node.withChildren,
    List.filter_append, none, List.nil_append]

/-- The body of a member is the only block among its children. -/
theorem Signature.codeBlocks_memberNode
    {attributes : List Node}
    (signature : Signature)
    (line : Nat)
    (body : List Node)
    (areAttributes : ∀ node ∈ attributes, node.kind = .attributeLine) :
    (signature.memberNode line attributes body).childrenOfKind .codeBlock =
      [⟨signature.heading.name, line, .codeBlock, body⟩] := by
  rw [signature.childrenOfKind_memberNode _ _ _ (by decide) (by decide),
    List.filter_append, List.filter_eq_nil_iff.mpr, List.nil_append]
  · rfl
  · intro node member
    simp [areAttributes node member]

/-- A member becomes the node of its signature, its attributes and its body. -/
theorem OpenMember.node_eq
    (member : OpenMember) :
    member.node =
      member.signature.memberNode member.line member.attributes.reverse
        member.body.items.reverse :=
  rfl

namespace OpenBody

/-- Read lines in order. -/
def readLines (body : OpenBody) : List Line → OpenBody × List Event
  | [] => (body, [])
  | line :: rest =>
      let (next, events) := body.readLine line
      let (final, later) := next.readLines rest
      (final, events ++ later)

/-- A body with one more open region. -/
def openRegion
    (body : OpenBody)
    (kind : RegionKind)
    (line : Line) :
    OpenBody :=
  { body with regions := ⟨kind, line, []⟩ :: body.regions }

/-- A body with more nodes in the innermost of its open regions. -/
def put
    (body : OpenBody)
    (nodes : List Node) :
    OpenBody :=
  match body.regions with
  | [] => { body with items := nodes.reverse ++ body.items }
  | region :: outer =>
      { body with
        regions := { region with items := nodes.reverse ++ region.items } :: outer }

/-- A body is as it was without new nodes. -/
@[simp] theorem put_nil
    (body : OpenBody) :
    body.put [] = body := by
  rcases body with ⟨items, regions, surplus⟩
  cases regions <;> rfl

/-- Nodes may be put into a body one after the other. -/
@[simp] theorem put_put
    (body : OpenBody)
    (first second : List Node) :
    (body.put first).put second = body.put (first ++ second) := by
  rcases body with ⟨items, regions, surplus⟩
  cases regions <;>
    simp [put]

/-- New nodes leave the number of loops that stay to be closed. -/
@[simp] theorem surplus_put
    (body : OpenBody)
    (nodes : List Node) :
    (body.put nodes).surplus = body.surplus := by
  rcases body with ⟨items, regions, surplus⟩
  cases regions <;> rfl

/-- Nodes behind an opening line are put into its region. -/
theorem put_openRegion
    (body : OpenBody)
    (kind : RegionKind)
    (opening : Line)
    (nodes : List Node) :
    (body.openRegion kind opening).put nodes =
      { body with
        regions := ⟨kind, opening, nodes.reverse⟩ :: body.regions } := by
  simp [put, openRegion]

/-- Nodes in a region are not yet outside of it. -/
@[simp] theorem items_put_openRegion
    (body : OpenBody)
    (kind : RegionKind)
    (opening : Line)
    (nodes : List Node) :
    ((body.openRegion kind opening).put nodes).items = body.items :=
  rfl

/-- Without loops to close, a node goes into the innermost region. -/
theorem settle_zero
    {body : OpenBody}
    (settled : body.surplus = 0)
    (node : Node) :
    settle body.items 0 node body.regions = (body.put [node], []) := by
  rcases body with ⟨items, regions, surplus⟩
  cases settled
  cases regions <;>
    simp [settle, put, OpenRegion.add]

/-- With loops to close, a loop that gets a node is complete. -/
theorem settle_loop
    (items : List Node)
    (surplus : Nat)
    (node : Node)
    (region : OpenRegion)
    (outer : List OpenRegion)
    (isLoop : region.kind = .loop) :
    settle items (surplus + 1) node (region :: outer) =
      settle items surplus (region.add node).node outer := by
  rw [settle, if_pos ⟨isLoop, Nat.succ_pos surplus⟩, Nat.add_sub_cancel]

/-- A line that closes the innermost region settles the region's node. -/
theorem readLine_closing
    {region : OpenRegion}
    {line : Line}
    {surplus left : Nat}
    (closes : region.closedBy? surplus line.code = some left)
    (items : List Node)
    (outer : List OpenRegion) :
    readLine ⟨items, region :: outer, surplus⟩ line =
      settle items left region.node outer := by
  simp only [readLine, closes]

/-- A line that does not close the innermost region becomes an item. -/
theorem readLine_item
    {body : OpenBody}
    {line : Line}
    (stays :
      ∀ region ∈ body.regions.head?,
        region.closedBy? body.surplus line.code = none) :
    body.readLine line = body.readItem line := by
  rcases body with ⟨items, regions, surplus⟩
  cases regions with
  | nil =>
      rfl
  | cons region outer =>
      simp only [readLine, stays region rfl]

/-- A line that begins neither like the end of a condition nor like that of a loop
closes nothing. -/
theorem closedBy?_eq_none
    {code : Text}
    {c : Char}
    (opens : code.head? = some c)
    (notEnd : c ≠ 'E')
    (notNext : c ≠ 'N')
    (region : OpenRegion)
    (surplus : Nat) :
    region.closedBy? surplus code = none := by
  unfold OpenRegion.closedBy?
  split
  · refine if_neg ?_
    intro isEndIf
    apply notEnd
    rw [isEndIf] at opens
    exact (Option.some.inj opens).symm
  · cases lists : nextCounters? code with
    | none =>
        rfl
    | some counters =>
        have first := head?_of_nextCounters? lists
        rw [opens, Option.some.injEq] at first
        exact (notNext first).elim

/-- A line that opens a region does so whatever is open. -/
theorem readLine_opening
    {line : Line}
    {kind : RegionKind}
    (opens : opensRegion? line.code = some kind)
    (body : OpenBody) :
    body.readLine line = (body.openRegion kind line, []) := by
  have letter :
      ∃ c, line.code.head? = some c ∧ c ≠ 'E' ∧ c ≠ 'N' := by
    unfold opensRegion? at opens
    split at opens
    · next condition =>
        exact ⟨'I', head?_of_opensCondition condition, by decide⟩
    · split at opens
      · next loop =>
          exact ⟨'F', head?_of_opensLoop loop, by decide⟩
      · simp at opens
  obtain ⟨c, first, notEnd, notNext⟩ := letter
  rw [readLine_item fun region _ =>
    closedBy?_eq_none first notEnd notNext region body.surplus]
  simp only [readItem, opens, openRegion]

/-- A line that neither closes nor opens a region is settled as a node of its
own. -/
theorem readLine_leaf
    {body : OpenBody}
    {line : Line}
    (stays :
      ∀ region ∈ body.regions.head?,
        region.closedBy? body.surplus line.code = none)
    (opensNothing : opensRegion? line.code = none) :
    body.readLine line =
      settle body.items body.surplus (line.block []) body.regions := by
  rw [readLine_item stays]
  simp only [readItem, opensNothing]
  rfl

/-- One line alone is read as that line. -/
@[simp] theorem readLines_singleton
    (body : OpenBody)
    (line : Line) :
    body.readLines [line] = body.readLine line := by
  simp [readLines]

/-- Behind lines without a report the others are read as from where these led. -/
theorem readLines_append
    {body middle : OpenBody}
    {before : List Line}
    (quiet : body.readLines before = (middle, []))
    (after : List Line) :
    body.readLines (before ++ after) = middle.readLines after := by
  induction before generalizing body with
  | nil =>
      cases quiet
      rfl
  | cons line rest inductionHypothesis =>
      simp only [readLines, Prod.mk.injEq, List.append_eq_nil_iff] at quiet
      obtain ⟨same, noEvents, noLater⟩ := quiet
      have tail :=
        inductionHypothesis (Prod.ext same noLater)
      simp only [List.cons_append, readLines, noEvents, List.nil_append, tail]

/-- A region is read from its opening line to the last line inside, and then what
follows. -/
theorem readLines_openRegion_append
    {body middle : OpenBody}
    {opening : Line}
    {kind : RegionKind}
    {inside : List Line}
    (opens : opensRegion? opening.code = some kind)
    (quiet : (body.openRegion kind opening).readLines inside = (middle, []))
    (after : List Line) :
    body.readLines (opening :: (inside ++ after)) = middle.readLines after := by
  have opened : body.readLines [opening] = (body.openRegion kind opening, []) := by
    rw [readLines_singleton, readLine_opening opens]
  rw [← List.singleton_append, readLines_append opened, readLines_append quiet]

end OpenBody

end ClassicBasic
