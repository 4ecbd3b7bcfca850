import ClassicBasic.Proofs.Member.Nesting
import ClassicBasic.Proofs.Module.Spans

namespace ClassicBasic

/-!
# Where members end

A member ends on its terminator, but only outside all regions.  Inside a region
the terminator is a line like any other: it becomes a leaf there, and the region
stays open until a line of its own closes it.  So a region that is left open at
the terminator takes in what follows, or else the member is never closed.
-/

/-! ## Members -/

namespace OpenMember

/-- The member that a line opens. -/
def opened (signature : Signature) (opening : Line) : OpenMember :=
  ⟨signature, opening.number, [], .empty⟩

/-- Whether a line ends a member: it is the terminator, outside all regions. -/
def EndsOn (member : OpenMember) (line : Line) : Prop :=
  member.body.regions = [] ∧ line.code = member.signature.terminator.text

/-- A member behind one more line inside it. -/
def next (member : OpenMember) (line : Line) : OpenMember :=
  match member.body.regions, Attribute.readNode? line.text line.number with
  | [], some stated => { member with attributes := stated :: member.attributes }
  | _, _ => { member with body := (member.body.readLine line).1 }

/-- A member behind lines inside it. -/
def after (member : OpenMember) (lines : List Line) : OpenMember :=
  lines.foldl next member

/-- None of the lines in a row ends a member. -/
def Outlasts (member : OpenMember) (lines : List Line) : Prop :=
  ∀ before line later,
    lines = before ++ line :: later → ¬(member.after before).EndsOn line

variable
  {member : OpenMember}
  {line : Line}
  {lines : List Line}

/-- Outside of regions an attribute line is kept as an attribute. -/
theorem next_of_attribute
    {stated : Node}
    (atTop : member.body.regions = [])
    (states : Attribute.readNode? line.text line.number = some stated) :
    member.next line = { member with attributes := stated :: member.attributes } := by
  simp only [next, atTop, states]

/-- Every other line goes into the body. -/
theorem next_of_body
    (inBody :
      member.body.regions = [] →
        Attribute.readNode? line.text line.number = none) :
    member.next line = { member with body := (member.body.readLine line).1 } := by
  unfold next
  cases regions : member.body.regions with
  | nil =>
      simp only [inBody regions]
  | cons region outer =>
      rfl

/-- Inside a region every line goes into the body. -/
theorem next_of_region
    (inRegion : member.body.regions ≠ [])
    (line : Line) :
    member.next line = { member with body := (member.body.readLine line).1 } :=
  next_of_body fun atTop => (inRegion atTop).elim

/-- A member is behind lines as it is behind the first of them and then the
others. -/
theorem after_append
    (member : OpenMember)
    (before behind : List Line) :
    member.after (before ++ behind) = (member.after before).after behind :=
  List.foldl_append

/-- A member behind lines and one more is the next one behind the lines. -/
theorem after_concat
    (member : OpenMember)
    (lines : List Line)
    (line : Line) :
    member.after (lines ++ [line]) = (member.after lines).next line := by
  simp [after]

/-- No line changes the signature. -/
@[simp] theorem signature_next
    (member : OpenMember)
    (line : Line) :
    (member.next line).signature = member.signature := by
  unfold next
  split <;> rfl

/-- No lines change the signature. -/
@[simp] theorem signature_after
    (member : OpenMember)
    (lines : List Line) :
    (member.after lines).signature = member.signature := by
  induction lines generalizing member with
  | nil =>
      rfl
  | cons line rest inductionHypothesis =>
      exact (inductionHypothesis (member.next line)).trans
        (signature_next member line)

/-- Without lines a member does not end. -/
theorem Outlasts.nil : member.Outlasts [] := by
  intro before line later split
  simp at split

/-- A member goes on behind one more line that does not end it. -/
theorem Outlasts.concat
    (outlasts : member.Outlasts lines)
    (goesOn : ¬(member.after lines).EndsOn line) :
    member.Outlasts (lines ++ [line]) := by
  intro before other later split
  rcases List.eq_nil_or_concat later with rfl | ⟨between, last, rfl⟩
  · obtain ⟨rfl, same⟩ := List.append_inj' split rfl
    rw [List.singleton_inj.mp same] at goesOn
    exact goesOn
  · rw [List.concat_eq_append, ← List.cons_append, ← List.append_assoc] at split
    exact outlasts before other between (List.append_inj' split rfl).1

/-- What goes on behind lines has gone on behind the first of them. -/
theorem Outlasts.of_append
    {behind : List Line}
    (outlasts : member.Outlasts (lines ++ behind)) :
    member.Outlasts lines := by
  rintro before other later rfl
  exact outlasts before other (later ++ behind) (by simp)

/-- What a member has gathered: attribute lines, and a body whose nodes nest and
hold the terminator only in regions. -/
structure Nests (member : OpenMember) : Prop where
  attributes : ∀ node ∈ member.attributes, node.kind = .attributeLine
  body : member.body.Nests member.signature.terminator.text
  surplus : member.body.SurplusInside

/-- A member that has just been opened has gathered nothing. -/
theorem Nests.opened
    (signature : Signature)
    (opening : Line) :
    (opened signature opening).Nests :=
  ⟨by simp [OpenMember.opened], ⟨by simp [OpenMember.opened, OpenBody.empty],
    by simp [OpenMember.opened, OpenBody.empty]⟩,
    by simp [OpenBody.SurplusInside, OpenMember.opened, OpenBody.empty]⟩

/-- A line that does not end a member keeps it well nested. -/
theorem Nests.next
    (nests : member.Nests)
    (goesOn : ¬member.EndsOn line) :
    (member.next line).Nests := by
  unfold OpenMember.next
  split
  · next stated atTop states =>
      refine ⟨?_, nests.body, nests.surplus⟩
      intro node isAttribute
      rcases List.mem_cons.mp isAttribute with rfl | earlier
      · exact (Node.isAttributeLine_of_readNode? states).kind_eq
      · exact nests.attributes node earlier
  · exact
      ⟨nests.attributes,
        nests.body.readLine fun atTop closes => goesOn ⟨atTop, closes⟩,
        nests.surplus.readLine line⟩

/-- Lines that do not end a member keep it well nested. -/
theorem Nests.after
    (nests : member.Nests)
    (outlasts : member.Outlasts lines) :
    (member.after lines).Nests := by
  induction lines using List.reverseRecOn with
  | nil =>
      exact nests
  | append_singleton before line inductionHypothesis =>
      rw [after_concat]
      exact (inductionHypothesis outlasts.of_append).next (outlasts before line [] rfl)

/-- What a body lists, it still lists behind more lines. -/
theorem listing_next
    (member : OpenMember)
    (line : Line) :
    member.body.listing <+: (member.next line).body.listing := by
  unfold next
  split
  · exact List.prefix_rfl
  · rcases member.body.listing_readLine line with longer | ⟨same, -⟩
    · exact ⟨[line], longer.symm⟩
    · exact ⟨[], by simpa using same.symm⟩

/-- What a body lists, it still lists behind any number of lines. -/
theorem listing_after
    (member : OpenMember)
    (lines : List Line) :
    member.body.listing <+: (member.after lines).body.listing := by
  induction lines generalizing member with
  | nil =>
      exact List.prefix_rfl
  | cons line rest inductionHypothesis =>
      exact (member.listing_next line).trans (inductionHypothesis (member.next line))

/-- A terminator inside a region is listed like any other line there. -/
theorem mem_listing_next
    (inRegion : member.body.regions ≠ [])
    (isTerminator : line.code = member.signature.terminator.text) :
    line ∈ (member.next line).body.listing := by
  rw [next_of_region inRegion]
  rcases member.body.listing_readLine line with longer | ⟨-, closes⟩
  · rw [longer]
    simp
  · exact (Signature.not_closesRegion isTerminator closes).elim

/-- Regions that are open are closed by a line that can close regions. -/
theorem exists_closesRegion
    (surplus : member.body.SurplusInside)
    (inRegion : member.body.regions ≠ [])
    (atTop : (member.after lines).body.regions = []) :
    ∃ closer ∈ lines, closer.ClosesRegion := by
  induction lines generalizing member with
  | nil =>
      exact (inRegion atTop).elim
  | cons line rest inductionHypothesis =>
      by_cases closes : line.ClosesRegion
      · exact ⟨line, by simp, closes⟩
      · have step := next_of_region inRegion line
        have still : (member.next line).body.regions ≠ [] := by
          rw [step]
          exact OpenBody.regions_readLine_ne_nil surplus inRegion closes
        have inside : (member.next line).body.SurplusInside := by
          rw [step]
          exact surplus.readLine line
        obtain ⟨closer, isLater, closesLater⟩ :=
          inductionHypothesis inside still atTop
        exact ⟨closer, by simp [isLater], closesLater⟩

end OpenMember

/-- The lines of a member: its signature, and the lines up to the first one that
is its terminator outside all regions. -/
structure EndsFirst
    (signature : Signature)
    (opening : Line)
    (inside : List Line)
    (closing : Line)
    (node : Node) :
    Prop where
  signed : Signature.read? opening.code = some signature
  outlasts : (OpenMember.opened signature opening).Outlasts inside
  ends : ((OpenMember.opened signature opening).after inside).EndsOn closing
  shape : node = ((OpenMember.opened signature opening).after inside).node

/-- Where the text of a member's terminator stands inside the member.  Nodes with
nodes below them open regions, and the text stands on leaves below such nodes; at
its line a region is open, and a line behind it can close regions. -/
structure KeepsTerminator
    (signature : Signature)
    (opening : Line)
    (inside : List Line)
    (block : Node) :
    Prop where
  outside : ∀ child ∈ block.children, child.asLine.code ≠ signature.terminator.text
  nests :
    ∀ node ∈ Node.preorder block.children,
      node.children ≠ [] → (opensRegion? node.asLine.code).isSome
  leaf :
    ∀ node ∈ Node.preorder block.children,
      node.asLine.code = signature.terminator.text → node.children = []
  inRegion :
    ∀ before line later,
      inside = before ++ line :: later →
        line.code = signature.terminator.text →
          ((OpenMember.opened signature opening).after before).body.regions ≠ [] ∧
            line ∈ block.linesBelow ∧ ∃ closer ∈ later, closer.ClosesRegion

namespace EndsFirst

variable
  {signature : Signature}
  {opening closing : Line}
  {inside : List Line}
  {node : Node}

/-- A line inside a member with the text of its terminator is in a region, and
a later line closes that region. -/
theorem inRegion
    {before later : List Line}
    {line : Line}
    (endsFirst : EndsFirst signature opening inside closing node)
    (split : inside = before ++ line :: later)
    (isTerminator : line.code = signature.terminator.text) :
    ((OpenMember.opened signature opening).after before).body.regions ≠ [] ∧
      line ∈ ((OpenMember.opened signature opening).after inside).body.listing ∧
      ∃ closer ∈ later, closer.ClosesRegion := by
  let reached := (OpenMember.opened signature opening).after before
  have isText : line.code = reached.signature.terminator.text := by
    rwa [OpenMember.signature_after]
  have inRegion : reached.body.regions ≠ [] := by
    intro atTop
    exact endsFirst.outlasts before line later split ⟨atTop, isText⟩
  have outlasts := endsFirst.outlasts
  have atTop := endsFirst.ends.1
  subst split
  have nests : reached.Nests :=
    (OpenMember.Nests.opened signature opening).after outlasts.of_append
  rw [OpenMember.after_append] at atTop ⊢
  refine ⟨inRegion, ?_, ?_⟩
  · apply (OpenMember.listing_after (reached.next line) later).subset
    exact OpenMember.mem_listing_next inRegion isText
  · obtain ⟨closer, isLater, closes⟩ :=
      OpenMember.exists_closesRegion nests.surplus inRegion atTop
    rcases List.mem_cons.mp isLater with rfl | isLater
    · exact (Signature.not_closesRegion isTerminator closes).elim
    · exact ⟨closer, isLater, closes⟩

/-- The one block of a member keeps the text of its terminator inside regions. -/
theorem exists_keepsTerminator
    (endsFirst : EndsFirst signature opening inside closing node) :
    ∃ block,
      node.childrenOfKind .codeBlock = [block] ∧
        KeepsTerminator signature opening inside block := by
  let member := (OpenMember.opened signature opening).after inside
  let block : Node :=
    ⟨member.signature.heading.name, member.line, .codeBlock,
      member.body.items.reverse⟩
  have nests : member.Nests :=
    (OpenMember.Nests.opened signature opening).after endsFirst.outlasts
  have items :
      ∀ child ∈ block.children,
        child.Nests ∧ child.asLine.code ≠ signature.terminator.text := by
    intro child isChild
    have keeps := nests.body.items child (List.mem_reverse.mp isChild)
    rwa [OpenMember.signature_after] at keeps
  -- The member has ended, so no region is open and the body lists all lines below the
  -- block.
  have below : block.linesBelow = member.body.listing := by
    have atTop : member.body.regions = [] := endsFirst.ends.1
    rw [Node.linesBelow_eq, OpenBody.listing, atTop]
    exact (List.append_nil _).symm
  have nested :
      ∀ inner ∈ Node.preorder block.children,
        inner.children ≠ [] → (opensRegion? inner.asLine.code).isSome := by
    intro inner isBelow
    obtain ⟨child, isChild, isInside⟩ := Node.mem_preorder_iff.mp isBelow
    exact (items child isChild).1 inner isInside
  refine
    ⟨block, ?_, fun child isChild => (items child isChild).2, nested, ?_, ?_⟩
  · rw [endsFirst.shape, OpenMember.node_eq]
    apply Signature.codeBlocks_memberNode
    intro stated isAttribute
    exact nests.attributes stated (List.mem_reverse.mp isAttribute)
  · intro inner isBelow isTerminator
    by_contra hasChildren
    have opens := nested inner isBelow hasChildren
    exact Signature.ne_terminator_of_opens opens isTerminator
  · intro before line later split isTerminator
    rw [below]
    exact endsFirst.inRegion split isTerminator

end EndsFirst

/-! ## Readings -/

/-- The members among some lines. -/
def MemberLines (lines : List Line) (node : Node) : Prop :=
  ∃ signature front opening inside closing behind,
    lines = front ++ opening :: (inside ++ closing :: behind) ∧
      EndsFirst signature opening inside closing node

/-- The lines of a member stay among more lines. -/
theorem MemberLines.append
    {lines : List Line}
    {node : Node}
    (isMember : MemberLines lines node)
    (more : List Line) :
    MemberLines (lines ++ more) node := by
  obtain ⟨signature, front, opening, inside, closing, behind, rfl, endsFirst⟩ :=
    isMember
  exact
    ⟨signature, front, opening, inside, closing, behind ++ more, by simp, endsFirst⟩

/-- The lines of a member that has not ended. -/
def OpenMember.Lines (lines : List Line) (member : OpenMember) : Prop :=
  ∃ signature front opening inside,
    lines = front ++ opening :: inside ∧
      Signature.read? opening.code = some signature ∧
      (opened signature opening).Outlasts inside ∧
      member = (opened signature opening).after inside

namespace OpenMember.Lines

variable
  {lines : List Line}
  {member : OpenMember}
  {line : Line}

/-- Behind its signature a member is open. -/
theorem start
    {signature : Signature}
    (lines : List Line)
    (signed : Signature.read? line.code = some signature) :
    (opened signature line).Lines (lines ++ [line]) :=
  ⟨signature, lines, line, [], rfl, signed, .nil, rfl⟩

/-- A member is open behind a line that does not end it. -/
theorem next
    (isOpen : member.Lines lines)
    (goesOn : ¬member.EndsOn line) :
    (member.next line).Lines (lines ++ [line]) := by
  obtain ⟨signature, front, opening, inside, rfl, signed, outlasts, rfl⟩ := isOpen
  exact
    ⟨signature, front, opening, inside ++ [line], by simp, signed,
      outlasts.concat goesOn, (after_concat _ _ _).symm⟩

/-- A member is complete behind the line that ends it. -/
theorem close
    (isOpen : member.Lines lines)
    (ends : member.EndsOn line) :
    MemberLines (lines ++ [line]) member.node := by
  obtain ⟨signature, front, opening, inside, rfl, signed, outlasts, rfl⟩ := isOpen
  exact
    ⟨signature, front, opening, inside, line, [], by simp, signed, outlasts, ends,
      rfl⟩

end OpenMember.Lines

/-- The members of a reading end on the first terminators outside their regions,
and the member that is open has not come to its own. -/
structure Reading.EndsMembers (lines : List Line) (reading : Reading) : Prop where
  closed : ∀ node ∈ reading.members, MemberLines lines node
  isOpen : ∀ member, reading.place = .member member → member.Lines lines

namespace Reading.EndsMembers

variable
  {lines : List Line}
  {reading next : Reading}
  {line : Line}

/-- Outside members one more line is in none. -/
theorem elsewhere
    (endsMembers : reading.EndsMembers lines)
    (sameMembers : next.members = reading.members)
    (noMember : ∀ member, next.place ≠ .member member) :
    next.EndsMembers (lines ++ [line]) := by
  refine ⟨?_, ?_⟩
  · intro node isMember
    rw [sameMembers] at isMember
    exact (endsMembers.closed node isMember).append [line]
  · intro member place
    exact (noMember member place).elim

/-- Inside a member one more line belongs to it. -/
theorem inside
    {member : OpenMember}
    (endsMembers : reading.EndsMembers lines)
    (isOpen : member.Lines (lines ++ [line])) :
    (reading.movedTo (.member member)).EndsMembers (lines ++ [line]) := by
  refine ⟨?_, ?_⟩
  · intro node isMember
    exact (endsMembers.closed node isMember).append [line]
  · rintro other here
    cases here
    exact isOpen

/-- One more line leaves every member with its first end. -/
theorem advances
    (endsMembers : reading.EndsMembers lines)
    (advances : Advances line reading next) :
    next.EndsMembers (lines ++ [line]) := by
  cases advances with
  | silentDeclaration place _ _
  | outside place _ =>
      exact endsMembers.elsewhere rfl (by simp [place])
  | @declaration extent _ _ _ _
  | @blockEnd _ _ _ extent _ _ _ =>
      cases extent <;>
        exact endsMembers.elsewhere rfl (by simp [afterInstructions])
  | blockLine _ _ =>
      exact endsMembers.elsewhere rfl (by simp [movedTo])
  | memberStart place signed =>
      exact endsMembers.inside (.start lines signed)
  | @attributeLine member stated place atTop inside states =>
      have isOpen := endsMembers.isOpen member place
      rw [← OpenMember.next_of_attribute atTop states]
      exact endsMembers.inside (isOpen.next fun ends => inside ends.2)
  | @bodyLine member place inside =>
      have isOpen := endsMembers.isOpen member place
      rw [← OpenMember.next_of_body fun atTop => (inside atTop).2]
      exact endsMembers.inside (isOpen.next fun ends => (inside ends.1).1 ends.2)
  | @memberEnd member place atTop closes =>
      refine ⟨?_, by simp [closeMember]⟩
      intro node isMember
      rcases List.mem_cons.mp isMember with rfl | earlier
      · exact (endsMembers.isOpen member place).close ⟨atTop, closes⟩
      · exact (endsMembers.closed node earlier).append [line]

/-- Behind all lines every member has ended with its first end. -/
theorem readLines
    {final : Reading}
    (reads : (start.readLines lines).result = .ok final) :
    final.EndsMembers lines := by
  refine readLines_induction ?_ ?_ reads
  · exact ⟨by simp [start], by simp [start]⟩
  · intro before line reading next _ inductionHypothesis step
    exact inductionHypothesis.advances step

end Reading.EndsMembers

/-! ## Modules -/

namespace Module

/-- Every member ends on the first line with the text of its terminator outside
its regions.  Inside, that text stands only on leaves below regions, and the
regions stay open up to a later line that can close one. -/
theorem endsFirst_of_parse
    {file : Text}
    {source : List Text}
    {patience : Option Nat}
    {module : Node}
    (parsed : (parse file source patience).result = .ok module) :
    ∃ header,
      (Header.read source).result = .ok header ∧
        ∀ member ∈ module.members,
          ∃ signature front opening inside closing behind block,
            bodyLines source header =
                front ++ opening :: (inside ++ closing :: behind) ∧
              EndsFirst signature opening inside closing member ∧
              member.childrenOfKind .codeBlock = [block] ∧
              KeepsTerminator signature opening inside block := by
  obtain ⟨header, final, reads⟩ := exists_reads_of_parse parsed
  refine ⟨header, reads.readsHeader, ?_⟩
  intro member isMember
  rw [members_eq reads] at isMember
  have endsMembers := Reading.EndsMembers.readLines reads.readsLines
  obtain ⟨signature, front, opening, inside, closing, behind, split, endsFirst⟩ :=
    endsMembers.closed member (List.mem_reverse.mp isMember)
  obtain ⟨block, hasBlock, keeps⟩ := endsFirst.exists_keepsTerminator
  exact
    ⟨signature, front, opening, inside, closing, behind, block, split, endsFirst,
      hasBlock, keeps⟩

/-- A method with a condition that is still open at its terminator, and a method
behind it with the `End If`. -/
def absorbingSource : List Text :=
  ["Attribute VB_Name = \"A\"", "Sub A()", "If x Then", "End Sub", "Sub B()",
    "End If", "End Sub"]

/-- The only member of that module is the first method, and its condition takes
in its terminator and the signature of the second method. -/
theorem exists_parse_absorbing :
    ∃ module member block,
      (parse "A.bas" absorbingSource none).result = .ok module ∧
        module.members = [member] ∧
        member.payload = .method none false .sub ∧
        member.childrenOfKind .codeBlock = [block] ∧
        block.linesBelow =
          [⟨"If x Then", 3⟩, ⟨"End Sub", 4⟩, ⟨"Sub B()", 5⟩] := by
  have views :
      (parse "A.bas" absorbingSource none).result.map
          (fun module =>
            module.members.map fun member =>
              (member.payload,
                (member.childrenOfKind .codeBlock).map Node.linesBelow)) =
        .ok
          [(.method none false .sub,
            [[⟨"If x Then", 3⟩, ⟨"End Sub", 4⟩, ⟨"Sub B()", 5⟩]])] := by
    decide +kernel
  obtain ⟨module, parsed, view⟩ := Run.exists_ok_of_map views
  obtain ⟨member, only, isView⟩ := List.map_eq_singleton_iff.mp view
  obtain ⟨carries, blocks⟩ := Prod.mk.inj isView
  obtain ⟨block, hasBlock, below⟩ := List.map_eq_singleton_iff.mp blocks
  exact ⟨module, member, block, parsed, only, carries, hasBlock, below⟩

/-- The second method is not a member, and below the condition of the first one
stands a node with the text of its terminator. -/
theorem exists_terminator_below_condition :
    ∃ module member block node,
      (parse "A.bas" absorbingSource none).result = .ok module ∧
        module.members = [member] ∧
        member.payload = .method none false .sub ∧
        member.childrenOfKind .codeBlock = [block] ∧
        node ∈ Node.preorder block.children ∧
        node.asLine.code = (Terminator.endMethod .sub).text := by
  obtain ⟨module, member, block, parsed, only, carries, hasBlock, below⟩ :=
    exists_parse_absorbing
  rw [Node.linesBelow_eq] at below
  have isListed : ⟨"End Sub", 4⟩ ∈ Node.listing block.children := by
    rw [below]
    decide
  obtain ⟨node, isBelow, asLine⟩ := List.mem_map.mp isListed
  refine
    ⟨module, member, block, node, parsed, only, carries, hasBlock, isBelow, ?_⟩
  rw [asLine]
  decide

/-- The first method ends on the second terminator, behind its `End If`. -/
theorem endsFirst_of_parse_absorbing :
    ∃ module member,
      (parse "A.bas" absorbingSource none).result = .ok module ∧
        module.members = [member] ∧
        ∃ header signature front opening inside closing behind block,
          (Header.read absorbingSource).result = .ok header ∧
            bodyLines absorbingSource header =
              front ++ opening :: (inside ++ closing :: behind) ∧
            EndsFirst signature opening inside closing member ∧
            member.childrenOfKind .codeBlock = [block] ∧
            KeepsTerminator signature opening inside block := by
  obtain ⟨module, member, -, parsed, only, -⟩ := exists_parse_absorbing
  obtain ⟨header, readsHeader, ends⟩ := endsFirst_of_parse parsed
  obtain ⟨signature, front, opening, inside, closing, behind, block, split,
    endsFirst, hasBlock, keeps⟩ := ends member (by simp [only])
  exact
    ⟨module, member, parsed, only, header, signature, front, opening, inside,
      closing, behind, block, readsHeader, split, endsFirst, hasBlock, keeps⟩

end Module

end ClassicBasic
