import ClassicBasic.Proofs.Line.Layout
import ClassicBasic.Proofs.Module.Spans
import ClassicBasic.Proofs.Node.Origin

namespace ClassicBasic

open Node

/-!
# Trees come from their lines

Everything that a reading gathers comes from the lines that it has read, in their
order.  All that a declaration line declares stands on that line, blocks included,
and only the parts of its blocks stand on later lines; a member begins behind all
that is read before it.  So the numbers of declarations grow from line to line, and
those of members from span to span.
-/

/-! ## Declaration lines -/

/-- What a declaration line declares so far stands on it. -/
structure DeclarationLine.IsFrom
    (lines : List Line)
    (line : Line)
    (opened : DeclarationLine) :
    Prop where
  isLine : line ∈ lines
  number : opened.number = line.number
  comment : opened.comment = (Line.splitComment line.text).2
  declared : ∀ node ∈ opened.declared, node.IsFrom lines ∧ node.line = line.number

/-- A block that has been opened stands on its line, and the lines in it are later. -/
structure OpenBlock.IsFrom (lines : List Line) (line : Line) (block : OpenBlock) :
    Prop where
  number : block.line = line.number
  oneLine : '\n' ∉ block.name
  later : ∀ inner ∈ block.lines, inner ∈ lines ∧ line.number ≤ inner.number

/-- What a declaration line gives as far as it is read stands on it. -/
def DeclarationLine.Extent.IsFrom
    (lines : List Line)
    (line : Line) :
    DeclarationLine.Extent → Prop
  | .complete declared =>
      ∀ node ∈ declared, node.IsFrom lines ∧ node.line = line.number
  | .opensBlock opened block _ =>
      opened.IsFrom lines line ∧ block.IsFrom lines line

namespace DeclarationLine

variable
  {lines more : List Line}
  {line : Line}
  {opened : DeclarationLine}

/-- Declarations from some lines are from any lines that have these. -/
theorem IsFrom.mono
    (isFrom : opened.IsFrom lines line)
    (within : ∀ line ∈ lines, line ∈ more) :
    opened.IsFrom more line where
  isLine := within line isFrom.isLine
  number := isFrom.number
  comment := isFrom.comment
  declared := fun node isDeclared =>
    ⟨(isFrom.declared node isDeclared).1.mono within,
      (isFrom.declared node isDeclared).2⟩

/-- Nodes from the line may be added to what it declares. -/
theorem IsFrom.append
    {nodes : List Node}
    (isFrom : opened.IsFrom lines line)
    (areFrom : ∀ node ∈ nodes, node.IsFrom lines ∧ node.line = line.number) :
    IsFrom lines line { opened with declared := nodes ++ opened.declared } where
  isLine := isFrom.isLine
  number := isFrom.number
  comment := isFrom.comment
  declared := by
    intro node isDeclared
    rcases List.mem_append.mp isDeclared with isNew | earlier
    · exact areFrom node isNew
    · exact isFrom.declared node earlier

/-- One node from the line may be added to what it declares. -/
theorem IsFrom.declare
    {node : Node}
    (isFrom : opened.IsFrom lines line)
    (nodeFrom : node.IsFrom lines ∧ node.line = line.number) :
    (opened.declare node).IsFrom lines line := by
  have areFrom : ∀ other ∈ [node], other.IsFrom lines ∧ other.line = line.number := by
    simpa using nodeFrom
  exact isFrom.append areFrom

/-- At the end of a line its comment comes below the last declaration. -/
theorem IsFrom.finish
    (isFrom : opened.IsFrom lines line) :
    ∀ node ∈ opened.finish, node.IsFrom lines ∧ node.line = line.number := by
  intro node isDeclared
  unfold DeclarationLine.finish at isDeclared
  split at isDeclared
  · next last before comment declared isComment =>
      rw [List.mem_reverse, List.mem_cons] at isDeclared
      rcases isDeclared with isLast | earlier
      · obtain ⟨lastFrom, number⟩ := isFrom.declared last (by simp [declared])
        split at isLast
        · subst node
          refine ⟨lastFrom.withChildren fun child isChild => ?_, number⟩
          have commentFrom : (leaf .comment comment line.number).IsFrom [line] :=
            Line.isFrom_comment (isFrom.comment.symm.trans isComment)
          rw [List.mem_singleton.mp isChild, isFrom.number]
          exact ⟨number.le, commentFrom.mono (by simpa using isFrom.isLine)⟩
        · subst node
          exact ⟨lastFrom, number⟩
      · exact isFrom.declared node (by simp [declared, earlier])
  · exact isFrom.declared node (List.mem_reverse.mp isDeclared)

/-- What the instructions of a line declare stands on it. -/
theorem IsFrom.readOn
    {texts : List Text}
    {extent : Extent}
    (isFrom : opened.IsFrom lines line)
    (reads : (opened.readOn texts).result = .ok extent) :
    extent.IsFrom lines line := by
  -- Whatever an instruction declares comes from this one line, so from the lines of the
  -- whole.
  have onLine
      {node : Node}
      (stands : node.IsFrom [line]) :
      node.IsFrom lines ∧ node.line = line.number :=
    ⟨stands.mono (by simpa using isFrom.isLine), stands.line_eq⟩
  induction texts generalizing opened with
  | nil =>
      cases reads
      exact isFrom.finish
  | cons text rest inductionHypothesis =>
      unfold DeclarationLine.readOn at reads
      split at reads
      · cases reads
        exact isFrom.finish
      · split at reads
        · exact inductionHypothesis isFrom reads
        · next interface read =>
            have isOneLine := DeclaringInstruction.isOneLine_of_read? read
            refine inductionHypothesis (isFrom.declare ?_) reads
            rw [isFrom.number]
            exact onLine (isFrom_interfaceNode isOneLine)
        · next statement read =>
            have isOneLine := DeclaringInstruction.isOneLine_of_read? read
            refine inductionHypothesis (isFrom.declare ?_) reads
            rw [isFrom.number]
            exact onLine (ExternalDeclaration.isFrom_node isOneLine)
        · next modifier keyword declarators read =>
            have isOneLine := DeclaringInstruction.isOneLine_of_read? read
            refine inductionHypothesis (isFrom.append fun node isNode => ?_) reads
            obtain ⟨declarator, isDeclarator, rfl⟩ :=
              List.mem_map.mp (List.mem_reverse.mp isNode)
            rw [isFrom.number]
            exact
              onLine
                (Declarator.isFrom_node (fun _ => isOneLine declarator isDeclarator)
                  modifier keyword)
        · next modifier kind name read =>
            cases reads
            have isOneLine := DeclaringInstruction.isOneLine_of_read? read
            exact ⟨isFrom, isFrom.number, isOneLine, by simp⟩

end DeclarationLine

/-! ## Members -/

/-- A member that is closed comes from its lines, which are among those before. -/
theorem CutInside.isFrom_node
    {before front done inside : List Line}
    {members : List Node}
    {member : OpenMember}
    {opening : Line}
    (cut : CutInside before members member front done opening inside)
    (increasing : (before.map Line.number).Pairwise (· < ·))
    (atTop : member.body.regions = [])
    (isCode : ∀ node ∈ member.body.items, IsCodeBlock node) :
    member.node.IsFrom before := by
  have inBefore : (opening :: inside).Sublist before := by
    rw [cut.split]
    exact (List.sublist_append_right done _).trans (List.sublist_append_right front _)
  obtain ⟨isFirst, insideIncreasing⟩ :=
    List.pairwise_cons.mp (increasing.sublist (inBefore.map Line.number))
  have listed : member.body.listing = listing member.body.items.reverse := by
    simp [OpenBody.listing, atTop]
  have accounts := cut.accounts
  rw [listed] at accounts
  rw [OpenMember.node_eq, cut.numbered]
  have within : ∀ line ∈ opening :: inside, line ∈ before :=
    fun line isLine => inBefore.subset isLine
  refine (Signature.isFrom_memberNode cut.signed ?_ ?_ ?_).mono within
  · intro inner isInside
    exact Nat.le_of_lt (isFirst inner.number (List.mem_map_of_mem isInside))
  · intro node isAttribute
    obtain ⟨line, isInside, states⟩ := accounts.exists_states isAttribute
    exact (Attribute.isFrom_of_readNode? states).mono (by simpa using isInside)
  · intro node isItem
    have inInside : (listing [node]).Sublist inside :=
      (listing_sublist_of_mem isItem).trans accounts.listing_sublist
    exact
      isFrom_of_isCodeBlock (isCode node (List.mem_reverse.mp isItem))
        (fun line isListed => inInside.subset isListed)
        (insideIncreasing.sublist (inInside.map Line.number))

/-! ## Readings -/

/-- Whether all that a node consists of stands on lines before a line. -/
def Node.EndsBefore (node : Node) (line : Nat) : Prop :=
  ∀ part ∈ preorder [node], part.line < line

/-- A tree from earlier lines ends before a line. -/
theorem Node.IsFrom.endsBefore
    {node : Node}
    {lines : List Line}
    {number : Nat}
    (isFrom : node.IsFrom lines)
    (earlier : ∀ line ∈ lines, line.number < number) :
    node.EndsBefore number := by
  intro part isPart
  obtain ⟨⟨line, isLine, stands⟩, -⟩ := isFrom part isPart
  exact stands.number ▸ earlier line isLine

/-- The node of a block is from the lines of the block, and has the number of its
opening. -/
theorem OpenBlock.IsFrom.isFrom_node
    {lines : List Line}
    {line : Line}
    {block : OpenBlock}
    (isFrom : block.IsFrom lines line)
    (isLine : line ∈ lines) :
    block.node.IsFrom lines ∧ block.node.line = line.number :=
  ⟨OpenBlock.isFrom_node isLine isFrom.number isFrom.oneLine isFrom.later, isFrom.number⟩

/-- A tree that ends before a line begins before it. -/
theorem Node.EndsBefore.line_lt
    {node : Node}
    {number : Nat}
    (ends : node.EndsBefore number) :
    node.line < number :=
  ends node (by simp)

/-- What is known of the order of lines at the place of a reading. -/
def Place.Tracks (before : List Line) (reading : Reading) : Place → Prop
  | .declarations => True
  | .members => True
  | .block opened unfinished _ =>
      ∃ line,
        opened.IsFrom before line ∧ unfinished.IsFrom before line ∧
          ∀ node ∈ reading.declarations, node.line ≤ line.number
  | .member inner =>
      ∀ node ∈ reading.declarations ++ reading.members, node.EndsBefore inner.line

/-- All that a reading has gathered comes from the lines before it, in order. -/
structure Reading.Tracks (before : List Line) (reading : Reading) : Prop where
  isFrom : ∀ node ∈ reading.declarations ++ reading.members, node.IsFrom before
  declarations :
    reading.declarations.Pairwise fun later earlier => earlier.line ≤ later.line
  members :
    reading.members.Pairwise fun later earlier => earlier.EndsBefore later.line
  declarationsFirst :
    ∀ member ∈ reading.members, ∀ node ∈ reading.declarations,
      node.EndsBefore member.line
  place : reading.place.Tracks before reading

namespace Reading.Tracks

variable
  {before more : List Line}
  {line : Line}
  {reading next : Reading}

/-- In front of the first line nothing has been gathered. -/
theorem start : Reading.start.Tracks [] where
  isFrom := by simp [Reading.start]
  declarations := .nil
  members := .nil
  declarationsFirst := by simp [Reading.start]
  place := trivial

/-- With more lines, and at another place of which as much is known, nothing that
has been gathered changes. -/
theorem movedTo
    {place : Place}
    (tracks : reading.Tracks before)
    (within : ∀ line ∈ before, line ∈ more)
    (placeTracks : place.Tracks more reading) :
    (reading.movedTo place).Tracks more where
  isFrom := fun node isNode => (tracks.isFrom node isNode).mono within
  declarations := tracks.declarations
  members := tracks.members
  declarationsFirst := tracks.declarationsFirst
  place := by
    cases place <;>
      exact placeTracks

/-- What a line declares comes behind all declarations before it. -/
theorem afterInstructions
    {extent : DeclarationLine.Extent}
    (tracks : reading.Tracks before)
    (within : ∀ line ∈ before, line ∈ more)
    (noMembers : reading.members = [])
    (earlier : ∀ node ∈ reading.declarations, node.line ≤ line.number)
    (isFrom : extent.IsFrom more line) :
    (reading.afterInstructions extent).Tracks more := by
  cases extent with
  | opensBlock opened block waiting =>
      exact tracks.movedTo within ⟨line, isFrom.1, isFrom.2, earlier⟩
  | complete declared =>
      refine ⟨?_, ?_, ?_, ?_, trivial⟩
      · intro node isNode
        simp only [Reading.afterInstructions, List.append_assoc, List.mem_append,
          List.mem_reverse] at isNode
        rcases isNode with isNew | isEarlier
        · exact (isFrom node isNew).1
        · exact (tracks.isFrom node (List.mem_append.mpr isEarlier)).mono within
      · refine List.pairwise_append.mpr ⟨?_, tracks.declarations, ?_⟩
        · refine List.pairwise_iff_forall_sublist.mpr fun {later first} isPair => ?_
          have isLater := isFrom later (List.mem_reverse.mp (isPair.subset (by simp)))
          have isFirst := isFrom first (List.mem_reverse.mp (isPair.subset (by simp)))
          exact (isFirst.2.trans isLater.2.symm).le
        · intro later isLater first isFirst
          rw [(isFrom later (List.mem_reverse.mp isLater)).2]
          exact earlier first isFirst
      · exact tracks.members
      · intro member isMember
        simp [Reading.afterInstructions, noMembers] at isMember

/-- One more line keeps the order. -/
theorem advances
    (tracks : reading.Tracks before)
    (cuts : reading.Cuts before)
    (shaped : reading.Shaped)
    (increasing : ((before ++ [line]).map Line.number).Pairwise (· < ·))
    (advances : Reading.Advances line reading next) :
    next.Tracks (before ++ [line]) := by
  have within : ∀ earlier ∈ before, earlier ∈ before ++ [line] :=
    fun earlier => List.mem_append_left [line]
  have isLast : line ∈ before ++ [line] := by
    simp
  have earlier : ∀ earlier ∈ before, earlier.number < line.number := by
    rw [List.map_append, List.pairwise_append] at increasing
    exact fun earlier isEarlier =>
      increasing.2.2 earlier.number (List.mem_map_of_mem isEarlier) line.number (by simp)
  have beforeIncreasing : (before.map Line.number).Pairwise (· < ·) :=
    increasing.sublist ((List.sublist_append_left before [line]).map Line.number)
  -- What is gathered ends before the line, so whatever comes from the line stands
  -- behind it.
  have ends :
      ∀ node ∈ reading.declarations ++ reading.members, node.EndsBefore line.number :=
    fun node isNode => (tracks.isFrom node isNode).endsBefore earlier
  have placed := tracks.place
  cases advances with
  | silentDeclaration place unsigned silent
  | outside place plain =>
      exact tracks.movedTo within (by rw [place]; trivial)
  | declaration place unsigned loud reads =>
      have noMembers : reading.members = [] := by
        unfold Reading.Cuts at cuts
        rwa [place] at cuts
      have opened : (DeclarationLine.opening line).IsFrom (before ++ [line]) line :=
        ⟨isLast, rfl, rfl, by simp [DeclarationLine.opening]⟩
      exact
        tracks.afterInstructions within noMembers
          (fun node isNode =>
            (ends node (List.mem_append_left _ isNode)).line_lt.le)
          (opened.readOn reads)
  | blockEnd place closes reads =>
      have noMembers : reading.members = [] := by
        unfold Reading.Cuts at cuts
        rwa [place] at cuts
      rw [place] at placed
      obtain ⟨first, opened, block, declared⟩ := placed
      have node := block.isFrom_node opened.isLine
      exact
        tracks.afterInstructions within noMembers declared
          (((opened.declare node).mono within).readOn reads)
  | blockLine place inside =>
      rw [place] at placed
      obtain ⟨first, opened, block, declared⟩ := placed
      refine tracks.movedTo within ⟨first, opened.mono within, ?_, declared⟩
      refine ⟨block.number, block.oneLine, fun inner isInner => ?_⟩
      rcases List.mem_cons.mp isInner with rfl | isEarlier
      · exact ⟨isLast, (earlier first opened.isLine).le⟩
      · obtain ⟨isLine, isLater⟩ := block.later inner isEarlier
        exact ⟨within inner isLine, isLater⟩
  | memberStart place signed =>
      exact tracks.movedTo within ends
  | attributeLine place atTop inside states =>
      rw [place] at placed
      exact tracks.movedTo within placed
  | bodyLine place inside =>
      rw [place] at placed
      exact tracks.movedTo within placed
  | @memberEnd member place atTop closes =>
      rw [place] at placed
      unfold Reading.Cuts at cuts
      rw [place] at cuts
      -- The cut says which lines belong to the member, and that each is accounted for
      -- once.
      obtain ⟨front, done, opening, inside, cut⟩ := cuts
      have isCode := shaped.place
      rw [place] at isCode
      have nodeFrom := cut.isFrom_node beforeIncreasing atTop isCode.2.items
      refine ⟨?_, tracks.declarations, ?_, ?_, trivial⟩
      · intro node isNode
        rcases List.mem_append.mp isNode with isDeclaration | isMember
        · exact (tracks.isFrom node (List.mem_append_left _ isDeclaration)).mono within
        · rcases List.mem_cons.mp isMember with rfl | isEarlier
          · exact nodeFrom.mono within
          · exact (tracks.isFrom node (List.mem_append_right _ isEarlier)).mono within
      · exact
          .cons (fun node isEarlier => placed node (List.mem_append_right _ isEarlier))
            tracks.members
      · intro other isMember node isDeclaration
        rcases List.mem_cons.mp isMember with rfl | isEarlier
        · exact placed node (List.mem_append_left _ isDeclaration)
        · exact tracks.declarationsFirst other isEarlier node isDeclaration

/-- Lines with growing numbers are read in their order. -/
theorem readLines
    {lines : List Line}
    {final : Reading}
    (reads : (Reading.start.readLines lines).result = .ok final)
    (increasing : (lines.map Line.number).Pairwise (· < ·)) :
    final.Tracks lines := by
  refine
    Reading.readLines_induction
      (motive := fun before reading =>
        (before.map Line.number).Pairwise (· < ·) → reading.Tracks before)
      ?_ ?_ reads increasing
  · intro _
    exact start
  · intro before line reading next isRead inductionHypothesis step longer
    have shorter : (before.map Line.number).Pairwise (· < ·) :=
      longer.sublist ((List.sublist_append_left before [line]).map Line.number)
    exact
      (inductionHypothesis shorter).advances (Reading.Cuts.readLines isRead shorter)
        (Reading.Shaped.start.readLines isRead) longer step

end Reading.Tracks

/-! ## Headers -/

namespace Header

variable
  {source : List Text}
  {node : Node}

/-- The parts of a header's attribute stand on its line. -/
theorem isFrom_of_attributeAt
    {position : Nat}
    (reads : attributeAt source position = .ok node) :
    node.IsFrom [⟨[], position + 1⟩] := by
  obtain ⟨text, -, states⟩ := attributeAt_eq_ok_iff.mp reads
  exact Attribute.isFrom_of_readNode? states

/-- Attributes stand on the lines that they are read from. -/
theorem map_line_of_attributesAt
    {positions : List Nat}
    {attributes : List Node}
    (reads : positions.mapM (attributeAt source) = .ok attributes) :
    attributes.map Node.line = positions.map (· + 1) := by
  induction positions generalizing attributes with
  | nil =>
      cases reads
      rfl
  | cons position rest inductionHypothesis =>
      obtain ⟨first, others, isFirst, readsRest, rfl⟩ := attributesAt_cons_iff.mp reads
      rw [List.map_cons, List.map_cons, inductionHypothesis readsRest,
        (isFrom_of_attributeAt isFirst).line_eq]

/-- Where the attributes of a header stand. -/
structure Placed (header : Header) : Prop where
  length : header.length = if header.classFlags.isSome then 13 else 1
  attributes :
    header.attributes.map Node.line =
      if header.classFlags.isSome then [9, 10, 11, 12, 13] else [1]
  isFrom : ∀ node ∈ header.attributes, ∃ number, node.IsFrom [⟨[], number⟩]

/-- The attributes of a header stand at their places. -/
theorem placed_of_read
    {header : Header}
    (reads : (read source).result = .ok header) :
    header.Placed := by
  cases isReadFrom_of_read reads with
  | ofClass first flagged stated =>
      have atPositions := (mapM_of_attributesOf stated).1
      refine ⟨rfl, map_line_of_attributesAt atPositions, fun node isAttribute => ?_⟩
      obtain ⟨position, -, reads⟩ := (attributes_of_mapM atPositions).2 node isAttribute
      exact ⟨position + 1, isFrom_of_attributeAt reads⟩
  | ofPlain first noClass stated =>
      have isFrom := isFrom_of_attributeAt stated
      refine ⟨rfl, by simp [isFrom.line_eq], fun node isAttribute => ?_⟩
      rw [List.mem_singleton.mp isAttribute]
      exact ⟨1, isFrom⟩

end Header

/-! ## Modules -/

/-- The attributes of a module's header. -/
def Node.attributeLines (module : Node) : List Node :=
  module.children.filter fun child => child.kind = .attributeLine

namespace Module

/-- Where the parts of a module stand in its source: its header on the first lines, and
behind it everything on the line that it starts on, in the order of the lines. -/
structure IsOrdered (source : List Text) (header : Header) (module : Node) : Prop where
  sections :
    module.children = module.attributeLines ++ module.declarations ++ module.members
  length : header.length = if module.classFlags?.isSome then 13 else 1
  root : module.line = 1
  attributeLines :
    module.attributeLines.map Node.line =
      if module.classFlags?.isSome then [9, 10, 11, 12, 13] else [1]
  attributeParts :
    ∀ node ∈ module.attributeLines, ∀ part ∈ preorder [node], part.line = node.line
  bodyParts :
    ∀ node ∈ module.declarations ++ module.members, ∀ part ∈ preorder [node],
      (∃ line ∈ bodyLines source header, part.line = line.number) ∧
        header.length < part.line ∧ part.line ≤ source.length
  below :
    ∀ part ∈ preorder [module], ∀ child ∈ part.children, part.line ≤ child.line
  declarations :
    module.declarations.Pairwise fun earlier later => earlier.line ≤ later.line
  declarationsFirst :
    ∀ member ∈ module.members, ∀ node ∈ module.declarations,
      node.EndsBefore member.line
  members :
    module.members.Pairwise fun earlier later => earlier.EndsBefore later.line

section

variable
  {file : Text}
  {source : List Text}
  {header : Header}
  {final : Reading}
  {module : Node}
  (reads : Reads file source header final module)
include reads

/-- The attribute lines of a module are those of its header. -/
theorem attributeLines_eq :
    module.attributeLines = header.attributes := by
  obtain ⟨areAttributes, areDeclarations, areMembers⟩ := kinds_of_reads reads
  unfold Node.attributeLines
  rw [reads.shape, List.append_assoc, List.filter_append, List.filter_eq_self.mpr,
    List.filter_eq_nil_iff.mpr, List.append_nil]
  · intro node member
    rcases List.mem_append.mp member with isDeclaration | isMember
    · rcases areDeclarations node isDeclaration with kind | kind <;>
        simp [kind]
    · rcases areMembers node isMember with kind | kind <;>
        simp [kind]
  · intro node member
    simp [areAttributes node member]

/-- A module has its attributes first, then its declarations and then its
members. -/
theorem sections_of_reads :
    module.children =
      module.attributeLines ++ module.declarations ++ module.members := by
  rw [attributeLines_eq reads, declarations_eq reads, members_eq reads, reads.shape]

/-- A module has the class flags of its header. -/
theorem classFlags?_of_reads :
    module.classFlags? = header.classFlags := by
  rw [reads.shape]
  rfl

/-- What a reading has gathered comes from its lines, in their order. -/
theorem tracks_of_reads :
    final.Tracks (bodyLines source header) :=
  Reading.Tracks.readLines reads.readsLines (Line.logical_increasing _ _)

/-- All behind the header of a module comes from the lines behind it. -/
theorem isFrom_of_reads :
    ∀ node ∈ module.declarations ++ module.members,
      node.IsFrom (bodyLines source header) := by
  intro node isNode
  rw [declarations_eq reads, members_eq reads] at isNode
  exact (tracks_of_reads reads).isFrom node (by simpa using isNode)

/-- A node of a module is its root, or stands on a line of the header, whatever that
line says, or on a line behind the header. -/
theorem standsOn_of_mem_preorder
    {part : Node}
    (isPart : part ∈ preorder [module]) :
    part = module ∨
      (∃ number, part.StandsOn ⟨[], number⟩) ∨
        ∃ line ∈ bodyLines source header, part.StandsOn line := by
  refine (mem_preorder_singleton.mp isPart).imp_right ?_
  rintro ⟨top, isTop, isInside⟩
  rw [sections_of_reads reads, List.append_assoc] at isTop
  rcases List.mem_append.mp isTop with isAttribute | isNode
  · rw [attributeLines_eq reads] at isAttribute
    obtain ⟨number, isFrom⟩ :=
      (Header.placed_of_read reads.readsHeader).isFrom top isAttribute
    obtain ⟨⟨line, isLine, stands⟩, -⟩ := isFrom part isInside
    rw [List.mem_singleton.mp isLine] at stands
    exact .inl ⟨number, stands⟩
  · exact .inr (isFrom_of_reads reads top isNode part isInside).1

/-- The lines behind a header have numbers from there to the end of the source. -/
theorem number_of_mem_bodyLines
    {line : Line}
    (isLine : line ∈ bodyLines source header) :
    header.length < line.number ∧ line.number ≤ source.length := by
  have above := Line.le_number_of_mem_logical isLine
  have below := Line.number_lt_of_mem_logical isLine
  have inside := Header.length_le_of_read reads.readsHeader
  rw [List.length_drop] at below
  omega

/-- Below every node of a module stand nodes of its line and of later lines. -/
theorem children_of_reads :
    ∀ part ∈ preorder [module], ∀ child ∈ part.children, part.line ≤ child.line := by
  have placed := Header.placed_of_read reads.readsHeader
  have isFrom :
      ∀ node ∈ module.children, 1 ≤ node.line ∧ ∃ lines, node.IsFrom lines := by
    intro node isChild
    rw [sections_of_reads reads, List.append_assoc] at isChild
    rcases List.mem_append.mp isChild with isAttribute | isNode
    · rw [attributeLines_eq reads] at isAttribute
      obtain ⟨number, isFrom⟩ := placed.isFrom node isAttribute
      refine ⟨?_, _, isFrom⟩
      have isNumber := List.mem_map_of_mem (f := Node.line) isAttribute
      rw [placed.attributes] at isNumber
      split at isNumber <;>
        simp at isNumber <;>
        omega
    · have isFrom := isFrom_of_reads reads node isNode
      obtain ⟨line, isLine, stands⟩ := isFrom.exists_standsOn
      have behind := number_of_mem_bodyLines reads isLine
      exact ⟨by rw [stands.number]; omega, _, isFrom⟩
  intro part isPart child isChild
  rcases mem_preorder_singleton.mp isPart with rfl | ⟨top, isTop, isInside⟩
  · rw [reads.shape]
    exact (isFrom child isChild).1
  · obtain ⟨-, lines, topFrom⟩ := isFrom top isTop
    exact (topFrom part isInside).2 child isChild

end

/-- Every line number in a module that has been read is that of a line in its place,
and the numbers come in order. -/
theorem isOrdered_of_parse
    {file : Text}
    {source : List Text}
    {patience : Option Nat}
    {module : Node}
    (parsed : (parse file source patience).result = .ok module) :
    ∃ header,
      (Header.read source).result = .ok header ∧ IsOrdered source header module := by
  obtain ⟨header, final, reads⟩ := exists_reads_of_parse parsed
  -- The header gives the order of its attributes, and the reading that of all behind
  -- it.
  have tracks := tracks_of_reads reads
  have placed := Header.placed_of_read reads.readsHeader
  refine ⟨header, reads.readsHeader, ?_⟩
  constructor
  case sections =>
    exact sections_of_reads reads
  case length =>
    rw [classFlags?_of_reads reads]
    exact placed.length
  case root =>
    rw [reads.shape]
  case attributeLines =>
    rw [attributeLines_eq reads, classFlags?_of_reads reads]
    exact placed.attributes
  case attributeParts =>
    intro node isAttribute part isPart
    rw [attributeLines_eq reads] at isAttribute
    obtain ⟨number, isFrom⟩ := placed.isFrom node isAttribute
    rw [isFrom.line_of_mem isPart, isFrom.line_eq]
  case bodyParts =>
    intro node isNode part isPart
    obtain ⟨⟨line, isLine, stands⟩, -⟩ := isFrom_of_reads reads node isNode part isPart
    rw [stands.number]
    exact ⟨⟨line, isLine, rfl⟩, number_of_mem_bodyLines reads isLine⟩
  case below =>
    exact children_of_reads reads
  case declarations =>
    rw [declarations_eq reads]
    exact List.pairwise_reverse.mpr tracks.declarations
  case declarationsFirst =>
    intro member isMember node isDeclaration
    rw [members_eq reads, List.mem_reverse] at isMember
    rw [declarations_eq reads, List.mem_reverse] at isDeclaration
    exact tracks.declarationsFirst member isMember node isDeclaration
  case members =>
    rw [members_eq reads]
    exact List.pairwise_reverse.mpr tracks.members

/-- A class module whose declaration lines open two blocks, with a member that
continues over several physical lines. -/
theorem isOrdered_of_parse_blocks :
    ∃ (source : List Text) (module : Node),
      (parse "A.cls" source none).result = .ok module ∧
        (preorder module.declarations).map Node.line =
          [15, 15, 16, 16, 16, 15, 15, 19, 15, 15, 15] ∧
        module.members.map Node.line = [21, 26] ∧
        ∃ header,
          (Header.read source).result = .ok header ∧
            IsOrdered source header module := by
  let source : List Text :=
    ["VERSION 1.0 CLASS", "BEGIN", "MultiUse = -1", "Persistable = 0",
      "DataBindingBehavior = 0", "DataSourceBehavior = 0", "MTSTransactionMode = 0",
      "END", "Attribute A.VB_Name = \"A\"", "Attribute VB_GlobalNameSpace = False",
      "Attribute VB_Creatable = True", "Attribute VB_PredeclaredId = False",
      "Attribute VB_Exposed = False", "", "Type T: Enum E: Dim x ' c", "y As _", "Long",
      "End Type", "z", "End Enum", "Sub S( _", "x)", "Attribute S.VB_UserMemId = 0",
      "x = 1", "End Sub", "Sub U()", "End Sub"]
  have views :
      (parse "A.cls" source none).result.map
          (fun module =>
            ((preorder module.declarations).map Node.line,
              module.members.map Node.line)) =
        .ok ([15, 15, 16, 16, 16, 15, 15, 19, 15, 15, 15], [21, 26]) := by
    decide +kernel
  obtain ⟨module, parsed, seen⟩ := Run.exists_ok_of_map views
  obtain ⟨declarations, members⟩ := Prod.mk.inj seen
  exact ⟨source, module, parsed, declarations, members, isOrdered_of_parse parsed⟩

/-- The member that an attribute of the header belongs to stands in the header, on no
line behind it. -/
theorem exists_memberReference_in_header :
    let source : List Text := ["Attribute Foo.VB_Name = \"A\"", "Dim x"]
    let reference : Node := .leaf .memberReference "Foo" 1
    ∃ header module,
      (Header.read source).result = .ok header ∧
        (parse "" source none).result = .ok module ∧
          reference ∈ preorder module.children ∧
            reference ∉ module.attributeLines ∧
              ¬∃ line ∈ bodyLines source header, reference.line = line.number := by
  intro source reference
  have behind :
      (Header.read source).result.map (bodyLines source) = .ok [⟨"Dim x", 2⟩] := by
    decide +kernel
  have views :
      (parse "" source none).result.map
          (fun module =>
            decide
              (reference ∈ preorder module.children ∧
                reference ∉ module.attributeLines)) =
        .ok true := by
    decide +kernel
  obtain ⟨header, readsHeader, lines⟩ := Run.exists_ok_of_map behind
  obtain ⟨module, parsed, seen⟩ := Run.exists_ok_of_map views
  obtain ⟨isPart, noAttribute⟩ := of_decide_eq_true seen
  refine ⟨header, module, readsHeader, parsed, isPart, noAttribute, ?_⟩
  rw [lines]
  decide

end Module

end ClassicBasic
