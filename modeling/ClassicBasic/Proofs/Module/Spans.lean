import ClassicBasic.Proofs.Line.Numbering
import ClassicBasic.Proofs.Member.Accounting
import ClassicBasic.Proofs.Module.Shape

namespace ClassicBasic

open Node

/-!
# The member section of a module

Behind its declarations a module is cut into the spans of its members and
single lines between them, and inside a span every line is accounted for.  The
cut is known at every line of a reading: of a member that is still open the
signature and the lines so far, and whole spans of the members before it.
-/

/-! ## Spans -/

/-- The lines of a member: its signature, the lines inside, each accounted for
once, and its terminator. -/
inductive IsSpan : List Line → Node → Prop where
  | mk
      {opening closing : Line}
      {inside : List Line}
      {signature : Signature}
      {member block : Node}
      (signed : Signature.read? opening.code = some signature)
      (closes : closing.code = signature.terminator.text)
      (named : member.name = signature.heading.name)
      (numbered : member.line = opening.number)
      (carries : member.payload = signature.payload)
      (hasBlock : member.childrenOfKind .codeBlock = [block])
      (accounts :
        Accounts inside (member.childrenOfKind .attributeLine) block.linesBelow)
      (once :
        ∀ line ∈ inside,
          line.AccountedOnce (member.childrenOfKind .attributeLine)
            block.linesBelow)
      (increasing : (block.linesBelow.map Line.number).Pairwise (· < ·)) :
      IsSpan (opening :: (inside ++ [closing])) member

/-- A member whose lines are accounted for has them as its span. -/
theorem isSpan_memberNode
    {opening closing : Line}
    {inside : List Line}
    {signature : Signature}
    {attributes body : List Node}
    (signed : Signature.read? opening.code = some signature)
    (closes : closing.code = signature.terminator.text)
    (accounts : Accounts inside attributes (listing body))
    (increasing : (inside.map Line.number).Pairwise (· < ·)) :
    IsSpan (opening :: (inside ++ [closing]))
      (signature.memberNode opening.number attributes body) := by
  let block : Node := ⟨signature.heading.name, opening.number, .codeBlock, body⟩
  have areAttributes : ∀ node ∈ attributes, node.kind = .attributeLine := by
    intro node member
    obtain ⟨line, -, states⟩ := accounts.exists_states member
    exact (isAttributeLine_of_readNode? states).kind_eq
  have isAttributes :
      (signature.memberNode opening.number attributes body).childrenOfKind
          .attributeLine =
        attributes := by
    rw [signature.childrenOfKind_memberNode _ _ _ (by decide) (by decide),
      List.filter_append, List.filter_eq_self.mpr]
    · exact List.append_nil attributes
    · intro node member
      simp [areAttributes node member]
  have hasBlock :
      (signature.memberNode opening.number attributes body).childrenOfKind
          .codeBlock =
        [block] :=
    signature.codeBlocks_memberNode _ _ areAttributes
  have below : block.linesBelow = listing body := linesBelow_eq block
  have distinct : (inside.map Line.number).Nodup := increasing.imp Nat.ne_of_lt
  refine .mk signed closes rfl rfl rfl hasBlock ?_ ?_ ?_
  · rw [isAttributes, below]
    exact accounts
  · rw [isAttributes, below]
    intro line member
    exact accounts.accountedOnce distinct member
  · rw [below]
    exact increasing.sublist (accounts.listing_sublist.map Line.number)

/-! ## Sections -/

/-- Lines cut into the spans of members and single lines outside of them, which
are silent or no signatures. -/
inductive MemberSection : List Line → List Node → Prop where
  | nil : MemberSection [] []
  | outside
      {lines : List Line}
      {members : List Node}
      {line : Line}
      (before : MemberSection lines members)
      (plain : isSilent line.code = true ∨ Signature.read? line.code = none) :
      MemberSection (lines ++ [line]) members
  | span
      {lines span : List Line}
      {members : List Node}
      {member : Node}
      (before : MemberSection lines members)
      (isSpan : IsSpan span member) :
      MemberSection (lines ++ span) (members ++ [member])

/-- Declarations are read up to the first line that is a signature there. -/
structure DeclarationsEnd (front behind : List Line) : Prop where
  reads :
    ∃ reading,
      (Reading.start.readLines front).result = .ok reading ∧
        reading.place = .declarations
  signed : ∀ line ∈ behind.head?, (Signature.read? line.code).isSome

/-- The first line behind the declarations does not change with more lines. -/
theorem DeclarationsEnd.append
    {front behind : List Line}
    (declarationsEnd : DeclarationsEnd front behind)
    (nonEmpty : behind ≠ [])
    (more : List Line) :
    DeclarationsEnd front (behind ++ more) := by
  refine ⟨declarationsEnd.reads, ?_⟩
  rw [List.head?_append_of_ne_nil _ nonEmpty]
  exact declarationsEnd.signed

/-- The cut of all lines before a place between members. -/
structure CutBetween
    (before : List Line)
    (members : List Node)
    (front done : List Line) :
    Prop where
  split : before = front ++ done
  nonEmpty : done ≠ []
  declarationsEnd : DeclarationsEnd front done
  isSection : MemberSection done members.reverse

/-- The cut of all lines before a place inside a member. -/
structure CutInside
    (before : List Line)
    (members : List Node)
    (member : OpenMember)
    (front done : List Line)
    (opening : Line)
    (inside : List Line) :
    Prop where
  split : before = front ++ (done ++ opening :: inside)
  declarationsEnd : DeclarationsEnd front (done ++ opening :: inside)
  isSection : MemberSection done members.reverse
  signed : Signature.read? opening.code = some member.signature
  numbered : member.line = opening.number
  accounts : Accounts inside member.attributes.reverse member.body.listing

/-- How the lines before a place are cut, given the members before it. -/
def Place.Cuts (before : List Line) (members : List Node) : Place → Prop
  | .declarations => members = []
  | .block _ _ _ => members = []
  | .members => ∃ front done, CutBetween before members front done
  | .member inner =>
      ∃ front done opening inside,
        CutInside before members inner front done opening inside

/-- How the lines before a reading are cut. -/
def Reading.Cuts (before : List Line) (reading : Reading) : Prop :=
  reading.place.Cuts before reading.members

/-- A line that opens no member stands between members. -/
theorem CutBetween.outside
    {before front done : List Line}
    {members : List Node}
    {line : Line}
    (cut : CutBetween before members front done)
    (plain : isSilent line.code = true ∨ Signature.read? line.code = none) :
    CutBetween (before ++ [line]) members front (done ++ [line]) :=
  ⟨by rw [cut.split, List.append_assoc], by simp,
    cut.declarationsEnd.append cut.nonEmpty [line], cut.isSection.outside plain⟩

/-- A signature opens the span of a member. -/
theorem CutInside.start
    {before front done : List Line}
    {members : List Node}
    {line : Line}
    {signature : Signature}
    (split : before = front ++ done)
    (declarationsEnd : DeclarationsEnd front (done ++ [line]))
    (isSection : MemberSection done members.reverse)
    (signed : Signature.read? line.code = some signature) :
    CutInside (before ++ [line]) members ⟨signature, line.number, [], .empty⟩
      front done line [] :=
  ⟨by rw [split, List.append_assoc], declarationsEnd, isSection, signed, rfl, .nil⟩

namespace CutInside

variable
  {before front done inside : List Line}
  {members : List Node}
  {member : OpenMember}
  {opening line : Line}

/-- One more line that is accounted for comes into the span. -/
theorem extend
    {attributes : List Node}
    {body : OpenBody}
    (cut : CutInside before members member front done opening inside)
    (accounts : Accounts (inside ++ [line]) attributes.reverse body.listing) :
    CutInside (before ++ [line]) members
      { member with attributes := attributes, body := body }
      front done opening (inside ++ [line]) := by
  have longer := cut.declarationsEnd.append (by simp) [line]
  rw [List.append_assoc, List.cons_append] at longer
  exact
    ⟨by simp [cut.split], longer, cut.isSection, cut.signed, cut.numbered,
      accounts⟩

/-- A terminator outside all regions closes the span. -/
theorem close
    (cut : CutInside before members member front done opening inside)
    (increasing : (before.map Line.number).Pairwise (· < ·))
    (atTop : member.body.regions = [])
    (closes : line.code = member.signature.terminator.text) :
    CutBetween (before ++ [line]) (member.node :: members) front
      (done ++ opening :: (inside ++ [line])) := by
  have longer := cut.declarationsEnd.append (by simp) [line]
  rw [List.append_assoc, List.cons_append] at longer
  have accounts := cut.accounts
  have listed : member.body.listing = listing member.body.items.reverse := by
    simp [OpenBody.listing, atTop]
  rw [listed] at accounts
  have isInside : inside.Sublist before := by
    rw [cut.split]
    exact (List.sublist_cons_self opening inside).trans
      ((List.sublist_append_right done _).trans (List.sublist_append_right front _))
  have isSpan :=
    isSpan_memberNode cut.signed closes accounts
      (increasing.sublist (isInside.map Line.number))
  rw [← cut.numbered, ← OpenMember.node_eq] at isSpan
  refine ⟨by simp [cut.split], by simp, longer, ?_⟩
  rw [List.reverse_cons]
  exact cut.isSection.span isSpan

end CutInside

namespace Reading.Cuts

/-- Behind a declaration line there is nothing to cut yet. -/
theorem afterInstructions
    {before : List Line}
    {reading : Reading}
    (noMembers : reading.members = [])
    (extent : DeclarationLine.Extent) :
    (reading.afterInstructions extent).Cuts before := by
  cases extent <;>
    exact noMembers

/-- One more line comes into the cut. -/
theorem advances
    {before : List Line}
    {line : Line}
    {reading next : Reading}
    (cuts : reading.Cuts before)
    (increasing : (before.map Line.number).Pairwise (· < ·))
    (reads : (Reading.start.readLines before).result = .ok reading)
    (advances : Reading.Advances line reading next) :
    next.Cuts (before ++ [line]) := by
  -- What the cut is depends on the place, which every case names; only members cut
  -- lines.
  unfold Reading.Cuts at cuts
  cases advances with
  | silentDeclaration place unsigned silent =>
      rw [place] at cuts
      unfold Reading.Cuts
      rw [place]
      exact cuts
  | declaration place unsigned loud instructions =>
      rw [place] at cuts
      exact afterInstructions cuts _
  | blockEnd place closes instructions =>
      rw [place] at cuts
      exact afterInstructions cuts _
  | blockLine place inside =>
      rw [place] at cuts
      exact cuts
  | outside place plain =>
      rw [place] at cuts
      obtain ⟨front, done, cut⟩ := cuts
      unfold Reading.Cuts
      rw [place]
      exact ⟨front, done ++ [line], cut.outside plain⟩
  | memberStart place signed =>
      rcases place with place | place
      · rw [place] at cuts
        -- The first signature ends the declarations, and no line has been cut behind
        -- them.
        have declarationsEnd : DeclarationsEnd before ([] ++ [line]) :=
          ⟨⟨reading, reads, place⟩, by simp [signed]⟩
        have noMembers : reading.members = [] := cuts
        have isSection : MemberSection [] reading.members.reverse := by
          rw [noMembers]
          exact .nil
        exact
          ⟨before, [], line, [],
            .start (by simp) declarationsEnd isSection signed⟩
      · rw [place] at cuts
        obtain ⟨front, done, cut⟩ := cuts
        exact
          ⟨front, done, line, [],
            .start cut.split (cut.declarationsEnd.append cut.nonEmpty [line])
              cut.isSection signed⟩
  | attributeLine place atTop inside states =>
      rw [place] at cuts
      obtain ⟨front, done, opening, lines, cut⟩ := cuts
      refine ⟨front, done, opening, lines ++ [line], cut.extend ?_⟩
      rw [List.reverse_cons]
      exact cut.accounts.attributeLine states
  | bodyLine place inside =>
      rw [place] at cuts
      obtain ⟨front, done, opening, lines, cut⟩ := cuts
      exact
        ⟨front, done, opening, lines ++ [line],
          cut.extend (cut.accounts.readLine line)⟩
  | memberEnd place atTop closes =>
      rw [place] at cuts
      obtain ⟨front, done, opening, lines, cut⟩ := cuts
      exact
        ⟨front, done ++ opening :: (lines ++ [line]),
          cut.close increasing atTop closes⟩

/-- Lines with growing numbers are cut by any reading. -/
theorem readLines
    {lines : List Line}
    {final : Reading}
    (reads : (Reading.start.readLines lines).result = .ok final)
    (increasing : (lines.map Line.number).Pairwise (· < ·)) :
    final.Cuts lines := by
  refine
    Reading.readLines_induction
      (motive := fun before reading =>
        (before.map Line.number).Pairwise (· < ·) → reading.Cuts before)
      ?_ ?_ reads increasing
  · intro _
    exact rfl
  · intro before line reading next earlier inductionHypothesis step longer
    have shorter : (before.map Line.number).Pairwise (· < ·) :=
      longer.sublist ((List.sublist_append_left before [line]).map Line.number)
    exact (inductionHypothesis shorter).advances shorter earlier step

end Reading.Cuts

/-! ## Modules -/

/-- The declarations and interfaces of a module. -/
def Node.declarations (module : Node) : List Node :=
  module.children.filter fun child =>
    child.kind = .declaration ∨ child.kind = .interface

/-- The members of a module. -/
def Node.members (module : Node) : List Node :=
  module.children.filter fun child => child.kind = .property ∨ child.kind = .method

namespace Module

section

variable
  {file : Text}
  {source : List Text}
  {header : Header}
  {final : Reading}
  {module : Node}
  (reads : Reads file source header final module)
include reads

/-- The three parts of a module hold nodes of kinds of their own. -/
theorem kinds_of_reads :
    (∀ node ∈ header.attributes, node.kind = .attributeLine) ∧
      (∀ node ∈ final.declarations.reverse,
        node.kind = .declaration ∨ node.kind = .interface) ∧
      ∀ node ∈ final.members.reverse, node.kind = .property ∨ node.kind = .method := by
  have shaped := Reading.Shaped.start.readLines reads.readsLines
  refine ⟨?_, ?_, ?_⟩
  · intro node member
    exact ((Header.wellFormed_of_read reads.readsHeader).isAttribute node member).kind_eq
  · intro node member
    obtain ⟨comment, isDeclared⟩ :=
      shaped.declarations node (List.mem_reverse.mp member)
    exact isDeclared.kind_eq
  · intro node member
    exact (shaped.members node (List.mem_reverse.mp member)).kind_eq

/-- The declarations of a module are all that its reading has gathered as such. -/
theorem declarations_eq :
    module.declarations = final.declarations.reverse := by
  obtain ⟨areAttributes, areDeclarations, areMembers⟩ := kinds_of_reads reads
  unfold Node.declarations
  rw [reads.shape, List.filter_append, List.filter_append,
    List.filter_eq_nil_iff.mpr, List.filter_eq_self.mpr,
    List.filter_eq_nil_iff.mpr, List.append_nil]
  · rfl
  · intro node member
    rcases areMembers node member with kind | kind <;>
      simp [kind]
  · intro node member
    exact decide_eq_true (areDeclarations node member)
  · intro node member
    simp [areAttributes node member]

/-- The members of a module are all that its reading has gathered as members. -/
theorem members_eq :
    module.members = final.members.reverse := by
  obtain ⟨areAttributes, areDeclarations, areMembers⟩ := kinds_of_reads reads
  unfold Node.members
  rw [reads.shape, List.filter_append, List.filter_append,
    List.filter_eq_nil_iff.mpr, List.filter_eq_nil_iff.mpr,
    List.filter_eq_self.mpr]
  · rfl
  · intro node member
    exact decide_eq_true (areMembers node member)
  · intro node member
    rcases areDeclarations node member with kind | kind <;>
      simp [kind]
  · intro node member
    simp [areAttributes node member]

end

/-- Behind the declarations of a module that has been read, no line is lost or
duplicated. -/
theorem memberSection_of_parse
    {file : Text}
    {source : List Text}
    {patience : Option Nat}
    {module : Node}
    (parsed : (parse file source patience).result = .ok module) :
    ∃ header front behind,
      (Header.read source).result = .ok header ∧
        bodyLines source header = front ++ behind ∧
        DeclarationsEnd front behind ∧ MemberSection behind module.members := by
  obtain ⟨header, final, reads⟩ := exists_reads_of_parse parsed
  have cuts :=
    Reading.Cuts.readLines reads.readsLines (Line.logical_increasing _ _)
  rw [members_eq reads]
  unfold Reading.Cuts at cuts
  rcases reads.complete with place | place
  · rw [place] at cuts
    have noMembers : final.members = [] := cuts
    refine
      ⟨header, bodyLines source header, [], reads.readsHeader, by simp,
        ⟨⟨final, reads.readsLines, place⟩, by simp⟩, ?_⟩
    rw [noMembers]
    exact .nil
  · rw [place] at cuts
    obtain ⟨front, done, cut⟩ := cuts
    exact
      ⟨header, front, done, reads.readsHeader, cut.split, cut.declarationsEnd,
        cut.isSection⟩

/-- The cut of a module with a declaration, a member with an attribute and two
loops that share their `Next` line, a line outside and one more member. -/
theorem memberSection_of_parse_loops :
    ∃ (source : List Text) (module : Node),
      (parse "A.bas" source none).result = .ok module ∧
        module.members.map (fun member => (member.name, member.line)) =
          [("S".toList, 3), ("T".toList, 11)] ∧
        ∃ header front behind,
          (Header.read source).result = .ok header ∧
            bodyLines source header = front ++ behind ∧
            DeclarationsEnd front behind ∧
              MemberSection behind module.members := by
  let source : List Text :=
    ["Attribute VB_Name = \"A\"", "Dim x", "Sub S()",
      "Attribute S.VB_UserMemId = 0", "For i = 1 To 2", "For j = 1 To 2",
      "x = j", "Next j, i", "End Sub", "x = 1", "Sub T()", "End Sub"]
  have views :
      (parse "A.bas" source none).result.map
          (fun module =>
            module.members.map fun member => (member.name, member.line)) =
        .ok [("S".toList, 3), ("T".toList, 11)] := by
    decide +kernel
  obtain ⟨module, parsed, members⟩ := Run.exists_ok_of_map views
  exact ⟨source, module, parsed, members, memberSection_of_parse parsed⟩

end Module

end ClassicBasic
