import ClassicBasic.Proofs.Header.ClassForm
import ClassicBasic.Proofs.Module.Cancelling
import ClassicBasic.Proofs.Module.Renaming
import ClassicBasic.Proofs.Module.Unterminated

namespace ClassicBasic

/-!
# Malformed class headers

Behind its first line a class header is read from ten lines, in their order.  The
first of them that offends is the one that is reported, and only a header without
any offending line is asked whether its first attribute is the name.  Nothing else
makes a class malformed, and none goes without a name.
-/

namespace Header

/-! ## Offending lines -/

/-- Where a class header is read behind its first line, counted from zero: lines 3 to
7 and lines 9 to 13. -/
def checkedPositions : List Nat :=
  [2, 3, 4, 5, 6, 8, 9, 10, 11, 12]

/-- The lines that are looked at are those of flags and those of attributes. -/
theorem mem_checkedPositions
    {position : Nat} :
    position ∈ checkedPositions ↔
      position ∈ flagPositions ∨ position ∈ attributePositions :=
  List.mem_append (s := flagPositions) (t := attributePositions)

/-- Whether a line of a class header offends, with its stripped text and the reason.
A line that is not there has no text. -/
inductive Offends (source : List Text) (position : Nat) : Text → HeaderFault → Prop where
  | missing
      (isMissing : source[position]? = none) :
      Offends source position [] .endOfInput
  | noFlag
      {line : Text}
      (isFlag : position ∈ flagPositions)
      (isLine : source[position]? = some line)
      (isMalformed : flag? (strip line) = none) :
      Offends source position (strip line) .noFlag
  | noAttribute
      {line : Text}
      (isAttribute : position ∈ attributePositions)
      (isLine : source[position]? = some line)
      (isMalformed : Attribute.readNode? (strip line) (position + 1) = none) :
      Offends source position (strip line) .noAttribute

/-- Whether a line of a class header offends for any reason. -/
def IsOffending (source : List Text) (position : Nat) : Prop :=
  ∃ text reason, Offends source position text reason

/-- Whether a fault is the one that a class header is reported with: that of its first
offending line or, if there is none, that of a first attribute which is not the
name. -/
inductive IsReported (source : List Text) : Fault → Prop where
  | offending
      {position : Nat}
      {text : Text}
      {reason : HeaderFault}
      (isChecked : position ∈ checkedPositions)
      (earlier :
        ∀ other ∈ checkedPositions, other < position → ¬ IsOffending source other)
      (offends : Offends source position text reason) :
      IsReported source (malformed position text reason)
  | unnamed
      {line : Text}
      {first : Node}
      (fine : ∀ position ∈ checkedPositions, ¬ IsOffending source position)
      (isLine : source[firstAttribute]? = some line)
      (reads : Attribute.readNode? (strip line) (firstAttribute + 1) = some first)
      (noName : first.name ≠ Node.nameAttribute) :
      IsReported source (malformed firstAttribute (strip line) .nameNotFirst)

/-! ## Readers of single lines -/

/-- Whether a reader of lines fails at a position exactly if the line there offends. -/
def Judges
    (source : List Text)
    (reader : Nat → Except Fault α)
    (position : Nat) :
    Prop :=
  ∀ fault,
    reader position = .error fault ↔
      ∃ text reason,
        Offends source position text reason ∧ fault = malformed position text reason

/-- The reader of the lines that have a value, with a reason for those that have
none. -/
def readAt
    (read? : Text → Option α)
    (reason : HeaderFault)
    (source : List Text)
    (position : Nat) :
    Except Fault α :=
  lineAt source position >>= fun text =>
    (read? text).elim (.error (malformed position text reason)) .ok

/-- Flags are read line by line. -/
theorem flagAt_eq_readAt
    (source : List Text)
    (position : Nat) :
    flagAt source position = readAt flag? .noFlag source position := by
  refine congrArg (lineAt source position >>= ·) (funext fun text => ?_)
  cases flag? text <;>
    rfl

/-- Attributes are read line by line. -/
theorem attributeAt_eq_readAt
    (source : List Text)
    (position : Nat) :
    attributeAt source position =
      readAt (fun text => Attribute.readNode? text (position + 1)) .noAttribute source
        position := by
  refine congrArg (lineAt source position >>= ·) (funext fun text => ?_)
  cases stated : Attribute.readNode? text (position + 1) <;>
    simp only [stated, Option.elim]

/-- A line is not read where there is none, and where it has no value. -/
theorem readAt_eq_error_iff
    {read? : Text → Option α}
    {reason : HeaderFault}
    {source : List Text}
    {position : Nat}
    {fault : Fault} :
    readAt read? reason source position = .error fault ↔
      (source[position]? = none ∧ fault = malformed position [] .endOfInput) ∨
        ∃ line,
          source[position]? = some line ∧
            read? (strip line) = none ∧
            fault = malformed position (strip line) reason := by
  cases isLine : source[position]? with
  | none =>
      simp [readAt, lineAt, isLine, bind, Except.bind, eq_comm]
  | some line =>
      cases isRead : read? (strip line) <;>
        simp [readAt, lineAt, isLine, isRead, bind, Except.bind, eq_comm]

/-- All flags stand in front of all attributes. -/
theorem flagPosition_lt_attributePosition :
    ∀ first ∈ flagPositions, ∀ second ∈ attributePositions, first < second := by
  decide

/-- Reading a flag fails exactly on an offending line. -/
theorem judges_flagAt
    (source : List Text) :
    ∀ position ∈ flagPositions, Judges source (flagAt source) position := by
  intro position isFlag fault
  rw [flagAt_eq_readAt, readAt_eq_error_iff]
  constructor
  · rintro (⟨isMissing, rfl⟩ | ⟨line, isLine, isMalformed, rfl⟩)
    · exact ⟨_, _, .missing isMissing, rfl⟩
    · exact ⟨_, _, .noFlag isFlag isLine isMalformed, rfl⟩
  · rintro ⟨text, reason, offends, rfl⟩
    cases offends with
    | missing isMissing =>
        exact .inl ⟨isMissing, rfl⟩
    | noFlag _ isLine isMalformed =>
        exact .inr ⟨_, isLine, isMalformed, rfl⟩
    | noAttribute isAttribute =>
        exact
          (Nat.lt_irrefl _
            (flagPosition_lt_attributePosition _ isFlag _ isAttribute)).elim

/-- Reading an attribute fails exactly on an offending line. -/
theorem judges_attributeAt
    (source : List Text) :
    ∀ position ∈ attributePositions, Judges source (attributeAt source) position := by
  intro position isAttribute fault
  rw [attributeAt_eq_readAt, readAt_eq_error_iff]
  constructor
  · rintro (⟨isMissing, rfl⟩ | ⟨line, isLine, isMalformed, rfl⟩)
    · exact ⟨_, _, .missing isMissing, rfl⟩
    · exact ⟨_, _, .noAttribute isAttribute isLine isMalformed, rfl⟩
  · rintro ⟨text, reason, offends, rfl⟩
    cases offends with
    | missing isMissing =>
        exact .inl ⟨isMissing, rfl⟩
    | noFlag isFlag =>
        exact
          (Nat.lt_irrefl _
            (flagPosition_lt_attributePosition _ isFlag _ isAttribute)).elim
    | noAttribute _ isLine isMalformed =>
        exact .inr ⟨_, isLine, isMalformed, rfl⟩

section

variable
  {source : List Text}
  {reader : Nat → Except Fault α}
  {positions : List Nat}
  (judges : ∀ position ∈ positions, Judges source reader position)

include judges

/-- Lines that do not offend are read. -/
theorem exists_mapM_eq_ok
    (fine : ∀ position ∈ positions, ¬ IsOffending source position) :
    ∃ values, positions.mapM reader = .ok values := by
  induction positions with
  | nil =>
      exact ⟨[], rfl⟩
  | cons position rest inductionHypothesis =>
      obtain ⟨judgesFirst, judgesRest⟩ := List.forall_mem_cons.mp judges
      obtain ⟨fineFirst, fineRest⟩ := List.forall_mem_cons.mp fine
      obtain ⟨values, readsRest⟩ := inductionHypothesis judgesRest fineRest
      cases readsFirst : reader position with
      | error fault =>
          obtain ⟨text, reason, offends, -⟩ := (judgesFirst fault).mp readsFirst
          exact (fineFirst ⟨text, reason, offends⟩).elim
      | ok value =>
          refine ⟨value :: values, ?_⟩
          rw [List.mapM_cons, readsFirst, readsRest]
          rfl

/-- Lines that are read in order fail with the first that offends. -/
theorem mapM_eq_error
    (order : positions.Pairwise (· < ·))
    {position : Nat}
    {text : Text}
    {reason : HeaderFault}
    (isPosition : position ∈ positions)
    (earlier : ∀ other ∈ positions, other < position → ¬ IsOffending source other)
    (offends : Offends source position text reason) :
    positions.mapM reader = .error (malformed position text reason) := by
  obtain ⟨before, after, rfl⟩ := List.append_of_mem isPosition
  obtain ⟨-, -, precede⟩ := List.pairwise_append.mp order
  have judgesEarlier : ∀ other ∈ before, Judges source reader other :=
    fun other isEarlier => judges other (List.mem_append_left _ isEarlier)
  obtain ⟨values, reads⟩ :=
    exists_mapM_eq_ok judgesEarlier fun other isEarlier =>
      earlier other (List.mem_append_left _ isEarlier)
        (precede other isEarlier position List.mem_cons_self)
  have fails : reader position = .error (malformed position text reason) :=
    (judges position isPosition _).mpr ⟨text, reason, offends, rfl⟩
  rw [List.mapM_append, reads, List.mapM_cons, fails]
  rfl

end

/-! ## The header -/

/-- The flags of a class are read like its attributes, one by one. -/
theorem map_flagValues_flagsOf
    (source : List Text) :
    (flagsOf source).map flagValues = flagPositions.mapM (flagAt source) := by
  have positions :
      flagPositions =
        [firstFlag, firstFlag + 1, firstFlag + 2, firstFlag + 3, firstFlag + 4] :=
    rfl
  simp only [positions, List.mapM_cons, List.mapM_nil, flagsOf, bind, Except.bind]
  cases flagAt source firstFlag <;>
    cases flagAt source (firstFlag + 1) <;>
      cases flagAt source (firstFlag + 2) <;>
        cases flagAt source (firstFlag + 3) <;>
          cases flagAt source (firstFlag + 4) <;>
            rfl

/-- The flags fail with the first of their lines that offends. -/
theorem flagsOf_eq_error
    {source : List Text}
    {position : Nat}
    {text : Text}
    {reason : HeaderFault}
    (isFlag : position ∈ flagPositions)
    (earlier : ∀ other ∈ flagPositions, other < position → ¬ IsOffending source other)
    (offends : Offends source position text reason) :
    flagsOf source = .error (malformed position text reason) := by
  apply Run.eq_error_of_map
  rw [map_flagValues_flagsOf]
  exact mapM_eq_error (judges_flagAt source) (by decide) isFlag earlier offends

/-- The flags are read if none of their lines offends. -/
theorem exists_flagsOf_eq_ok
    {source : List Text}
    (fine : ∀ position ∈ flagPositions, ¬ IsOffending source position) :
    ∃ flags, flagsOf source = .ok flags := by
  obtain ⟨values, reads⟩ := exists_mapM_eq_ok (judges_flagAt source) fine
  rw [← map_flagValues_flagsOf] at reads
  obtain ⟨flags, flagged, -⟩ := Run.exists_ok_of_map reads
  exact ⟨flags, flagged⟩

/-- The attributes fail with the first of their lines that offends. -/
theorem attributesOf_eq_error
    {source : List Text}
    {position : Nat}
    {text : Text}
    {reason : HeaderFault}
    (isAttribute : position ∈ attributePositions)
    (earlier :
      ∀ other ∈ attributePositions, other < position → ¬ IsOffending source other)
    (offends : Offends source position text reason) :
    attributesOf source = .error (malformed position text reason) := by
  have fails :=
    mapM_eq_error (judges_attributeAt source) (by decide) isAttribute earlier offends
  rw [attributesOf, fails]
  rfl

/-- A line is found if the source has it, and it is stripped. -/
theorem lineAt_eq_ok_iff
    {source : List Text}
    {position : Nat}
    {text : Text} :
    lineAt source position = .ok text ↔
      ∃ line, source[position]? = some line ∧ strip line = text := by
  cases isLine : source[position]? <;>
    simp [lineAt, isLine]

/-- Attributes that are all there are taken if the first of them is the name. -/
theorem attributesOf_of_fine
    {source : List Text}
    (fine : ∀ position ∈ attributePositions, ¬ IsOffending source position) :
    ∃ line first,
      source[firstAttribute]? = some line ∧
        Attribute.readNode? (strip line) (firstAttribute + 1) = some first ∧
          if first.name = Node.nameAttribute then
            ∃ attributes, attributesOf source = .ok attributes
          else
            attributesOf source =
              .error (malformed firstAttribute (strip line) .nameNotFirst) := by
  obtain ⟨attributes, reads⟩ := exists_mapM_eq_ok (judges_attributeAt source) fine
  have parts := reads
  rw [attributePositions_eq, attributesAt_cons_iff] at parts
  obtain ⟨first, others, readsFirst, -, rfl⟩ := parts
  obtain ⟨text, stands, readsNode⟩ := attributeAt_eq_ok_iff.mp readsFirst
  obtain ⟨line, isLine, rfl⟩ := lineAt_eq_ok_iff.mp stands
  refine ⟨line, first, isLine, readsNode, ?_⟩
  split
  · next named =>
      exact ⟨_, attributesOf_of_reads reads named⟩
  · next noName =>
      simp [attributesOf, reads, noName, stands, bind, Except.bind]

section

variable
  {source : List Text}
  (opens : lineAt source 0 = .ok classMarker)

include opens

/-- Behind the class marker the flags are read, and then the attributes. -/
theorem result_read_of_classMarker :
    (read source).result =
      flagsOf source >>= fun flags =>
        attributesOf source >>= fun attributes =>
          .ok ⟨some flags, attributes, classLength⟩ := by
  rw [read, opens, Run.ofExcept_ok_bind, if_pos rfl, ofClass, Run.result_bind]
  refine congrArg (flagsOf source >>= ·) (funext fun flags => ?_)
  rw [Run.result_report_bind, Run.result_bind]
  rfl

/-- A class header fails with the fault that is reported for it. -/
theorem read_eq_error_of_isReported
    {fault : Fault}
    (isReported : IsReported source fault) :
    (read source).result = .error fault := by
  rw [result_read_of_classMarker opens]
  cases isReported with
  | @offending position text reason isChecked earlier offends =>
      rcases mem_checkedPositions.mp isChecked with isFlag | isAttribute
      · rw [flagsOf_eq_error isFlag
          (fun other isOther => earlier other (mem_checkedPositions.mpr (.inl isOther))) offends]
        rfl
      · obtain ⟨flags, flagged⟩ :=
          exists_flagsOf_eq_ok fun other isOther =>
            earlier other (mem_checkedPositions.mpr (.inl isOther))
              (flagPosition_lt_attributePosition other isOther position isAttribute)
        rw [flagged, attributesOf_eq_error isAttribute
          (fun other isOther => earlier other (mem_checkedPositions.mpr (.inr isOther))) offends]
        rfl
  | @unnamed line first fine isLine reads noName =>
      obtain ⟨flags, flagged⟩ :=
        exists_flagsOf_eq_ok fun other isOther =>
          fine other (mem_checkedPositions.mpr (.inl isOther))
      obtain ⟨line', first', isLine', reads', attributes⟩ :=
        attributesOf_of_fine fun other isOther =>
          fine other (mem_checkedPositions.mpr (.inr isOther))
      cases isLine.symm.trans isLine'
      cases reads.symm.trans reads'
      rw [if_neg noName] at attributes
      rw [flagged, attributes]
      rfl

/-- A class header for which no fault is reported is read. -/
theorem exists_read_of_not_isReported
    (fine : ∀ fault, ¬ IsReported source fault) :
    ∃ header, (read source).result = .ok header := by
  -- By strong induction: the least position that offends would be reported.
  have noOffender :
      ∀ position, position ∈ checkedPositions → ¬ IsOffending source position := by
    intro position
    induction position using Nat.strong_induction_on with
    | h position earlier =>
        rintro isChecked ⟨text, reason, offends⟩
        exact
          fine _
            (.offending isChecked
              (fun other isOther before => earlier other before isOther) offends)
  obtain ⟨flags, flagged⟩ :=
    exists_flagsOf_eq_ok fun other isFlag =>
      noOffender other (mem_checkedPositions.mpr (.inl isFlag))
  obtain ⟨line, first, isLine, reads, attributes⟩ :=
    attributesOf_of_fine fun other isAttribute =>
      noOffender other (mem_checkedPositions.mpr (.inr isAttribute))
  split at attributes
  · obtain ⟨nodes, attributes⟩ := attributes
    rw [result_read_of_classMarker opens, flagged, attributes]
    exact ⟨_, rfl⟩
  · next noName =>
      exact (fine _ (.unnamed noOffender isLine reads noName)).elim

/-- A class header fails with the fault that is reported for it, and only so. -/
theorem read_eq_error_iff_isReported
    {fault : Fault} :
    (read source).result = .error fault ↔ IsReported source fault := by
  refine ⟨fun fails => ?_, read_eq_error_of_isReported opens⟩
  by_cases reported : ∃ other, IsReported source other
  · obtain ⟨other, isReported⟩ := reported
    have failsOther := read_eq_error_of_isReported opens isReported
    cases fails.symm.trans failsOther
    exact isReported
  · obtain ⟨header, reads⟩ :=
      exists_read_of_not_isReported opens (not_exists.mp reported)
    cases fails.symm.trans reads

/-- A class header that is read has a name. -/
theorem exists_name_of_read
    {header : Header}
    (reads : (read source).result = .ok header) :
    ∃ name, Module.name? header.attributes = some name := by
  cases isReadFrom_of_read reads with
  | ofClass _ _ stated =>
      obtain ⟨readsAll, -⟩ := mapM_of_attributesOf stated
      rw [attributePositions_eq] at readsAll
      obtain ⟨first, others, -, -, rfl⟩ := attributesAt_cons_iff.mp readsAll
      obtain ⟨readsFirst, -, named⟩ := attributesOf_cons_iff.mp stated
      obtain ⟨-, text, stated, -, rfl⟩ := exists_stated_of_attributeAt readsFirst
      exact ⟨_, Module.name?_of_first named _ others⟩
  | ofPlain first noClass _ =>
      cases opens.symm.trans first
      exact (noClass rfl).elim

end

end Header

/-! ## Modules -/

namespace Module

/-- A module with a faulty header is not parsed, whatever the patience. -/
theorem parse_of_header_fault
    {source : List Text}
    {fault : Fault}
    (fails : (Header.read source).result = .error fault)
    (file : Text)
    (patience : Option Nat) :
    (parse file source patience).result = .error (.inFile file fault) := by
  simp only [parse, Run.observe_of_no_looks (looks_read_of_fault file fails),
    Run.observe_none, result_read_of_fault file fails, Except.mapError]

/-- A malformed class header is reported at its first offending line.  Whatever is
cancelled, a source that opens with the class marker fails with the fault that is
reported for its header, with no other fault of a header, and never for want of a
name. -/
theorem parse_of_classMarker
    {source : List Text}
    (opens : source.head?.map Header.strip = some Header.classMarker)
    (file : Text)
    (patience : Option Nat) :
    (∀ fault,
        Header.IsReported source fault →
          (parse file source patience).result = .error (.inFile file fault)) ∧
      ∀ failure,
        (parse file source patience).result = .error failure →
          (Header.IsMalformed failure.fault →
              Header.IsReported source failure.fault) ∧
            failure.fault ≠ .missingModuleName := by
  obtain ⟨first, isFirst, marks⟩ := Option.map_eq_some_iff.mp opens
  have marked : Header.lineAt source 0 = .ok Header.classMarker :=
    Header.lineAt_eq_ok_iff.mpr ⟨first, List.head?_eq_getElem? ▸ isFirst, marks⟩
  constructor
  · intro fault isReported
    exact
      parse_of_header_fault (Header.read_eq_error_of_isReported marked isReported) file
        patience
  · intro failure fails
    have stops := stopsBy_of_parse fails
    generalize failure.fault = fault at stops
    cases stops with
    | cancelled line =>
        simp [Header.IsMalformed]
    | header failsHeader =>
        refine ⟨fun _ => (Header.read_eq_error_iff_isReported marked).mp failsHeader, ?_⟩
        rintro rfl
        obtain ⟨line, text, reason, same⟩ := Header.failsMalformed_read source _ failsHeader
        cases same
    | unterminated _ _ _ =>
        simp [Header.IsMalformed]
    | unnamed readsHeader noName =>
        obtain ⟨name, named⟩ := Header.exists_name_of_read marked readsHeader
        cases noName.symm.trans named

/-- The third flag is no decimal number and all lines behind it are missing, but the
second flag, which is out of range, comes first. -/
theorem parse_of_classMarker_outOfRange :
    let source : List Text :=
      ["\ufeff VERSION 1.0 CLASS", "BEGIN", "  MultiUse = -1  'True",
        "  Persistable = 2147483648  'NotPersistable", "  DataBindingBehavior = ٣"]
    let fault : Fault :=
      .malformedHeader 4 "Persistable = 2147483648  'NotPersistable" .noFlag
    source.head?.map Header.strip = some Header.classMarker ∧
      Header.IsReported source fault ∧
      (parse "A.cls" source (some 0)).result = .error ⟨"A.cls", fault⟩ ∧
      fault ≠ .missingModuleName := by
  intro source fault
  have opens : source.head?.map Header.strip = some Header.classMarker := by
    decide +kernel
  have fine : ¬ Header.IsOffending source 2 := by
    rintro ⟨text, reason, offends⟩
    cases offends with
    | missing isMissing =>
        cases isMissing
    | noFlag _ isLine isMalformed =>
        cases isLine
        exact absurd isMalformed (by decide +kernel)
    | noAttribute isAttribute =>
        exact absurd isAttribute (by decide)
  have text :
      Header.strip "  Persistable = 2147483648  'NotPersistable" =
        "Persistable = 2147483648  'NotPersistable" := by
    decide +kernel
  have offends :
      Header.Offends source 3 "Persistable = 2147483648  'NotPersistable" .noFlag := by
    rw [← text]
    exact .noFlag (by decide) rfl (by decide +kernel)
  have isFirst : ∀ other ∈ Header.checkedPositions, other < 3 → other = 2 := by
    decide
  have reported : Header.IsReported source fault :=
    .offending (by decide)
      (fun other isOther before => isFirst other isOther before ▸ fine) offends
  obtain ⟨fails, others⟩ := parse_of_classMarker opens "A.cls" (some 0)
  have failsHere := fails fault reported
  exact ⟨opens, reported, failsHere, (others _ failsHere).2⟩

end Module

end ClassicBasic
