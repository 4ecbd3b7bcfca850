import ClassicBasic.Header
import ClassicBasic.Proofs.Run

namespace ClassicBasic.Header

/-!
# Headers

The header of a module is read from its own lines only: every attribute of it
stands at its place, and whatever stops the reading blames one of its lines.
Its first line tells which of two kinds of headers it is.
-/

/-! ## Faults -/

/-- Whether a fault blames a line of the header. -/
def IsMalformed (fault : Fault) : Prop :=
  ∃ line text reason, fault = .malformedHeader line text reason

/-- Whether a reading of the header fails with faults of the header only. -/
def FailsMalformed (result : Except Fault α) : Prop :=
  ∀ fault, result = .error fault → IsMalformed fault

/-- A success has no fault, and so none of another kind. -/
theorem failsMalformed_ok
    (value : α) :
    FailsMalformed (.ok value) := by
  intro fault fails
  cases fails

/-- A malformed line is a fault of the header. -/
theorem failsMalformed_malformed
    (position : Nat)
    (text : Text)
    (reason : HeaderFault) :
    FailsMalformed (α := α) (.error (malformed position text reason)) := by
  intro fault fails
  cases fails
  exact ⟨_, _, _, rfl⟩

/-- Steps that fail with faults of the header do so one after the other. -/
theorem FailsMalformed.bind
    {result : Except Fault α}
    {next : α → Except Fault β}
    (first : FailsMalformed result)
    (later : ∀ value, FailsMalformed (next value)) :
    FailsMalformed (result >>= next) := by
  cases result with
  | error fault =>
      intro other fails
      cases fails
      exact first fault rfl
  | ok value =>
      exact later value

/-- A missing line is a fault of the header. -/
theorem failsMalformed_lineAt
    (source : List Text)
    (position : Nat) :
    FailsMalformed (lineAt source position) := by
  unfold lineAt
  split
  · exact failsMalformed_ok _
  · exact failsMalformed_malformed _ _ _

/-- Reading a flag fails with faults of the header only. -/
theorem failsMalformed_flagAt
    (source : List Text)
    (position : Nat) :
    FailsMalformed (flagAt source position) := by
  refine (failsMalformed_lineAt source position).bind fun text => ?_
  split
  · exact failsMalformed_ok _
  · exact failsMalformed_malformed _ _ _

/-- Reading an attribute fails with faults of the header only. -/
theorem failsMalformed_attributeAt
    (source : List Text)
    (position : Nat) :
    FailsMalformed (attributeAt source position) := by
  refine (failsMalformed_lineAt source position).bind fun text => ?_
  split
  · exact failsMalformed_ok _
  · exact failsMalformed_malformed _ _ _

/-- Reading all flags fails with faults of the header only. -/
theorem failsMalformed_flagsOf
    (source : List Text) :
    FailsMalformed (flagsOf source) := by
  refine (failsMalformed_flagAt source _).bind fun multiUse => ?_
  refine (failsMalformed_flagAt source _).bind fun persistable => ?_
  refine (failsMalformed_flagAt source _).bind fun dataBindingBehavior => ?_
  refine (failsMalformed_flagAt source _).bind fun dataSourceBehavior => ?_
  refine (failsMalformed_flagAt source _).bind fun mtsTransactionMode => ?_
  exact failsMalformed_ok _

/-- Reading attributes line by line fails with faults of the header only. -/
theorem failsMalformed_attributesAt
    (source : List Text)
    (positions : List Nat) :
    FailsMalformed (positions.mapM (attributeAt source)) := by
  induction positions with
  | nil =>
      exact failsMalformed_ok []
  | cons position rest inductionHypothesis =>
      rw [List.mapM_cons]
      refine (failsMalformed_attributeAt source position).bind fun node => ?_
      exact inductionHypothesis.bind fun nodes => failsMalformed_ok _

/-- Reading all attributes of a class fails with faults of the header only. -/
theorem failsMalformed_attributesOf
    (source : List Text) :
    FailsMalformed (attributesOf source) := by
  refine (failsMalformed_attributesAt source _).bind fun attributes => ?_
  split
  · exact failsMalformed_ok _
  · refine (failsMalformed_lineAt source _).bind fun text => ?_
    exact failsMalformed_malformed _ _ _

/-- Nothing but its own lines can stop the reading of a header. -/
theorem failsMalformed_read
    (source : List Text) :
    FailsMalformed (Header.read source).result := by
  unfold Header.read
  rw [Run.result_bind]
  refine (failsMalformed_lineAt source 0).bind fun first => ?_
  split
  · unfold ofClass
    rw [Run.result_bind]
    refine (failsMalformed_flagsOf source).bind fun flags => ?_
    rw [Run.result_report_bind, Run.result_bind]
    exact (failsMalformed_attributesOf source).bind fun attributes =>
      failsMalformed_ok _
  · unfold ofPlain
    rw [Run.result_bind]
    exact (failsMalformed_attributeAt source 0).bind fun stated =>
      failsMalformed_ok _

/-! ## Attributes -/

/-- A composed result has a value exactly when both of its parts have one. -/
theorem bind_eq_ok_iff
    {result : Except Fault α}
    {next : α → Except Fault β}
    {value : β} :
    result >>= next = .ok value ↔
      ∃ middle, result = .ok middle ∧ next middle = .ok value := by
  cases result <;>
    simp [bind, Except.bind]

/-- An attribute is read from the line at its position. -/
theorem attributeAt_eq_ok_iff
    {source : List Text}
    {position : Nat}
    {node : Node} :
    attributeAt source position = .ok node ↔
      ∃ text,
        lineAt source position = .ok text ∧
          Attribute.readNode? text (position + 1) = some node := by
  rw [attributeAt, bind_eq_ok_iff]
  refine exists_congr fun text => and_congr_right fun _ => ?_
  cases Attribute.readNode? text (position + 1) <;>
    simp

/-- Attributes are read if the first and the others are. -/
theorem attributesAt_cons_iff
    {source : List Text}
    {position : Nat}
    {rest : List Nat}
    {attributes : List Node} :
    (position :: rest).mapM (attributeAt source) = .ok attributes ↔
      ∃ first others,
        attributeAt source position = .ok first ∧
          rest.mapM (attributeAt source) = .ok others ∧ attributes = first :: others := by
  rw [List.mapM_cons, bind_eq_ok_iff]
  refine exists_congr fun first => ?_
  rw [bind_eq_ok_iff, exists_and_left]
  refine and_congr_right fun _ => exists_congr fun others => and_congr_right fun _ => ?_
  exact ⟨fun same => (Except.ok.inj same).symm, fun same => congrArg _ same.symm⟩

/-- Attributes that are read one by one are as many as their positions, and
each stands at one of these. -/
theorem attributes_of_mapM
    {source : List Text}
    {positions : List Nat}
    {attributes : List Node}
    (read : positions.mapM (attributeAt source) = .ok attributes) :
    attributes.length = positions.length ∧
      ∀ node ∈ attributes,
        ∃ position ∈ positions, attributeAt source position = .ok node := by
  induction positions generalizing attributes with
  | nil =>
      cases read
      exact ⟨rfl, by simp⟩
  | cons position rest inductionHypothesis =>
      obtain ⟨node, nodes, first, others, rfl⟩ := attributesAt_cons_iff.mp read
      obtain ⟨sameLength, isRead⟩ := inductionHypothesis others
      refine ⟨by simp [sameLength], ?_⟩
      intro other member
      rcases List.mem_cons.mp member with rfl | inRest
      · exact ⟨position, List.mem_cons_self, first⟩
      · obtain ⟨later, isLater, stated⟩ := isRead other inRest
        exact ⟨later, List.mem_cons_of_mem position isLater, stated⟩

/-- The attributes of a class module stand at their positions, and the first
of them names it. -/
theorem mapM_of_attributesOf
    {source : List Text}
    {attributes : List Node}
    (read : attributesOf source = .ok attributes) :
    attributePositions.mapM (attributeAt source) = .ok attributes ∧
      attributes.head?.map Node.name = some Node.nameAttribute := by
  unfold attributesOf at read
  cases stated : attributePositions.mapM (attributeAt source) with
  | error fault =>
      rw [stated] at read
      cases read
  | ok nodes =>
      simp only [stated, bind, Except.bind] at read
      split at read
      · next named =>
          cases read
          exact ⟨rfl, named⟩
      · split at read <;> cases read

/-! ## Kinds -/

/-- How a header comes from the lines of a source. -/
inductive IsReadFrom (source : List Text) : Header → Prop where
  | ofClass
      {flags : ClassFlags}
      {attributes : List Node}
      (first : lineAt source 0 = .ok classMarker)
      (flagged : flagsOf source = .ok flags)
      (stated : attributesOf source = .ok attributes) :
      IsReadFrom source ⟨some flags, attributes, classLength⟩
  | ofPlain
      {text : Text}
      {node : Node}
      (first : lineAt source 0 = .ok text)
      (noClass : text ≠ classMarker)
      (stated : attributeAt source 0 = .ok node) :
      IsReadFrom source ⟨none, [node], plainLength⟩

/-- A header that is read is read from its lines. -/
theorem isReadFrom_of_read
    {source : List Text}
    {header : Header}
    (reads : (read source).result = .ok header) :
    IsReadFrom source header := by
  obtain ⟨text, first, continues⟩ := Run.result_bind_eq_ok_iff.mp reads
  rw [Run.result_ofExcept] at first
  by_cases isClass : text = classMarker
  · rw [if_pos isClass] at continues
    subst text
    obtain ⟨flags, flagged, continues⟩ := Run.result_bind_eq_ok_iff.mp continues
    rw [Run.result_report_bind] at continues
    obtain ⟨attributes, stated, same⟩ := Run.result_bind_eq_ok_iff.mp continues
    cases same
    exact .ofClass first flagged stated
  · rw [if_neg isClass] at continues
    obtain ⟨node, stated, same⟩ := Run.result_bind_eq_ok_iff.mp continues
    cases same
    exact .ofPlain first isClass stated

/-- What the lines of a header say is read. -/
theorem read_of_isReadFrom
    {source : List Text}
    {header : Header}
    (isRead : IsReadFrom source header) :
    (read source).result = .ok header := by
  cases isRead with
  | ofClass first flagged stated =>
      simp [read, ofClass, first, flagged, stated]
  | ofPlain first noClass stated =>
      simp [read, ofPlain, first, noClass, stated]

/-! ## Lines -/

section

variable
  {source other : List Text}
  {position : Nat}

/-- A line that is found is one of the source. -/
theorem lt_length_of_lineAt
    {text : Text}
    (line : lineAt source position = .ok text) :
    position < source.length := by
  apply Nat.lt_of_not_le
  intro outside
  have nothing : source[position]? = none := List.getElem?_eq_none outside
  simp [lineAt, nothing] at line

/-- The attributes of a class stand among the lines of its header. -/
theorem attributePosition_lt :
    ∀ position ∈ attributePositions, position < classLength := by
  decide

/-- Attributes depend on their own lines only. -/
theorem attributesAt_congr
    {positions : List Nat}
    (same :
      ∀ position ∈ positions, lineAt source position = lineAt other position) :
    positions.mapM (attributeAt source) = positions.mapM (attributeAt other) := by
  induction positions with
  | nil =>
      rfl
  | cons position rest inductionHypothesis =>
      obtain ⟨sameFirst, sameRest⟩ := List.forall_mem_cons.mp same
      simp only [List.mapM_cons, attributeAt, sameFirst,
        inductionHypothesis sameRest]

/-- Flags depend on their own lines only. -/
theorem flagsOf_congr
    (same :
      ∀ position ∈ flagPositions, lineAt source position = lineAt other position) :
    flagsOf source = flagsOf other := by
  have sameFlag :
      ∀ position ∈ flagPositions, flagAt source position = flagAt other position := by
    intro position isPosition
    simp only [flagAt, same position isPosition]
  simp only [flagsOf, sameFlag firstFlag (by decide),
    sameFlag (firstFlag + 1) (by decide), sameFlag (firstFlag + 2) (by decide),
    sameFlag (firstFlag + 3) (by decide), sameFlag (firstFlag + 4) (by decide)]

/-- The flags of a class stand among the lines of its header. -/
theorem flagPosition_lt :
    ∀ position ∈ flagPositions, position < classLength := by
  decide

/-- A header looks at its own lines only. -/
theorem ofClass_congr
    (same :
      ∀ position < classLength, lineAt source position = lineAt other position) :
    ofClass source = ofClass other := by
  have sameFlags : flagsOf source = flagsOf other :=
    flagsOf_congr fun position isPosition =>
      same position (flagPosition_lt position isPosition)
  have sameAttributes : attributesOf source = attributesOf other := by
    simp only [attributesOf, same firstAttribute (by decide)]
    rw [attributesAt_congr fun position isPosition =>
      same position (attributePosition_lt position isPosition)]
  rw [ofClass, ofClass, sameFlags, sameAttributes]

/-- The header of a module that is no class depends on the first line only. -/
theorem ofPlain_congr
    (same : lineAt source 0 = lineAt other 0) :
    ofPlain source = ofPlain other := by
  simp only [ofPlain, attributeAt, same]

/-- Where attributes are read one by one, there is one at each position. -/
theorem exists_attributeAt_of_mapM
    {positions : List Nat}
    {attributes : List Node}
    (read : positions.mapM (attributeAt source) = .ok attributes)
    (isPosition : position ∈ positions) :
    ∃ node, attributeAt source position = .ok node := by
  induction positions generalizing attributes with
  | nil =>
      cases isPosition
  | cons first rest inductionHypothesis =>
      obtain ⟨node, others, isFirst, readRest, -⟩ := attributesAt_cons_iff.mp read
      rcases List.mem_cons.mp isPosition with rfl | isLater
      · exact ⟨node, isFirst⟩
      · exact inductionHypothesis readRest isLater

/-- The lines of a header that has been read are there. -/
theorem length_le_of_read
    {header : Header}
    (reads : (read source).result = .ok header) :
    header.length ≤ source.length := by
  cases isReadFrom_of_read reads with
  | ofClass first flagged stated =>
      have isLast : classLength - 1 ∈ attributePositions := by
        decide
      obtain ⟨node, readsLast⟩ :=
        exists_attributeAt_of_mapM (mapM_of_attributesOf stated).1 isLast
      obtain ⟨text, line, -⟩ := attributeAt_eq_ok_iff.mp readsLast
      exact lt_length_of_lineAt line
  | ofPlain first noClass stated =>
      exact lt_length_of_lineAt first

/-- Lines behind a header do not change it. -/
theorem read_append
    {header : Header}
    (reads : (read source).result = .ok header)
    (more : List Text) :
    (read (source ++ more)).result = .ok header := by
  have same :
      ∀ position < header.length,
        lineAt source position = lineAt (source ++ more) position := by
    intro position inHeader
    have inside := Nat.lt_of_lt_of_le inHeader (length_le_of_read reads)
    simp only [lineAt, List.getElem?_append_left inside]
  cases isReadFrom_of_read reads with
  | ofClass first flagged stated =>
      have sameFirst := same 0 (Nat.succ_pos 12)
      rw [first] at sameFirst
      rw [← reads]
      simp only [read, first, ← sameFirst, Run.ofExcept_ok_bind, if_true,
        ofClass_congr same]
  | ofPlain first noClass stated =>
      have sameFirst := same 0 Nat.zero_lt_one
      have sameHeader := ofPlain_congr sameFirst
      rw [first] at sameFirst
      rw [← reads]
      simp only [read, first, ← sameFirst, Run.ofExcept_ok_bind, if_neg noClass,
        sameHeader]

end

end ClassicBasic.Header
