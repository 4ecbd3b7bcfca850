import ClassicBasic.Header
import ClassicBasic.Proofs.Run.Cut
import ClassicBasic.Reading

namespace ClassicBasic

/-!
# Quiet readings

Most of what a reading reports is a detail of the line that is read.  Where no
member is opened and the declarations do not end, nothing else is reported, and
the reading does not look whether it was cancelled.
-/

/-! ## Runs -/

/-- Whether an event tells how far a module has been read: its start and its end,
the end of its declarations, and its members. -/
def Event.isMilestone : Event → Bool
  | .readingStarts .. | .declarationsEnd .. | .memberOpens .. | .readingEnds .. =>
      true
  | _ => false

namespace Run

/-- The milestones among the events of a run. -/
def milestones (run : Run α) : List Event :=
  run.events.filter Event.isMilestone

/-- A run reports details only, and it looks nowhere. -/
def IsQuiet (run : Run α) : Prop :=
  ∀ step ∈ run.steps, ∃ event : Event, step = .report event ∧ event.isMilestone = false

namespace IsQuiet

/-- A value without a step is quiet. -/
theorem done
    (value : α) :
    (pure value : Run α).IsQuiet := by
  intro step isStep
  cases isStep

/-- A result without a step is quiet. -/
theorem ofExcept
    (result : Except Fault α) :
    (Run.ofExcept result).IsQuiet := by
  intro step isStep
  cases isStep

/-- Reports of details are quiet. -/
theorem reportAll
    {events : List Event}
    (details : ∀ event ∈ events, event.isMilestone = false) :
    (Run.reportAll events).IsQuiet := by
  intro step isStep
  obtain ⟨event, isEvent, rfl⟩ := List.mem_map.mp isStep
  exact ⟨event, rfl, details event isEvent⟩

/-- A report of a detail is quiet. -/
theorem report
    {event : Event}
    (detail : event.isMilestone = false) :
    (Run.report event).IsQuiet := by
  intro step isStep
  exact ⟨event, List.mem_singleton.mp isStep, detail⟩

/-- Quiet runs one after the other are quiet. -/
theorem bind
    {run : Run α}
    {next : α → Run β}
    (first : run.IsQuiet)
    (later : ∀ value, (next value).IsQuiet) :
    (run >>= next).IsQuiet := by
  rcases run with ⟨steps, fault | value⟩
  · exact first
  · intro step isStep
    rcases List.mem_append.mp isStep with isFirst | isLater
    · exact first step isFirst
    · exact later value step isLater

/-- A quiet run looks nowhere. -/
theorem looks_eq
    {run : Run α}
    (quiet : run.IsQuiet) :
    run.looks = [] := by
  apply List.filterMap_eq_nil_iff.mpr
  intro step isStep
  obtain ⟨event, rfl, -⟩ := quiet step isStep
  rfl

/-- A quiet run passes no milestone. -/
theorem milestones_eq
    {run : Run α}
    (quiet : run.IsQuiet) :
    run.milestones = [] := by
  apply List.filter_eq_nil_iff.mpr
  intro event isEvent
  obtain ⟨step, isStep, reports⟩ := List.mem_filterMap.mp isEvent
  obtain ⟨other, rfl, detail⟩ := quiet step isStep
  cases reports
  rw [detail]
  exact Bool.false_ne_true

end IsQuiet

end Run

/-! ## Headers -/

/-- A header is read quietly. -/
theorem Header.isQuiet_read
    (source : List Text) :
    (Header.read source).IsQuiet := by
  refine (Run.IsQuiet.ofExcept _).bind fun first => ?_
  split
  · refine (Run.IsQuiet.ofExcept _).bind fun flags => ?_
    refine (Run.IsQuiet.report rfl).bind fun _ => ?_
    exact (Run.IsQuiet.ofExcept _).bind fun attributes => .done _
  · exact (Run.IsQuiet.ofExcept _).bind fun stated => .done _

/-! ## Lines -/

/-- Parameters are skipped quietly. -/
theorem isQuiet_parametersSkipped
    (line : Nat)
    (segments : List Text) :
    (Run.reportAll (segments.map (Event.parameterSkipped line))).IsQuiet := by
  apply Run.IsQuiet.reportAll
  intro event isEvent
  obtain ⟨segment, -, rfl⟩ := List.mem_map.mp isEvent
  rfl

/-- The instructions of a declaration line are read quietly. -/
theorem DeclarationLine.isQuiet_readOn
    (line : DeclarationLine)
    (texts : List Text) :
    (line.readOn texts).IsQuiet := by
  induction texts generalizing line with
  | nil =>
      exact .done _
  | cons text rest inductionHypothesis =>
      unfold DeclarationLine.readOn
      split
      · exact .done _
      · split
        · exact (Run.IsQuiet.report rfl).bind fun _ => inductionHypothesis line
        · exact inductionHypothesis _
        · exact (isQuiet_parametersSkipped _ _).bind fun _ => inductionHypothesis _
        · exact inductionHypothesis _
        · exact .done _

/-- What a block reports are details. -/
theorem OpenBlock.isMilestone_of_mem_reports
    {kind : BlockKind}
    {line : Line}
    {event : Event}
    (isReport : event ∈ OpenBlock.reports kind line) :
    event.isMilestone = false := by
  unfold OpenBlock.reports at isReport
  split at isReport
  · cases isReport
  · split at isReport
    · split at isReport
      · cases isReport
      · rw [List.mem_singleton.mp isReport]
        rfl
    · split at isReport
      · rw [List.mem_singleton.mp isReport]
        rfl
      · cases isReport
      · split at isReport
        · cases isReport
        · rw [List.mem_singleton.mp isReport]
          rfl

/-- What is reported when regions close are details. -/
theorem OpenBody.isMilestone_of_mem_settle
    {items : List Node}
    {surplus : Nat}
    {node : Node}
    {regions : List OpenRegion}
    {event : Event}
    (isReport : event ∈ (settle items surplus node regions).2) :
    event.isMilestone = false := by
  induction regions generalizing surplus node with
  | nil =>
      simp only [settle] at isReport
      split at isReport
      · rw [List.mem_singleton.mp isReport]
        rfl
      · cases isReport
  | cons region outer inductionHypothesis =>
      unfold settle at isReport
      split at isReport
      · exact inductionHypothesis isReport
      · cases isReport

/-- What a body reports are details. -/
theorem OpenBody.isMilestone_of_mem_readLine
    {body : OpenBody}
    {line : Line}
    {event : Event}
    (isReport : event ∈ (body.readLine line).2) :
    event.isMilestone = false := by
  have item : event ∈ (body.readItem line).2 → event.isMilestone = false := by
    intro isItem
    unfold readItem at isItem
    split at isItem
    · cases isItem
    · exact isMilestone_of_mem_settle isItem
  unfold readLine at isReport
  split at isReport
  · exact item isReport
  · split at isReport
    · exact isMilestone_of_mem_settle isReport
    · exact item isReport

/-- A line inside a member is read quietly. -/
theorem OpenMember.isQuiet_readLine
    (member : OpenMember)
    (line : Line) :
    (member.readLine line).IsQuiet := by
  have body : (member.readBody line).IsQuiet :=
    (Run.IsQuiet.reportAll fun _ isReport =>
      OpenBody.isMilestone_of_mem_readLine isReport).bind fun _ => .done _
  unfold OpenMember.readLine
  split
  · split
    · exact .done _
    · split
      · exact .done _
      · exact body
  · exact body

namespace Reading

/-- A line among the declarations is read quietly. -/
theorem isQuiet_readDeclaration
    (reading : Reading)
    (line : Line) :
    (reading.readDeclaration line).IsQuiet := by
  unfold readDeclaration
  split
  · exact .done _
  · exact (DeclarationLine.isQuiet_readOn _ _).bind fun _ => .done _

/-- A line inside a block is read quietly. -/
theorem isQuiet_readBlock
    (reading : Reading)
    (opening : DeclarationLine)
    (block : OpenBlock)
    (waiting : List Text)
    (line : Line) :
    (reading.readBlock opening block waiting line).IsQuiet := by
  unfold readBlock
  split
  · exact (DeclarationLine.isQuiet_readOn _ _).bind fun _ => .done _
  · exact
      (Run.IsQuiet.reportAll fun _ isReport =>
        OpenBlock.isMilestone_of_mem_reports isReport).bind fun _ => .done _

/-- A line of an open member is read quietly, the last one included. -/
theorem isQuiet_readMember
    (reading : Reading)
    (member : OpenMember)
    (line : Line) :
    (reading.readMember member line).IsQuiet := by
  refine (member.isQuiet_readLine line).bind ?_
  rintro (longer | node) <;>
    exact .done _

end Reading

end ClassicBasic
