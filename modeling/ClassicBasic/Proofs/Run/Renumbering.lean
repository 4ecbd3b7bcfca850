import ClassicBasic.Proofs.Run

namespace ClassicBasic

/-!
# Renumbering runs

A run with other line numbers reports the same events, looks at the same places
and stops for the same reason.  The lines of a header are at fixed places, so a
fault of the header keeps its line.
-/

/-- An event at another line. -/
def Event.renumber (f : Nat → Nat) : Event → Event
  | .readingStarts file lines => .readingStarts file lines
  | .classHeader flags => .classHeader flags
  | .nothingDeclared line instruction => .nothingDeclared (f line) instruction
  | .fieldSkipped line code => .fieldSkipped (f line) code
  | .enumMemberSkipped line code => .enumMemberSkipped (f line) code
  | .valueNotLiteral line value => .valueNotLiteral (f line) value
  | .declarationsEnd line => .declarationsEnd (f line)
  | .parameterSkipped line segment => .parameterSkipped (f line) segment
  | .memberOpens line member => .memberOpens (f line) member
  | .lineOutsideMembers line text => .lineOutsideMembers (f line) text
  | .loopsOverclosed line => .loopsOverclosed (f line)
  | .readingEnds module declarations members =>
      .readingEnds module declarations members

/-- A fault at another line. -/
def Fault.renumber (f : Nat → Nat) : Fault → Fault
  | .malformedHeader line text reason => .malformedHeader line text reason
  | .unterminatedBlock terminator openedAt =>
      .unterminatedBlock terminator (f openedAt)
  | .missingModuleName => .missingModuleName
  | .cancelled line => .cancelled (f line)

/-- A fault in a file, at another line. -/
def FileFault.renumber
    (f : Nat → Nat)
    (located : FileFault) :
    FileFault :=
  { located with fault := located.fault.renumber f }

/-- A step at another line. -/
def Step.renumber (f : Nat → Nat) : Step → Step
  | .report event => .report (event.renumber f)
  | .look line => .look (f line)

namespace Run

/-- A run with other line numbers, given what becomes of its value. -/
def renumber
    (f : Nat → Nat)
    (view : α → β)
    (run : Run α) :
    Run β :=
  ⟨run.steps.map (Step.renumber f),
    (run.result.map view).mapError (Fault.renumber f)⟩

section

variable
  {f : Nat → Nat}
  {view : α → β}

/-- A value without a step is only seen in another way. -/
@[simp] theorem renumber_pure
    (value : α) :
    (pure value : Run α).renumber f view = pure (view value) :=
  rfl

/-- A result without a step takes its fault to the other line. -/
@[simp] theorem renumber_ofExcept
    (result : Except Fault α) :
    (ofExcept result).renumber f view =
      ofExcept ((result.map view).mapError (Fault.renumber f)) :=
  rfl

/-- A composed run is renumbered by renumbering both of its parts. -/
theorem bind_renumber
    {run : Run α}
    {moved : Run β}
    {next : α → Run γ}
    {later : β → Run δ}
    {last : γ → δ}
    (first : moved = run.renumber f view)
    (agrees :
      ∀ value,
        run.result = .ok value →
          later (view value) = (next value).renumber f last) :
    moved >>= later = (run >>= next).renumber f last := by
  subst first
  rcases run with ⟨steps, result⟩
  cases result with
  | error fault =>
      rfl
  | ok value =>
      change (⟨steps.map (Step.renumber f) ++ _, _⟩ : Run δ) = _
      rw [agrees value rfl]
      simp [bind, andThen, renumber]

/-- A report goes to the other line, and so does what follows. -/
theorem renumber_report_bind
    (event : Event)
    (next : Unit → Run α) :
    (report event >>= next).renumber f view =
      report (event.renumber f) >>= fun done => (next done).renumber f view :=
  rfl

/-- Several reports go to other lines, and so does what follows. -/
theorem renumber_reportAll_bind
    (events : List Event)
    (next : Unit → Run α) :
    (reportAll events >>= next).renumber f view =
      reportAll (events.map (Event.renumber f)) >>= fun done =>
        (next done).renumber f view := by
  simp [bind, andThen, reportAll, renumber, Function.comp_def, Step.renumber]

/-- A look goes to the other line, and so does what follows. -/
theorem renumber_look_bind
    (line : Nat)
    (next : Unit → Run α) :
    (look line >>= next).renumber f view =
      look (f line) >>= fun done => (next done).renumber f view :=
  rfl

end

/-- What a run that opens with an event comes to does not depend on the event. -/
theorem snd_observe_report_bind
    (event : Event)
    (next : Unit → Run α)
    (patience : Option Nat) :
    ((report event >>= next).observe patience).2 =
      ((next ()).observe (patience.map (· - 1))).2 := by
  have steps :
      (report event >>= next).steps = .report event :: (next ()).steps := by
    rfl
  simp only [observe, steps, result_report_bind, cut]
  rcases cut (patience.map (· - 1)) (next ()).steps with ⟨log, stop⟩
  cases stop <;>
    rfl

/-- A renumbered run is cut behind the same event. -/
theorem cut_renumber
    (f : Nat → Nat)
    (patience : Option Nat)
    (steps : List Step) :
    cut patience (steps.map (Step.renumber f)) =
      ((cut patience steps).1.map (Event.renumber f),
        (cut patience steps).2.map f) := by
  induction steps generalizing patience with
  | nil =>
      rfl
  | cons step rest inductionHypothesis =>
      cases step with
      | report event =>
          simp only [List.map_cons, Step.renumber, cut, inductionHypothesis]
      | look line =>
          simp only [List.map_cons, Step.renumber, cut, inductionHypothesis]
          split <;>
            rfl

/-- What is seen of a renumbered run is what is seen of the run, renumbered. -/
theorem observe_renumber
    (f : Nat → Nat)
    (view : α → β)
    (patience : Option Nat)
    (run : Run α) :
    (run.renumber f view).observe patience =
      ((run.observe patience).1.map (Event.renumber f),
        ((run.observe patience).2.map view).mapError (Fault.renumber f)) := by
  simp only [observe, renumber, cut_renumber]
  rcases cut patience run.steps with ⟨log, stop⟩
  cases stop <;>
    rfl

end Run

end ClassicBasic
