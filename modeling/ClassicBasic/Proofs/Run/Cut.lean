import ClassicBasic.Proofs.Run

namespace ClassicBasic

/-!
# Cutting a run

A run that is cancelled is cut at the first of its looks behind the moment of
cancellation.  So all that cancelling can do to a run follows from its events
and from the places where it looks.
-/

namespace Step

/-- The event that a step reports. -/
def event? : Step → Option Event
  | .report event => some event
  | .look _ => none

/-- The line that a step looks at. -/
def look? : Step → Option Nat
  | .report _ => none
  | .look line => some line

end Step

namespace Run

/-- All events of a run. -/
def events (run : Run α) : List Event :=
  run.steps.filterMap Step.event?

/-- The lines at which a run looks whether it was cancelled, in order. -/
def looks (run : Run α) : List Nat :=
  run.steps.filterMap Step.look?

/-- With unlimited patience nothing is cut off. -/
theorem cut_none
    (steps : List Step) :
    cut none steps = (steps.filterMap Step.event?, none) := by
  induction steps with
  | nil =>
      rfl
  | cons step rest inductionHypothesis =>
      cases step with
      | report event =>
          simp [cut, inductionHypothesis, Step.event?]
      | look line =>
          simp [cut, inductionHypothesis, List.filterMap_cons, Step.event?]

/-- A cut keeps all events, or it stops at a look and keeps a beginning of the
events, which holds those before the moment of cancellation. -/
theorem cut_some
    (patience : Nat)
    (steps : List Step) :
    cut (some patience) steps = (steps.filterMap Step.event?, none) ∨
      ∃ log line,
        cut (some patience) steps = (log, some line) ∧
          line ∈ steps.filterMap Step.look? ∧
          log <+: steps.filterMap Step.event? ∧
          patience ≤ log.length := by
  -- A report uses up patience and a look does not, so the induction runs over any
  -- patience.
  induction steps generalizing patience with
  | nil =>
      exact .inl rfl
  | cons step rest inductionHypothesis =>
      cases step with
      | report event =>
          rcases inductionHypothesis (patience - 1) with
            whole | ⟨log, line, stops, isLook, isBeginning, enough⟩
          · left
            simp [cut, whole, Step.event?]
          · right
            refine ⟨event :: log, line, ?_, ?_, ?_, ?_⟩
            · simp [cut, stops]
            · simpa [List.filterMap_cons, Step.look?] using isLook
            · simpa [List.filterMap_cons, Step.event?] using isBeginning
            · simp only [List.length_cons]
              omega
      | look line =>
          cases patience with
          | zero =>
              right
              exact
                ⟨[], line, by simp [cut], by simp [Step.look?],
                  List.nil_prefix, Nat.le_refl 0⟩
          | succ patience =>
              rcases inductionHypothesis (patience + 1) with
                whole | ⟨log, later, stops, isLook, isBeginning, enough⟩
              · left
                simpa [cut, List.filterMap_cons, Step.event?] using whole
              · right
                refine ⟨log, later, ?_, ?_, ?_, enough⟩
                · simpa [cut] using stops
                · simp only [List.filterMap_cons, Step.look?]
                  exact List.mem_cons_of_mem line isLook
                · simpa [List.filterMap_cons, Step.event?] using isBeginning

/-- Steps in a row are cut among the first of them, or else among the others
with what is left of the patience. -/
theorem cut_append
    (patience : Option Nat)
    (steps later : List Step) :
    cut patience (steps ++ later) =
      match cut patience steps with
      | (log, some line) => (log, some line)
      | (log, none) =>
          (log ++ (cut (remaining patience log) later).1,
            (cut (remaining patience log) later).2) := by
  induction steps generalizing patience with
  | nil =>
      simp [cut, remaining]
  | cons step rest inductionHypothesis =>
      cases step with
      | report event =>
          simp only [List.cons_append, cut, inductionHypothesis]
          rcases cut (patience.map (· - 1)) rest with ⟨log, _ | line⟩
          · have left :
                remaining (patience.map (· - 1)) log =
                  remaining patience (event :: log) := by
              cases patience <;>
                simp [remaining, Nat.sub_sub, Nat.add_comm]
            simp only [left, List.cons_append]
          · rfl
      | look line =>
          by_cases stops : patience = some 0
          · simp [cut, stops]
          · simp only [List.cons_append, cut, if_neg stops, inductionHypothesis]

/-- A run that is cancelled from the start stops at its first look. -/
theorem snd_cut_zero
    (steps : List Step) :
    (cut (some 0) steps).2 = (steps.filterMap Step.look?).head? := by
  induction steps with
  | nil =>
      rfl
  | cons step rest inductionHypothesis =>
      cases step with
      | report event =>
          simpa [cut, List.filterMap_cons, Step.look?] using inductionHypothesis
      | look line =>
          simp [cut, Step.look?]

/-- With unlimited patience all of a run is seen. -/
theorem observe_none
    (run : Run α) :
    run.observe none = (run.events, run.result) := by
  simp only [observe, cut_none, events]

/-- A value without a step is seen at once. -/
theorem observe_pure
    (patience : Option Nat)
    (value : α) :
    (pure value : Run α).observe patience = ([], .ok value) :=
  rfl

/-- What is seen of a composed run is what is seen of its first part and, behind
a value, what is seen of the second part. -/
theorem observe_bind
    (patience : Option Nat)
    (run : Run α)
    (next : α → Run β) :
    (run >>= next).observe patience =
      match run.observe patience with
      | (log, .error fault) => (log, .error fault)
      | (log, .ok value) =>
          (log ++ ((next value).observe (remaining patience log)).1,
            ((next value).observe (remaining patience log)).2) := by
  rcases run with ⟨steps, fault | value⟩
  · simp only [bind, andThen, observe]
    rcases cut patience steps with ⟨log, _ | line⟩ <;>
      rfl
  · simp only [bind, andThen, observe, cut_append]
    rcases cut patience steps with ⟨log, _ | line⟩
    · dsimp only
      rcases cut (remaining patience log) (next value).steps with ⟨later, _ | line⟩ <;>
        rfl
    · rfl

/-- What is seen of a cancelled run is all of it, or a beginning that stops at
one of its looks. -/
theorem observe_some
    (patience : Nat)
    (run : Run α) :
    run.observe (some patience) = run.observe none ∨
      ∃ log line,
        run.observe (some patience) = (log, .error (.cancelled line)) ∧
          line ∈ run.looks ∧ log <+: run.events ∧ patience ≤ log.length := by
  rcases cut_some patience run.steps with
    whole | ⟨log, line, stops, isLook, isBeginning, enough⟩
  · left
    simp only [observe, whole, cut_none]
  · right
    refine ⟨log, line, ?_, isLook, isBeginning, enough⟩
    simp only [observe, stops]

/-- Without patience a run is cancelled at the first line where it looks. -/
theorem observe_zero_of_looks
    {run : Run α}
    {line : Nat}
    {rest : List Nat}
    (looksFirst : run.looks = line :: rest) :
    (run.observe (some 0)).2 = .error (.cancelled line) := by
  have stops := snd_cut_zero run.steps
  rw [show run.steps.filterMap Step.look? = line :: rest from looksFirst,
    List.head?_cons] at stops
  rcases cutting : cut (some 0) run.steps with ⟨log, stop⟩
  rw [cutting] at stops
  cases stops
  simp only [observe, cutting]

/-- Without any look, cancelling shows nothing else. -/
theorem observe_of_no_looks
    {run : Run α}
    (noLooks : run.looks = [])
    (patience : Option Nat) :
    run.observe patience = run.observe none := by
  cases patience with
  | none =>
      rfl
  | some patience =>
      rcases observe_some patience run with same | ⟨log, line, -, isLook, -, -⟩
      · exact same
      · rw [noLooks] at isLook
        simp at isLook

/-- Without any look a run that is cancelled at once shows all the same. -/
theorem observe_zero_of_no_looks
    {run : Run α}
    (noLooks : run.looks = []) :
    run.observe (some 0) = run.observe none :=
  observe_of_no_looks noLooks (some 0)

/-- A value without a step has no look. -/
@[simp] theorem looks_pure
    (value : α) :
    (pure value : Run α).looks = [] :=
  rfl

/-- Reports are no looks. -/
theorem looks_reportAll
    (events : List Event) :
    (reportAll events).looks = [] := by
  simp [looks, reportAll, Step.look?]

/-- A composed run looks where its first part does and then, behind a value,
where the second part does. -/
theorem looks_bind
    (run : Run α)
    (next : α → Run β) :
    (run >>= next).looks =
      run.looks ++
        match run.result with
        | .ok value => (next value).looks
        | .error _ => [] := by
  rcases run with ⟨steps, result⟩
  cases result <;>
    simp [bind, andThen, looks]

/-- Behind a value the looks of the next run follow. -/
theorem looks_bind_of_ok
    {run : Run α}
    {value : α}
    (has : run.result = .ok value)
    (next : α → Run β) :
    (run >>= next).looks = run.looks ++ (next value).looks := by
  rw [looks_bind, has]

/-- Where nothing behind a run looks, the looks are those of the run. -/
theorem looks_bind_of_no_later
    {run : Run α}
    {next : α → Run β}
    (noLater : ∀ value, (next value).looks = []) :
    (run >>= next).looks = run.looks := by
  rw [looks_bind]
  cases run.result with
  | ok value =>
      simp only [noLater, List.append_nil]
  | error fault =>
      simp only [List.append_nil]

/-- A report adds no look. -/
@[simp] theorem looks_report_bind
    (event : Event)
    (next : Unit → Run β) :
    (report event >>= next).looks = (next ()).looks :=
  rfl

/-- Several reports add no look. -/
@[simp] theorem looks_reportAll_bind
    (events : List Event)
    (next : Unit → Run β) :
    (reportAll events >>= next).looks = (next ()).looks := by
  rw [looks_bind_of_ok rfl, looks_reportAll, List.nil_append]

/-- A look stands in front of all that follow. -/
@[simp] theorem looks_look_bind
    (line : Nat)
    (next : Unit → Run β) :
    (look line >>= next).looks = line :: (next ()).looks :=
  rfl

end Run

end ClassicBasic
