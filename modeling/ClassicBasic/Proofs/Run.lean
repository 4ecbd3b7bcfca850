import ClassicBasic.Run

namespace ClassicBasic.Run

/-!
# Composing runs

A run is a list of steps with a result.  Going on with the result of a run puts
the steps of both behind each other; it has a value exactly when both have one.
The rules here open a composed run one link at a time.
-/

/-- A value goes to the next run without a step. -/
@[simp] theorem pure_bind
    (value : α)
    (next : α → Run β) :
    (pure value : Run α) >>= next = next value :=
  rfl

/-- Passing the value of a run on adds nothing to the run. -/
@[simp] theorem bind_pure
    (run : Run α) :
    (run >>= fun value => pure value) = run := by
  rcases run with ⟨steps, result⟩
  cases result with
  | error fault =>
      rfl
  | ok value =>
      simp [bind, pure, andThen, done]

/-- Going on is associative: the steps of three runs stand in order. -/
@[simp] theorem bind_assoc
    (run : Run α)
    (next : α → Run β)
    (last : β → Run γ) :
    (run >>= next) >>= last = run >>= fun value => next value >>= last := by
  rcases run with ⟨steps, result⟩
  cases result with
  | error fault =>
      rfl
  | ok value =>
      rcases shape : next value with ⟨later, middle⟩
      cases middle <;>
        simp [bind, andThen, shape, List.append_assoc]

/-- A success goes to the next run without a step. -/
@[simp] theorem ofExcept_ok_bind
    (value : α)
    (next : α → Run β) :
    ofExcept (.ok value) >>= next = next value :=
  rfl

/-- Behind a run that succeeds come the steps and the result of the next. -/
theorem mk_ok_bind
    (steps : List Step)
    (value : α)
    (next : α → Run β) :
    (⟨steps, .ok value⟩ : Run α) >>= next =
      ⟨steps ++ (next value).steps, (next value).result⟩ :=
  rfl

/-- Behind a run whose result is a success come the steps and the result of the
next. -/
theorem bind_of_result_eq_ok
    {run : Run α}
    {value : α}
    (has : run.result = .ok value)
    (next : α → Run β) :
    run >>= next = ⟨run.steps ++ (next value).steps, (next value).result⟩ := by
  rcases run with ⟨steps, result⟩
  cases has
  rfl

/-- A value without a step is its own result. -/
@[simp] theorem result_pure
    (value : α) :
    (pure value : Run α).result = .ok value :=
  rfl

/-- A result without a step is the result of its run. -/
@[simp] theorem result_ofExcept
    (result : Except Fault α) :
    (ofExcept result).result = result :=
  rfl

/-- A run that fails ends with its fault. -/
@[simp] theorem result_fail
    (fault : Fault) :
    (fail fault : Run α).result = .error fault :=
  rfl

/-- A report leaves the result to what follows it. -/
@[simp] theorem result_report_bind
    (event : Event)
    (next : Unit → Run β) :
    (report event >>= next).result = (next ()).result :=
  rfl

/-- Several reports leave the result to what follows them. -/
@[simp] theorem result_reportAll_bind
    (events : List Event)
    (next : Unit → Run β) :
    (reportAll events >>= next).result = (next ()).result :=
  rfl

/-- A look whether to go on leaves the result to what follows it. -/
@[simp] theorem result_look_bind
    (line : Nat)
    (next : Unit → Run β) :
    (look line >>= next).result = (next ()).result :=
  rfl

/-- The result of a composed run is composed of the results. -/
theorem result_bind
    (run : Run α)
    (next : α → Run β) :
    (run >>= next).result = run.result >>= fun value => (next value).result := by
  rcases run with ⟨steps, result⟩
  cases result <;>
    rfl

/-- A composed run has a value exactly when both of its parts have one. -/
theorem result_bind_eq_ok_iff
    {run : Run α}
    {next : α → Run β}
    {value : β} :
    (run >>= next).result = .ok value ↔
      ∃ middle, run.result = .ok middle ∧ (next middle).result = .ok value := by
  rcases run with ⟨steps, result⟩
  cases result with
  | error fault =>
      simp [bind, andThen]
  | ok middle =>
      simp [bind, andThen]

/-- Whatever is computed from a value that a run has, there is a value that it
is computed from. -/
theorem exists_ok_of_map
    {result : Except ε α}
    {view : α → β}
    {seen : β}
    (views : result.map view = .ok seen) :
    ∃ value, result = .ok value ∧ view value = seen := by
  cases result with
  | error fault =>
      cases views
  | ok value =>
      cases views
      exact ⟨value, rfl, rfl⟩

/-- What is computed from a value does not change a fault. -/
theorem eq_error_of_map
    {result : Except ε α}
    {view : α → β}
    {fault : ε}
    (views : result.map view = .error fault) :
    result = .error fault := by
  cases result with
  | error other =>
      cases views
      rfl
  | ok value =>
      cases views

/-- Whatever is cancelled, a value that is seen is the value of the run. -/
theorem result_of_observe_eq_ok
    {patience : Option Nat}
    {run : Run α}
    {value : α}
    (seen : (run.observe patience).2 = .ok value) :
    run.result = .ok value := by
  simp only [observe] at seen
  split at seen
  · exact seen
  · simp at seen

/-- A fault that is seen is the fault of the run, or tells that it was cancelled. -/
theorem result_or_cancelled_of_observe_eq_error
    {patience : Option Nat}
    {run : Run α}
    {fault : Fault}
    (seen : (run.observe patience).2 = .error fault) :
    run.result = .error fault ∨ ∃ line, fault = .cancelled line := by
  simp only [observe] at seen
  split at seen
  · exact .inl seen
  · next log line cutting =>
      cases seen
      exact .inr ⟨line, rfl⟩

end ClassicBasic.Run
