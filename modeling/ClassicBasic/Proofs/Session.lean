import ClassicBasic.Proofs.Cursor
import ClassicBasic.Session

namespace ClassicBasic.Session

/-!
# Reading again

A reading that is stopped leaves its lines, its place among them and a number of
loops at the cursor of the session.  None of this shows in a later reading: the
lines and the place are set anew, and the number is set by every signature before
a line inside a member asks for it.
-/

/-! ## One reading -/

/-- How a session is completed does not depend on the number of loops of its
reading. -/
theorem complete_withSurplus
    (session : Session)
    (header : Header)
    (reading : Reading)
    (surplus : Nat) :
    session.complete header (reading.withSurplus surplus) =
      session.complete header reading := by
  simp only [complete, Reading.finish_withSurplus]

/-- The lines behind a header are read as by a session that is new. -/
theorem fst_readBody
    (session : Session)
    (moment : Option Nat)
    (log : List Event)
    (header : Header) :
    let lines := Line.logical (header.length + 1) (session.source.drop header.length)
    let whole :=
      (Reading.start.readLines lines >>= session.complete header).observe
        (Run.remaining (session.patience moment) log)
    (session.readBody moment log header).1 =
      ⟨log ++ whole.1, whole.2.mapError (FileFault.inFile session.file)⟩ := by
  intro lines whole
  obtain ⟨result, seen, same⟩ :=
    session.cursor.observe_readLines_start lines
      (Run.remaining (session.patience moment) log)
  simp only [whole, Run.observe_bind, seen]
  unfold readBody
  dsimp only
  -- Both readings end alike but for the number of loops, which completing a session
  -- ignores.
  generalize (session.cursor.inFrontOf _).readLines _ _ = stretch at same ⊢
  rcases stretch with ⟨later, found, cursor⟩
  cases found with
  | error fault =>
      cases result with
      | error other =>
          cases same
          rfl
      | ok final =>
          cases same
  | ok reading =>
      cases result with
      | error other =>
          cases same
      | ok final =>
          have sameReading :
              reading.withSurplus 0 = final.withSurplus 0 :=
            Except.ok.inj same
          have sameCompletion :
              session.complete header reading = session.complete header final := by
            rw [← session.complete_withSurplus header reading 0, sameReading,
              session.complete_withSurplus]
          dsimp only
          rw [sameCompletion]
          rfl

/-- A reading shows what is shown of a module that is read once: it depends on
the source, the file name and the moment of cancellation only. -/
theorem fst_read
    (session : Session)
    (moment : Option Nat) :
    (session.read moment).1 =
      Module.parse session.file session.source (session.patience moment) := by
  have parts :
      Module.read session.file session.source =
        session.readHeader >>= fun header =>
          Reading.start.readLines
              (Line.logical (header.length + 1)
                (session.source.drop header.length)) >>=
            session.complete header := by
    simp only [Module.read, Module.readBody, readHeader, Run.bind_assoc]
    rfl
  simp only [Module.parse, parts, Run.observe_bind _ session.readHeader, read]
  rcases session.readHeader.observe (session.patience moment) with
    ⟨log, fault | header⟩
  · rfl
  · exact session.fst_readBody moment log header

/-- However a reading ends, it closes with what it shows. -/
theorem exists_close_eq_read
    (session : Session)
    (moment : Option Nat) :
    ∃ log result cursor,
      session.close moment log result cursor = session.read moment := by
  unfold read
  rcases session.readHeader.observe (session.patience moment) with
    ⟨log, fault | header⟩
  · exact ⟨log, .error fault, session.cursor, rfl⟩
  · unfold readBody
    dsimp only
    rcases (session.cursor.inFrontOf _).readLines _ _ with
      ⟨later, fault | reading, cursor⟩
    · exact ⟨log ++ later, .error fault, cursor, rfl⟩
    · exact ⟨_, _, cursor, rfl⟩

/-- A reading cancels its session only if it comes to the moment that is set for
it. -/
theorem cancelled_read
    (session : Session)
    (moment : Option Nat) :
    (session.read moment).2.cancelled =
      (session.cancelled ||
        moment.any (· ≤ (session.read moment).1.log.length)) := by
  obtain ⟨log, result, cursor, closes⟩ := session.exists_close_eq_read moment
  rw [← closes]
  rfl

/-! ## Calls in a row -/

/-- What is done to a session. -/
inductive Call where
  | cancel
  /-- Read the module, and cancel the session when so many events have been
  reported. -/
  | read (moment : Option Nat)
  deriving Repr, DecidableEq

/-- Whether a call can cancel its session. -/
def Call.canCancel : Call → Bool
  | .cancel => true
  | .read moment => moment.isSome

/-- The session behind a call. -/
def after (session : Session) : Call → Session
  | .cancel => session.cancel
  | .read moment => (session.read moment).2

/-- The session behind calls in order. -/
def afterAll (session : Session) (calls : List Call) : Session :=
  calls.foldl after session

/-- A call changes nothing of a session but its cancellation and its cursor. -/
theorem exists_eq_after
    (session : Session)
    (call : Call) :
    ∃ cancelled cursor,
      session.after call =
        { session with cancelled := cancelled, cursor := cursor } := by
  cases call with
  | cancel =>
      exact ⟨true, session.cursor, rfl⟩
  | read moment =>
      obtain ⟨log, result, cursor, closes⟩ := session.exists_close_eq_read moment
      exact ⟨_, cursor, congrArg Prod.snd closes.symm⟩

/-- A session that has been used differs from a new one for the same source in
its cursor and in whether it was cancelled. -/
theorem exists_eq_afterAll
    (session : Session)
    (calls : List Call) :
    ∃ cancelled cursor,
      session.afterAll calls =
        { session with cancelled := cancelled, cursor := cursor } := by
  induction calls generalizing session with
  | nil =>
      exact ⟨session.cancelled, session.cursor, rfl⟩
  | cons call rest inductionHypothesis =>
      obtain ⟨cancelled, cursor, first⟩ := session.exists_eq_after call
      obtain ⟨cancelled', cursor', later⟩ := inductionHypothesis (session.after call)
      refine ⟨cancelled', cursor', ?_⟩
      simp only [afterAll, List.foldl_cons] at later ⊢
      rw [later, first]

/-- No reading cancels a session by itself. -/
theorem cancelled_after
    {session : Session}
    {call : Call}
    (cancelled : (session.after call).cancelled = true) :
    session.cancelled = true ∨ call.canCancel = true := by
  cases call with
  | cancel =>
      exact .inr rfl
  | read moment =>
      cases moment with
      | some events =>
          exact .inr rfl
      | none =>
          left
          simpa [after, cancelled_read] using cancelled

/-- A session is cancelled behind calls only if it was before them or one of them
can cancel. -/
theorem cancelled_afterAll
    {session : Session}
    {calls : List Call}
    (cancelled : (session.afterAll calls).cancelled = true) :
    session.cancelled = true ∨ ∃ call ∈ calls, call.canCancel = true := by
  induction calls generalizing session with
  | nil =>
      exact .inl cancelled
  | cons call rest inductionHypothesis =>
      rcases inductionHypothesis cancelled with before | ⟨later, member, cancels⟩
      · rcases cancelled_after before with already | cancels
        · exact .inl already
        · exact .inr ⟨call, List.mem_cons_self, cancels⟩
      · exact .inr ⟨later, List.mem_cons_of_mem call member, cancels⟩

/-- A session carries nothing from one reading to the next.  Whatever it has been
through, it shows what a new session for the same source and file name shows
that is cancelled where the used one is; and it is cancelled only by a call that
can cancel it, however its readings end. -/
theorem read_afterAll
    (source : List Text)
    (file : Text)
    (cancellable : Bool)
    (calls : List Call)
    (moment : Option Nat) :
    let used := (fresh source file cancellable).afterAll calls
    let anew := { fresh source file cancellable with cancelled := used.cancelled }
    (used.read moment).1 = (anew.read moment).1 ∧
      (used.cancelled = true → ∃ call ∈ calls, call.canCancel = true) := by
  intro used anew
  refine ⟨?_, ?_⟩
  · obtain ⟨cancelled, cursor, shape⟩ :=
      (fresh source file cancellable).exists_eq_afterAll calls
    have same : used = { anew with cursor := cursor } := by
      simp only [used, anew, shape]
    rw [used.fst_read, anew.fst_read, same]
    rfl
  · intro cancelled
    exact (cancelled_afterAll cancelled).resolve_left Bool.false_ne_true

/-- A reading that ends inside a loop of a condition leaves a loop to be closed. -/
example :
    ((unnamed
      ["Attribute VB_Name = \"A\"", "Sub A()", "If x Then", "For i = 1 To 2",
        "Next i, j"]).read none).2.cursor.surplus = 1 := by
  decide +kernel

end ClassicBasic.Session
