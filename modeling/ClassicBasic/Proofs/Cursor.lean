import ClassicBasic.Cursor
import ClassicBasic.Proofs.Reading.Unclosed
import ClassicBasic.Proofs.Run.Cut

namespace ClassicBasic

/-!
# What a cursor reads

From one line to the next the number of loops that stay to be closed is kept at
the cursor.  Reading line by line from there gives what reading all lines in a
row gives.  In front of the first line no member is open, so the number that the
cursor brings along is not read; the signature of a member sets it to zero.
-/

namespace Reading

/-- The number of loops that was set last counts. -/
@[simp] theorem withSurplus_withSurplus
    (reading : Reading)
    (first second : Nat) :
    (reading.withSurplus first).withSurplus second = reading.withSurplus second := by
  rcases reading with ⟨declarations, members, place⟩
  cases place <;>
    rfl

/-- How a reading ends does not depend on its number of loops. -/
@[simp] theorem finish_withSurplus
    (reading : Reading)
    (surplus : Nat) :
    (reading.withSurplus surplus).finish = reading.finish := by
  rcases reading with ⟨declarations, members, place⟩
  cases place <;>
    rfl

/-- At its own number of loops a reading does not change. -/
theorem withSurplus_surplus?
    (reading : Reading)
    (otherwise : Nat) :
    reading.withSurplus (reading.surplus?.getD otherwise) = reading := by
  rcases reading with ⟨declarations, members, place⟩
  cases place <;>
    rfl

end Reading

namespace Cursor

/-- In front of the lines that a later cursor has ahead stands the line just
read. -/
theorem drop_behind
    {cursor : Cursor}
    (inside : cursor.position < cursor.lines.length)
    (next : Reading) :
    cursor.lines.drop cursor.position =
      cursor.lines[cursor.position] ::
        (cursor.behind next).lines.drop (cursor.behind next).position :=
  List.drop_eq_getElem_cons inside

/-- The lines from the cursor on are read as if the number at the cursor stood
in the reading. -/
theorem readLines_eq_observe
    (cursor : Cursor)
    (patience : Option Nat)
    (reading : Reading) :
    let whole :=
      ((reading.withSurplus cursor.surplus).readLines
        (cursor.lines.drop cursor.position)).observe patience
    (cursor.readLines patience reading).log = whole.1 ∧
      (cursor.readLines patience reading).result.map (·.withSurplus 0) =
        whole.2.map (·.withSurplus 0) := by
  dsimp only
  fun_induction Cursor.readLines with
  | case1 cursor patience reading inside line log fault seen =>
      simp [drop_behind inside reading, Reading.readLines, Run.observe_bind, line,
        seen]
  | case2 cursor patience reading inside line log next seen stretch
      inductionHypothesis =>
      -- The number that the line leaves is found again by the next line.
      have found : next.withSurplus (cursor.behind next).surplus = next :=
        next.withSurplus_surplus? cursor.surplus
      simp only [Reading.withSurplus_withSurplus, found] at inductionHypothesis
      simp only [drop_behind inside next, Reading.readLines, Run.observe_bind, line,
        seen]
      exact ⟨congrArg (log ++ ·) inductionHypothesis.1, inductionHypothesis.2⟩
  | case3 cursor patience reading outside =>
      have nothing : cursor.lines.drop cursor.position = [] :=
        List.drop_eq_nil_of_le (by omega)
      simp [nothing, Reading.readLines, Run.observe_pure, Except.map]

/-- In front of the lines behind a header the number at the cursor does not
matter, because no member is open there. -/
theorem observe_readLines_start
    (cursor : Cursor)
    (lines : List Line)
    (patience : Option Nat) :
    ∃ result,
      (Reading.start.readLines lines).observe patience =
          (((cursor.inFrontOf lines).readLines patience .start).log, result) ∧
        ((cursor.inFrontOf lines).readLines patience .start).result.map
            (·.withSurplus 0) =
          result.map (·.withSurplus 0) := by
  obtain ⟨sameLog, sameResult⟩ :=
    (cursor.inFrontOf lines).readLines_eq_observe patience .start
  exact ⟨_, Prod.ext sameLog.symm rfl, sameResult⟩

/-- Nothing but its cancellation stops a reading in front of the end of its
lines. -/
theorem readLines_cancelled_or_atEnd
    (cursor : Cursor)
    (patience : Option Nat)
    (reading : Reading)
    (inside : cursor.position ≤ cursor.lines.length) :
    (∃ line, (cursor.readLines patience reading).result = .error (.cancelled line)) ∨
      (∃ final, (cursor.readLines patience reading).result = .ok final) ∧
        (cursor.readLines patience reading).cursor.lines = cursor.lines ∧
        (cursor.readLines patience reading).cursor.position = cursor.lines.length := by
  fun_induction Cursor.readLines with
  | case1 cursor patience reading before line log fault seen =>
      obtain ⟨next, reads⟩ :=
        (reading.withSurplus cursor.surplus).exists_readLine line
      have failed := congrArg Prod.snd seen
      rcases Run.result_or_cancelled_of_observe_eq_error failed with
        isFault | ⟨number, rfl⟩
      · rw [reads] at isFault
        cases isFault
      · exact .inl ⟨number, rfl⟩
  | case2 cursor patience reading before line log next seen stretch
      inductionHypothesis =>
      exact inductionHypothesis before
  | case3 cursor patience reading outside =>
      exact .inr ⟨⟨reading, rfl⟩, rfl, Nat.le_antisymm inside (Nat.le_of_not_lt outside)⟩

end Cursor

end ClassicBasic
