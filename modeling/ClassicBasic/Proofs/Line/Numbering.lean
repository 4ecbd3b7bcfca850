import ClassicBasic.Line
import Mathlib.Data.List.Basic

namespace ClassicBasic.Line

/-!
# The numbers of logical lines

A logical line has the number of the physical line that it starts on.  Joining
drops physical lines and never reorders them, so the numbers of logical lines
grow strictly.
-/

/-- Physical lines are numbered one after the other. -/
theorem map_number_numbered
    (first : Nat)
    (source : List Text) :
    (numbered first source).map number = List.range' first source.length := by
  induction source generalizing first with
  | nil =>
      rfl
  | cons text rest inductionHypothesis =>
      rw [numbered, List.map_cons, inductionHypothesis, List.length_cons,
        List.range'_succ]

/-- A line that is opened has the number of its physical line. -/
theorem opened?_sublist
    (line : Line) :
    (line.opened?.toList.map number).Sublist [line.number] := by
  unfold opened?
  split
  · exact List.nil_sublist _
  · exact List.Sublist.refl _

/-- Joining keeps a choice of the numbers of its physical lines. -/
theorem joinFrom_sublist
    (current : Option Line)
    (physical : List Line) :
    ((joinFrom current physical).map number).Sublist
      (current.toList.map number ++ physical.map number) := by
  induction physical generalizing current with
  | nil =>
      cases current <;>
        simp [joinFrom]
  | cons next rest inductionHypothesis =>
      have later :
          ((joinFrom next.opened? rest).map number).Sublist
            ((next :: rest).map number) :=
        (inductionHypothesis next.opened?).trans
          (next.opened?_sublist.append_right (rest.map number))
      cases current with
      | none =>
          exact later
      | some line =>
          unfold joinFrom
          split
          · next head continued =>
              refine (inductionHypothesis _).trans ?_
              exact List.Sublist.append_left
                (List.sublist_cons_self next.number (rest.map number))
                [line.number]
          · exact later.cons_cons line.number

/-- The numbers of logical lines grow strictly. -/
theorem logical_increasing
    (first : Nat)
    (source : List Text) :
    ((logical first source).map number).Pairwise (· < ·) := by
  have kept := joinFrom_sublist none (numbered first source)
  rw [map_number_numbered] at kept
  exact (List.pairwise_lt_range' 1).sublist kept

end ClassicBasic.Line
