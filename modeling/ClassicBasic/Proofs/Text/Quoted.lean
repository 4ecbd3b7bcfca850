import ClassicBasic.Proofs.Text.Blank
import ClassicBasic.Text.Quoted

namespace ClassicBasic.Text

/-!
# What string literals keep

A literal stands for the text that it was written for, and reading a value, as a
literal or as it is, brings in no character.
-/

/-- Doubling quotes neither adds a character nor takes one away. -/
theorem mem_doubleQuotes_iff
    {c : Char}
    {text : Text} :
    c ∈ doubleQuotes text ↔ c ∈ text := by
  induction text with
  | nil =>
      rfl
  | cons first rest inductionHypothesis =>
      unfold doubleQuotes
      split <;>
        simp [inductionHypothesis]

/-- Taking one quote of each pair adds no character. -/
theorem mem_of_mem_undoubleQuotes
    {c : Char}
    {text : Text}
    (member : c ∈ undoubleQuotes text) :
    c ∈ text := by
  fun_induction undoubleQuotes text with
  | case1 =>
      exact member
  | case2 =>
      exact member
  | case3 first next rest doubled inductionHypothesis =>
      rcases List.mem_cons.mp member with isFirst | inRest
      · simp [isFirst]
      · simp [inductionHypothesis inRest]
  | case4 first next rest single inductionHypothesis =>
      rcases List.mem_cons.mp member with isFirst | inRest
      · simp [isFirst]
      · exact List.mem_cons_of_mem first (inductionHypothesis inRest)

/-- Quoting adds no character but quotes. -/
theorem mem_quote
    {c : Char}
    {text : Text}
    (member : c ∈ quote text) :
    c = stringDelimiter ∨ c ∈ text := by
  simpa [quote, mem_doubleQuotes_iff, or_comm, or_left_comm] using member

/-- A value that opens with a quote is read as a literal, closed or not. -/
theorem unquote_cons
    (rest : Text) :
    unquote (stringDelimiter :: rest) =
      (undoubleQuotes ((before? [stringDelimiter] rest).getD rest), true) :=
  rfl

/-- What a literal stands for is written between its delimiters. -/
theorem unquote_delimited
    (inner : Text) :
    unquote (stringDelimiter :: (inner ++ [stringDelimiter])) =
      (undoubleQuotes inner, true) := by
  have closes :
      before? [stringDelimiter] (inner ++ [stringDelimiter]) = some inner :=
    before?_eq_some_iff.mpr rfl
  rw [unquote_cons, closes, Option.getD_some]

/-- A literal stands for the text that it is the literal of. -/
theorem unquote_quote
    (text : Text) :
    unquote (quote text) = (text, true) := by
  rw [quote, unquote_delimited, undoubleQuotes_doubleQuotes]

/-- A text in quotes has no blanks at its ends. -/
theorem trim_quote
    (text : Text) :
    trim (quote text) = quote text := by
  have visible : isBlank stringDelimiter = false := by
    decide
  rw [trim, quote, trimStart_cons_visible visible, ← List.cons_append,
    trimEnd_append_visible visible]

/-- A value that opens with no quote is as it is written. -/
theorem unquote_of_bare
    {raw : Text}
    (bare : raw.head? ≠ some stringDelimiter) :
    unquote raw = (raw, false) := by
  have noDelimiter : after? [stringDelimiter] raw = none := by
    cases raw with
    | nil =>
        rfl
    | cons c rest =>
        refine if_neg fun same => bare ?_
        rw [List.head?_cons, same]
  simp only [unquote, noDelimiter]

/-- Taking quotes off adds no character. -/
theorem mem_of_mem_unquote
    {c : Char}
    {raw : Text}
    (member : c ∈ (unquote raw).1) :
    c ∈ raw := by
  by_cases bare : raw.head? = some stringDelimiter
  · cases raw with
    | nil =>
        simp at bare
    | cons first rest =>
        cases bare
        rw [unquote_cons] at member
        refine List.mem_cons_of_mem _ ?_
        replace member := mem_of_mem_undoubleQuotes member
        cases closes : before? [stringDelimiter] rest with
        | none =>
            simpa [closes] using member
        | some inner =>
            rw [closes, Option.getD_some] at member
            rw [before?_eq_some_iff.mp closes]
            exact List.mem_append_left _ member
  · rwa [unquote_of_bare bare] at member

end ClassicBasic.Text
