import ClassicBasic.Proofs.Text.Quoted
import Mathlib.Algebra.Group.Nat.Even

namespace ClassicBasic.Text

/-!
# What is a string literal

Reading a value is lenient: the closing quote may be missing, and a quote inside may
stand alone.  Writing what was read gives the value back exactly where it is a literal in
the strict sense, with both delimiters and with quotes in pairs only between them.
-/

/-- Whether a text is a run of quotes between two others, into neither of which it
goes on. -/
structure IsQuoteRun (text before : Text) (length : Nat) (after : Text) : Prop where
  whole : text = before ++ List.replicate length stringDelimiter ++ after
  opens : before.getLast? ≠ some stringDelimiter
  closes : after.head? ≠ some stringDelimiter

/-- Whether every run of quotes in a text is of even length. -/
def PairsQuotes (text : Text) : Prop :=
  ∀ before length after, IsQuoteRun text before length after → Even length

/-- Whether a text is a string literal: two delimiters, and between them quotes in
pairs only. -/
structure IsLiteral (raw : Text) : Prop where
  opens : raw.head? = some stringDelimiter
  closes : raw.getLast? = some stringDelimiter
  delimiters : 2 ≤ raw.length
  paired : PairsQuotes raw.tail.dropLast

/-! ## Runs of quotes -/

/-- The last character is the first only if no other follows. -/
theorem getLast?_cons_eq_some_iff
    {first last : Char}
    {rest : Text} :
    (first :: rest).getLast? = some last ↔
      rest = [] ∧ first = last ∨ rest.getLast? = some last := by
  cases rest with
  | nil =>
      simp
  | cons next others =>
      simp [List.getLast?_cons_cons]

/-- A run that does not begin with the text is one of what follows the first character. -/
theorem isQuoteRun_cons_cons_iff
    {c first : Char}
    {text before after : Text}
    {length : Nat} :
    IsQuoteRun (c :: text) (first :: before) length after ↔
      c = first ∧ (before = [] → c ≠ stringDelimiter) ∧
        IsQuoteRun text before length after := by
  constructor
  · rintro ⟨whole, opens, closes⟩
    rw [Ne, getLast?_cons_eq_some_iff, not_or, not_and] at opens
    obtain ⟨rfl, behind⟩ := List.cons.inj whole
    exact ⟨rfl, opens.1, behind, opens.2, closes⟩
  · rintro ⟨rfl, apart, whole, opens, closes⟩
    refine ⟨congrArg (c :: ·) whole, ?_, closes⟩
    rw [Ne, getLast?_cons_eq_some_iff, not_or, not_and]
    exact ⟨apart, opens⟩

/-- A run that begins with the text takes the quote in front. -/
theorem isQuoteRun_quote_iff
    {text after : Text}
    {length : Nat} :
    IsQuoteRun (stringDelimiter :: text) [] length after ↔
      ∃ fewer, length = fewer + 1 ∧ IsQuoteRun text [] fewer after := by
  constructor
  · rintro ⟨whole, opens, closes⟩
    cases length with
    | zero =>
        exact absurd (congrArg List.head? whole).symm closes
    | succ fewer =>
        exact ⟨fewer, rfl, (List.cons.inj whole).2, opens, closes⟩
  · rintro ⟨fewer, rfl, whole, opens, closes⟩
    exact ⟨congrArg (stringDelimiter :: ·) whole, opens, closes⟩

/-- Nothing has its quotes in pairs. -/
theorem pairsQuotes_nil : PairsQuotes [] := by
  rintro before length after ⟨whole, -, -⟩
  have none : length = 0 := by
    have counts := congrArg (List.count stringDelimiter) whole
    simp only [List.count_append, List.count_replicate_self, List.count_nil] at counts
    omega
  exact none ▸ Even.zero

/-- A character that is no quote leaves the runs behind it as they are. -/
theorem pairsQuotes_cons_iff
    {c : Char}
    (other : c ≠ stringDelimiter)
    (rest : Text) :
    PairsQuotes (c :: rest) ↔ PairsQuotes rest := by
  constructor
  · intro paired before length after run
    exact paired (c :: before) length after
      (isQuoteRun_cons_cons_iff.mpr ⟨rfl, fun _ => other, run⟩)
  · intro paired before length after run
    cases before with
    | nil =>
        cases length with
        | zero =>
            exact Even.zero
        | succ fewer =>
            exact absurd (List.cons.inj run.whole).1 other
    | cons first before =>
        exact paired before length after (isQuoteRun_cons_cons_iff.mp run).2.2

/-- Two quotes in front lengthen the run behind them by two. -/
theorem pairsQuotes_pair_iff
    (rest : Text) :
    PairsQuotes (stringDelimiter :: stringDelimiter :: rest) ↔ PairsQuotes rest := by
  have even_add_two (length : Nat) : Even (length + 1 + 1) ↔ Even length := by
    rw [Nat.even_add_one, Nat.even_add_one, not_not]
  constructor
  · intro paired before length after run
    cases before with
    | nil =>
        refine (even_add_two length).mp (paired [] (length + 1 + 1) after ?_)
        exact isQuoteRun_quote_iff.mpr ⟨_, rfl, isQuoteRun_quote_iff.mpr ⟨_, rfl, run⟩⟩
    | cons first before =>
        refine paired (stringDelimiter :: stringDelimiter :: first :: before) length after ?_
        simpa [isQuoteRun_cons_cons_iff] using run
  · intro paired before length after run
    cases before with
    | nil =>
        obtain ⟨behindFirst, rfl, behind⟩ := isQuoteRun_quote_iff.mp run
        obtain ⟨fewer, rfl, inRest⟩ := isQuoteRun_quote_iff.mp behind
        exact (even_add_two fewer).mpr (paired [] fewer after inRest)
    | cons first before =>
        obtain ⟨-, apart, run⟩ := isQuoteRun_cons_cons_iff.mp run
        cases before with
        | nil =>
            exact absurd rfl (apart rfl)
        | cons second before =>
            exact paired before length after (isQuoteRun_cons_cons_iff.mp run).2.2

/-- A quote that stands alone in front is a run of one. -/
theorem not_pairsQuotes_of_lone
    {rest : Text}
    (lone : rest.head? ≠ some stringDelimiter) :
    ¬ PairsQuotes (stringDelimiter :: rest) := by
  intro paired
  have run : IsQuoteRun (stringDelimiter :: rest) [] 1 rest :=
    ⟨rfl, by simp, lone⟩
  exact absurd (paired [] 1 rest run) (by decide)

/-- Doubling takes back undoubling exactly where quotes stand in pairs. -/
theorem doubleQuotes_undoubleQuotes_iff
    {text : Text} :
    doubleQuotes (undoubleQuotes text) = text ↔ PairsQuotes text := by
  fun_induction undoubleQuotes text with
  | case1 =>
      exact iff_of_true rfl pairsQuotes_nil
  | case2 c =>
      by_cases quoted : c = stringDelimiter
      · subst quoted
        refine iff_of_false ?_ (not_pairsQuotes_of_lone (by simp))
        simp [doubleQuotes]
      · refine iff_of_true ?_ ((pairsQuotes_cons_iff quoted []).mpr pairsQuotes_nil)
        simp [doubleQuotes, quoted]
  | case3 c next rest doubled inductionHypothesis =>
      obtain ⟨rfl, rfl⟩ := doubled
      rw [pairsQuotes_pair_iff, ← inductionHypothesis]
      simp [doubleQuotes]
  | case4 c next rest single inductionHypothesis =>
      by_cases quoted : c = stringDelimiter
      · -- The quote is written twice, and something else stands behind it.
        subst quoted
        replace single : next ≠ stringDelimiter := fun same => single ⟨rfl, same⟩
        refine iff_of_false ?_ (not_pairsQuotes_of_lone (by simpa using single))
        simp [doubleQuotes, Ne.symm single]
      · rw [pairsQuotes_cons_iff quoted, ← inductionHypothesis]
        simp [doubleQuotes, quoted]

/-! ## Literals -/

/-- A literal is its delimiters and what stands between them. -/
theorem isLiteral_iff_exists
    {raw : Text} :
    IsLiteral raw ↔
      ∃ inner,
        raw = stringDelimiter :: (inner ++ [stringDelimiter]) ∧ PairsQuotes inner := by
  constructor
  · rintro ⟨opens, closes, delimiters, paired⟩
    obtain ⟨rest, rfl⟩ := List.head?_eq_some_iff.mp opens
    rcases getLast?_cons_eq_some_iff.mp closes with ⟨rfl, -⟩ | closesRest
    · -- The quote that opens a literal does not close it as well.
      simp at delimiters
    · obtain ⟨inner, rfl⟩ := List.getLast?_eq_some_iff.mp closesRest
      exact ⟨inner, rfl, by simpa using paired⟩
  · rintro ⟨inner, rfl, paired⟩
    exact ⟨rfl, by simp [getLast?_cons_eq_some_iff], by simp, by simpa using paired⟩

/-- A text in quotes is a literal. -/
theorem isLiteral_quote
    (text : Text) :
    IsLiteral (quote text) := by
  refine isLiteral_iff_exists.mpr ⟨doubleQuotes text, rfl, ?_⟩
  rw [← doubleQuotes_undoubleQuotes_iff, undoubleQuotes_doubleQuotes]

/-- A literal is written again as it was read. -/
theorem IsLiteral.quote_unquote
    {raw : Text}
    (literal : IsLiteral raw) :
    quote (unquote raw).1 = raw := by
  obtain ⟨inner, rfl, paired⟩ := isLiteral_iff_exists.mp literal
  rw [unquote_delimited, quote, doubleQuotes_undoubleQuotes_iff.mpr paired]

/-- Every text is read back from its literal, so no two texts have the same literal, and
a value is the literal of what is read from it exactly where it is a literal at all. -/
theorem quote_inverse_on_literals :
    (∀ text, unquote (quote text) = (text, true)) ∧
      Function.Injective quote ∧
        ∀ raw, quote (unquote raw).1 = raw ↔ IsLiteral raw := by
  refine ⟨unquote_quote, ?_, fun raw => ⟨?_, IsLiteral.quote_unquote⟩⟩
  · intro first second same
    have values := congrArg (fun raw => (unquote raw).1) same
    rwa [unquote_quote, unquote_quote] at values
  · intro same
    rw [← same]
    exact isLiteral_quote (unquote raw).1

-- A quote alone opens a literal and cannot close it as well, so writing adds one.
example :
    quote (unquote [stringDelimiter]).1 = [stringDelimiter, stringDelimiter] := by
  decide

end ClassicBasic.Text
