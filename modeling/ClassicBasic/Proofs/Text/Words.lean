import ClassicBasic.Proofs.Text.Blank

namespace ClassicBasic.Text

/-!
# The words of a text

Blanks part the words of a text and belong to none of them.  So a text that is
cut at a blank has the words of both of its parts, and trimming takes no word.
-/

/-- The words of a text: its longest runs of visible characters, in order. -/
def words (text : Text) : List Text :=
  (text.splitOnP isBlank).filter fun word => !word.isEmpty

/-- Nothing has no words. -/
@[simp] theorem words_nil :
    words [] = [] :=
  rfl

/-- A blank parts the words on both sides of it. -/
theorem words_append_cons
    {c : Char}
    (blank : isBlank c = true)
    (front rest : Text) :
    words (front ++ c :: rest) = words front ++ words rest := by
  rw [words, List.splitOnP_append_cons front rest blank, List.filter_append]
  rfl

/-- A visible text without blanks is a word. -/
theorem words_of_visible
    {text : Text}
    (notEmpty : text ≠ [])
    (visible : ∀ c ∈ text, isBlank c = false) :
    words text = [text] := by
  rw [words, List.splitOnP_eq_singleton visible]
  simp [notEmpty]

section

variable
  {blanks : Text}
  (areBlank : ∀ c ∈ blanks, isBlank c = true)

include areBlank

/-- Blanks in front are no words. -/
theorem words_blanks_append
    (text : Text) :
    words (blanks ++ text) = words text := by
  induction blanks with
  | nil =>
      rfl
  | cons c blanks inductionHypothesis =>
      obtain ⟨blank, restBlank⟩ := List.forall_mem_cons.mp areBlank
      have parted := words_append_cons blank [] (blanks ++ text)
      rw [List.cons_append]
      exact parted.trans (inductionHypothesis restBlank)

/-- Blanks alone hold no word. -/
theorem words_of_blank :
    words blanks = [] := by
  have nothing := words_blanks_append areBlank []
  rwa [List.append_nil] at nothing

/-- Blanks at the end are no words. -/
theorem words_append_blanks
    (text : Text) :
    words (text ++ blanks) = words text := by
  cases blanks with
  | nil =>
      rw [List.append_nil]
  | cons c blanks =>
      obtain ⟨blank, restBlank⟩ := List.forall_mem_cons.mp areBlank
      rw [words_append_cons blank, words_of_blank restBlank, List.append_nil]

end

/-- Trimming in front leaves the words. -/
theorem words_trimStart
    (text : Text) :
    words (trimStart text) = words text := by
  obtain ⟨blanks, whole, areBlank⟩ := exists_blanks_of_trimStart text
  conv_rhs => rw [whole]
  exact (words_blanks_append areBlank (trimStart text)).symm

/-- Trimming at the end leaves the words. -/
@[simp] theorem words_trimEnd
    (text : Text) :
    words (trimEnd text) = words text := by
  obtain ⟨blanks, whole, areBlank⟩ := exists_blanks_of_trimEnd text
  conv_rhs => rw [whole]
  exact (words_append_blanks areBlank (trimEnd text)).symm

/-- Trimming takes no word. -/
@[simp] theorem words_trim
    (text : Text) :
    words (trim text) = words text := by
  rw [trim, words_trimEnd, words_trimStart]

end ClassicBasic.Text
