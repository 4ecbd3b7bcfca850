import ClassicBasic.Text.Blank
import Mathlib.Data.List.DropRight
import Mathlib.Data.List.Induction

namespace ClassicBasic.Text

/-!
# Blanks and visible characters

Trimming cares about the blanks at the ends of a text only, and a visible
character keeps all that stands on the other side of it.  A trimmed text opens
with the first visible character of the text.
-/

/-! ## The ends of a text -/

/-- Whether a character is no blank. -/
def isVisible (c : Char) : Bool :=
  !isBlank c

/-- The first visible character of a text. -/
def opening? (text : Text) : Option Char :=
  text.find? isVisible

/-- Behind the blanks in front stands the first visible character. -/
theorem head?_trimStart
    (text : Text) :
    (trimStart text).head? = text.opening? := by
  induction text with
  | nil =>
      rfl
  | cons c rest inductionHypothesis =>
      by_cases blank : isBlank c = true
      · simpa [trimStart, opening?, isVisible, blank] using
          inductionHypothesis
      · simp [trimStart, opening?, isVisible, blank]

/-- Trimming at the end leaves a beginning of the text. -/
theorem trimEnd_prefix
    (text : Text) :
    trimEnd text <+: text := by
  have suffix : trimStart text.reverse <:+ text.reverse :=
    List.dropWhile_suffix isBlank
  simpa [trimEnd] using List.reverse_prefix.mpr suffix

/-- Trimming at the end adds no character. -/
theorem mem_of_mem_trimEnd
    {c : Char}
    {text : Text}
    (member : c ∈ trimEnd text) :
    c ∈ text := by
  have isPrefix := trimEnd_prefix text
  exact isPrefix.subset member

/-- Trimming adds no character. -/
theorem mem_of_mem_trim
    {c : Char}
    {text : Text}
    (member : c ∈ trim text) :
    c ∈ text :=
  (List.dropWhile_sublist isBlank).subset (mem_of_mem_trimEnd member)

/-- No visible character is among blanks. -/
theorem not_mem_of_blank
    {c : Char}
    {blanks : Text}
    (visible : isBlank c = false)
    (areBlank : ∀ d ∈ blanks, isBlank d = true) :
    c ∉ blanks := by
  intro member
  rw [areBlank c member] at visible
  cases visible

/-- A text that is trimmed at the end begins as before. -/
theorem head?_trimEnd
    {text : Text}
    {c : Char}
    (opens : (trimEnd text).head? = some c) :
    text.head? = some c := by
  obtain ⟨rest, whole⟩ := trimEnd_prefix text
  rw [← whole, List.head?_append, opens, Option.some_or]

/-- What trimming takes from the beginning of a text is blank. -/
theorem exists_blanks_of_trimStart
    (text : Text) :
    ∃ blanks, text = blanks ++ trimStart text ∧ ∀ c ∈ blanks, isBlank c = true := by
  refine ⟨text.takeWhile isBlank, ?_, fun c member => List.mem_takeWhile_imp member⟩
  rw [trimStart, List.takeWhile_append_dropWhile]

/-- What trimming takes from the end of a text is blank. -/
theorem exists_blanks_of_trimEnd
    (text : Text) :
    ∃ blanks, text = trimEnd text ++ blanks ∧ ∀ c ∈ blanks, isBlank c = true := by
  refine ⟨(text.reverse.takeWhile isBlank).reverse, ?_, ?_⟩
  · rw [trimEnd, trimStart, ← List.reverse_append, List.takeWhile_append_dropWhile,
      List.reverse_reverse]
  · intro c member
    exact List.mem_takeWhile_imp (List.mem_reverse.mp member)

/-- A text opens like whatever it is the beginning of. -/
theorem opening?_of_prefix
    {beginning text : Text}
    {c : Char}
    (opens : beginning.opening? = some c)
    (isBeginning : beginning <+: text) :
    text.opening? = some c := by
  obtain ⟨rest, rfl⟩ := isBeginning
  rw [opening?] at opens ⊢
  rw [List.find?_append, opens, Option.some_or]

/-- Trimming at the end stops at a visible character in front. -/
theorem trimEnd_cons
    {c : Char}
    (visible : isBlank c = false)
    (rest : Text) :
    trimEnd (c :: rest) = c :: trimEnd rest := by
  simp only [trimEnd, trimStart, List.reverse_cons, List.dropWhile_append]
  split
  · next blank =>
      simp [List.isEmpty_iff.mp blank, visible]
  · simp

/-- A trimmed text begins with the first visible character. -/
theorem head?_trim
    (text : Text) :
    (trim text).head? = text.opening? := by
  rw [← head?_trimStart, trim]
  cases stripped : trimStart text with
  | nil =>
      rfl
  | cons c rest =>
      have first := head?_trimStart text
      rw [stripped, List.head?_cons] at first
      have visible : isBlank c = false := by
        simpa [isVisible] using List.find?_some first.symm
      rw [trimEnd_cons visible, List.head?_cons, List.head?_cons]

/-- A trimmed text opens visibly. -/
theorem isBlank_of_head?_trim
    {text : Text}
    {c : Char}
    (opens : c ∈ (trim text).head?) :
    isBlank c = false := by
  rw [head?_trim] at opens
  simpa [isVisible] using List.find?_some opens

/-- A trimmed text ends visibly. -/
theorem isBlank_of_getLast?_trim
    {text : Text}
    {c : Char}
    (ends : c ∈ (trim text).getLast?) :
    isBlank c = false := by
  rw [trim, trimEnd, List.getLast?_reverse, trimStart] at ends
  have visible := List.head?_dropWhile_not isBlank (trimStart text).reverse
  rw [Option.mem_def.mp ends] at visible
  simpa using visible

/-- Trimming leaves nothing of blanks only. -/
theorem trim_eq_nil_iff
    {text : Text} :
    trim text = [] ↔ ∀ c ∈ text, isBlank c = true := by
  rw [← List.head?_eq_none_iff, head?_trim, opening?, List.find?_eq_none]
  simp [isVisible]

/-- What is not blank is not used up by trimming in front. -/
theorem trimStart_ne_nil
    {text : Text}
    (isVisible : trim text ≠ []) :
    trimStart text ≠ [] := by
  intro nothing
  apply isVisible
  rw [trim, nothing]
  rfl

/-! ## Composed texts -/

/-- A blank at the end is taken off. -/
theorem trimEnd_append_blank
    {c : Char}
    (blank : isBlank c = true)
    (text : Text) :
    trimEnd (text ++ [c]) = trimEnd text := by
  simp [trimEnd, trimStart, blank]

/-- A visible character at the end is kept with all in front of it. -/
theorem trimEnd_append_visible
    {c : Char}
    (visible : isBlank c = false)
    (text : Text) :
    trimEnd (text ++ [c]) = text ++ [c] := by
  simp [trimEnd, trimStart, visible]

/-- Trimming at the end stops at a visible character inside. -/
theorem trimEnd_append_cons
    {c : Char}
    (visible : isBlank c = false)
    (front rest : Text) :
    trimEnd (front ++ c :: rest) = front ++ c :: trimEnd rest := by
  simp only [trimEnd, trimStart, List.reverse_append, List.reverse_cons,
    List.append_assoc, List.singleton_append, List.dropWhile_append]
  split
  · next blank =>
      simp [List.isEmpty_iff.mp blank, visible]
  · simp

/-- Trimming in front stops at a visible character inside. -/
theorem trimStart_append_cons
    {c : Char}
    (visible : isBlank c = false)
    (front rest : Text) :
    trimStart (front ++ c :: rest) = trimStart front ++ c :: rest := by
  simp only [trimStart, List.dropWhile_append]
  split
  · next blank =>
      simp [List.isEmpty_iff.mp blank, visible]
  · rfl

/-- A blank in front is taken off. -/
theorem trim_cons_blank
    {c : Char}
    (blank : isBlank c = true)
    (rest : Text) :
    trim (c :: rest) = trim rest := by
  simp [trim, trimStart, blank]

/-- A visible character in front is kept with all behind it. -/
theorem trimStart_cons_visible
    {c : Char}
    (visible : isBlank c = false)
    (rest : Text) :
    trimStart (c :: rest) = c :: rest := by
  simp [trimStart, visible]

/-- Trimming in front does not reach what stands behind a visible text. -/
theorem trimStart_append
    {text : Text}
    (isVisible : trimStart text ≠ [])
    (more : Text) :
    trimStart (text ++ more) = trimStart text ++ more := by
  unfold trimStart at isVisible ⊢
  rw [List.dropWhile_append, if_neg (by simpa using isVisible)]

/-- The blanks in front end within a visible text. -/
theorem takeWhile_isBlank_append
    {text : Text}
    (isVisible : trimStart text ≠ [])
    (more : Text) :
    (text ++ more).takeWhile isBlank = text.takeWhile isBlank := by
  have whole :=
    congrArg List.length
      (List.takeWhile_append_dropWhile (p := isBlank) (l := text))
  have longer := List.length_pos_iff.mpr isVisible
  rw [List.length_append] at whole
  rw [List.takeWhile_append, if_neg]
  unfold trimStart at longer
  omega

/-! ## Trimming twice -/

/-- The ends of a text are trimmed independently. -/
theorem trimStart_trimEnd
    (text : Text) :
    trimStart (trimEnd text) = trimEnd (trimStart text) := by
  induction text using List.reverseRecOn with
  | nil =>
      rfl
  | append_singleton text c inductionHypothesis =>
      cases blank : isBlank c with
      | true =>
          rw [trimEnd_append_blank blank, inductionHypothesis]
          simp only [trimStart, List.dropWhile_append]
          split
          · next noneVisible =>
              simp [List.isEmpty_iff.mp noneVisible, blank, trimEnd, trimStart]
          · exact (trimEnd_append_blank blank _).symm
      | false =>
          rw [trimEnd_append_visible blank]
          simp only [trimStart, List.dropWhile_append]
          split
          · simp [blank, trimEnd, trimStart]
          · exact (trimEnd_append_visible blank _).symm

/-- Behind trimming at the end there is nothing left to trim there. -/
@[simp] theorem trimEnd_trimEnd
    (text : Text) :
    trimEnd (trimEnd text) = trimEnd text := by
  simp [trimEnd, trimStart, List.dropWhile_idempotent]

/-- Trimming does at the end what trimming at the end alone does. -/
@[simp] theorem trim_trimEnd
    (text : Text) :
    trim (trimEnd text) = trim text := by
  rw [trim, trimStart_trimEnd, trimEnd_trimEnd, trim]

/-- Trimming does in front what trimming in front alone does. -/
@[simp] theorem trim_trimStart
    (text : Text) :
    trim (trimStart text) = trim text := by
  simp [trim, trimStart, List.dropWhile_idempotent]

/-- A trimmed text is trimmed. -/
@[simp] theorem trim_trim
    (text : Text) :
    trim (trim text) = trim text := by
  rw [trim.eq_1 text, trim_trimEnd, trim_trimStart, trim]

/-- A trimmed text has no blanks in front. -/
theorem trimStart_trim
    (text : Text) :
    trimStart (trim text) = trim text := by
  rw [trim, trimStart_trimEnd, trimStart, trimStart, List.dropWhile_idempotent]

/-- A trimmed text does not begin with a blank. -/
theorem takeWhile_isBlank_trim
    (text : Text) :
    (trim text).takeWhile isBlank = [] := by
  have whole := List.takeWhile_append_dropWhile (p := isBlank) (l := trim text)
  have start : (trim text).dropWhile isBlank = trim text := trimStart_trim text
  rw [start] at whole
  exact List.append_left_eq_self.mp whole

/-- A trimmed text that is not empty ends any text visibly. -/
theorem trimEnd_append_trim
    {text : Text}
    (isVisible : trim text ≠ [])
    (front : Text) :
    trimEnd (front ++ trim text) = front ++ trim text := by
  obtain ⟨c, rest, whole⟩ := List.exists_cons_of_ne_nil isVisible
  have opens := head?_trim text
  rw [whole, List.head?_cons, opening?] at opens
  have visible : isBlank c = false := by
    simpa [Text.isVisible] using List.find?_some opens.symm
  have ends : trimEnd (trim text) = trim text := by
    rw [trim, trimEnd_trimEnd]
  rw [whole, trimEnd_cons visible] at ends
  rw [whole, trimEnd_append_cons visible, List.tail_eq_of_cons_eq ends]

/-! ## Counting -/

section Counting

variable
  {c : Char}
  (visible : isBlank c = false)

include visible

/-- A visible character is counted alike before and after trimming in front. -/
theorem count_trimStart
    (text : Text) :
    (trimStart text).count c = text.count c := by
  have noBlank : c ∉ text.takeWhile isBlank := by
    intro member
    rw [List.mem_takeWhile_imp member] at visible
    cases visible
  have whole := congrArg (List.count c)
    (List.takeWhile_append_dropWhile (p := isBlank) (l := text))
  rwa [List.count_append, List.count_eq_zero_of_not_mem noBlank, Nat.zero_add] at whole

/-- Trimming takes no visible character. -/
theorem count_trim
    (text : Text) :
    (trim text).count c = text.count c := by
  simp only [trim, trimEnd, List.count_reverse, count_trimStart visible]

/-- A visible character is counted alike before and behind blanks. -/
theorem count_of_afterBlanks?
    {text rest : Text}
    (read : afterBlanks? text = some rest) :
    rest.count c = text.count c := by
  cases text with
  | nil =>
      cases read
  | cons first behind =>
      simp only [afterBlanks?, Option.ite_none_right_eq_some, Option.some.injEq] at read
      obtain ⟨blank, rfl⟩ := read
      rw [← count_trimStart visible (first :: behind), trimStart, trimStart,
        List.dropWhile_cons_of_pos blank]

end Counting

/-! ## The characters -/

/-- What the characters of all ASCII codes satisfy, every ASCII character does. -/
theorem forall_ascii
    {motive : Char → Prop}
    (byCode : ∀ code < 0x80, motive (Char.ofNat code))
    {c : Char}
    (ascii : c.toNat < 0x80) :
    motive c := by
  have holds := byCode c.toNat ascii
  rwa [Char.ofNat_toNat] at holds

/-- The code points of all blanks. -/
def blankCodes : List Nat :=
  List.range' 0x9 5 ++ List.range' 0x2000 11 ++
    [0x20, 0x85, 0xA0, 0x1680, 0x2028, 0x2029, 0x202F, 0x205F, 0x3000]

/-- A blank is one of the listed characters. -/
theorem toNat_mem_blankCodes
    {c : Char}
    (blank : isBlank c = true) :
    c.toNat ∈ blankCodes := by
  unfold isBlank at blank
  split at blank
  · rcases (by simpa using blank) with rfl | ⟨first, last⟩
    · decide
    · simp only [blankCodes, List.mem_append, List.mem_range'_1]
      omega
  · simp only [wideBlanks, CharRanges.contains, List.any_cons, List.any_nil,
      Bool.or_false, Bool.or_eq_true, Bool.and_eq_true, decide_eq_true_eq] at blank
    simp only [blankCodes, List.mem_append, List.mem_range'_1, List.mem_cons]
    omega

end ClassicBasic.Text
