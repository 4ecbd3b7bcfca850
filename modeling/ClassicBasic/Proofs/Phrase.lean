import ClassicBasic.Phrase
import ClassicBasic.Proofs.Text.Blank
import Mathlib.Data.List.TakeWhile

namespace ClassicBasic

/-!
# What a reading tells of its text

A keyword that has been read is the word that its text leads with, a name or a
type is never empty, and a phrase behind an optional keyword is read with the
keyword or without it.  A name is exactly what stands in front of the first
character that cannot continue it.
-/

/-- A run of items of a class and what follows it: the run is as long as it can be. -/
theorem span_eq_iff
    {α : Type}
    {inClass : α → Bool}
    {items run rest : List α} :
    (items.takeWhile inClass = run ∧ items.dropWhile inClass = rest) ↔
      items = run ++ rest ∧
        (∀ item ∈ run, inClass item = true) ∧
        ∀ item ∈ rest.head?, inClass item = false := by
  constructor
  · rintro ⟨rfl, rfl⟩
    refine ⟨List.takeWhile_append_dropWhile.symm, ?_, ?_⟩
    · intro item member
      exact List.mem_takeWhile_imp member
    · intro item opens
      have stops := List.head?_dropWhile_not inClass items
      rw [Option.mem_def.mp opens] at stops
      simpa using stops
  · rintro ⟨rfl, isRun, stops⟩
    have nothing : rest.takeWhile inClass = [] := by
      cases rest with
      | nil =>
          rfl
      | cons item rest =>
          simp [stops item rfl]
    have all : rest.dropWhile inClass = rest := by
      cases rest with
      | nil =>
          rfl
      | cons item rest =>
          simp [stops item rfl]
    rw [List.takeWhile_append_of_pos isRun, List.dropWhile_append_of_pos isRun,
      nothing, all, List.append_nil]
    exact ⟨rfl, rfl⟩

/-- A text is cut at the first of a character that it does not have before. -/
theorem Text.span_of_not_mem
    {separator : Char}
    {word : Text}
    (bare : separator ∉ word)
    (rest : Text) :
    (word ++ separator :: rest).takeWhile (· ≠ separator) = word ∧
      (word ++ separator :: rest).dropWhile (· ≠ separator) = separator :: rest := by
  refine span_eq_iff.mpr ⟨rfl, ?_, ?_⟩
  · intro c member
    refine decide_eq_true ?_
    rintro rfl
    exact bare member
  · rintro c ⟨⟩
    simp

/-- A text is cut in only one way in front of the first character that is not of
a class. -/
theorem Text.tail_eq_of_append_eq
    {inClass : Char → Bool}
    {front front' rest rest' : Text}
    (same : front ++ rest = front' ++ rest')
    (isRun : ∀ c ∈ front, inClass c = true)
    (isRun' : ∀ c ∈ front', inClass c = true)
    (stops : ∀ c ∈ rest.head?, inClass c = false)
    (stops' : ∀ c ∈ rest'.head?, inClass c = false) :
    rest = rest' :=
  (span_eq_iff.mpr ⟨rfl, isRun, stops⟩).2.symm.trans
    (span_eq_iff.mpr ⟨same, isRun', stops'⟩).2

/-- A word with a space behind it is taken off together with all blanks. -/
theorem Text.wordThenBlanks?_of_word
    {word rest : Text}
    (isWord : word.all isVisible = true) :
    wordThenBlanks? (word ++ ' ' :: rest) = some (word, trimStart rest) := by
  have runs : ∀ c ∈ word, (!isBlank c) = true :=
    List.all_eq_true.mp isWord
  have stops : ∀ c ∈ (' ' :: rest).head?, (!isBlank c) = false := by
    intro c opens
    cases opens
    decide
  obtain ⟨leads, follows⟩ := span_eq_iff.mpr ⟨rfl, runs, stops⟩
  simp only [wordThenBlanks?, leadingWord, afterLeadingWord, leads, follows, afterBlanks?]
  rfl

/-- What is attached to a word belongs to it. -/
theorem Text.mem_leadingWord_append
    {word : Text}
    {c : Char}
    (isWord : word.all isVisible = true)
    (attached : isBlank c = false)
    (rest : Text) :
    c ∈ leadingWord (word ++ c :: rest) := by
  have runs : ∀ d ∈ word, (!isBlank d) = true :=
    List.all_eq_true.mp isWord
  rw [leadingWord, List.takeWhile_append_of_pos runs, List.takeWhile_cons_of_pos (by simpa)]
  exact List.mem_append_right _ List.mem_cons_self

namespace Phrase

/-! ## Keywords -/

/-- A keyword that is read is the leading word. -/
theorem leadingWord_of_keyword?
    {recognise : Text → Option α}
    {text rest : Text}
    {found : α}
    (read : keyword? recognise text = some (found, rest)) :
    recognise (Text.leadingWord text) = some found := by
  obtain ⟨⟨word, behind⟩, leads, recognised⟩ := Option.bind_eq_some_iff.mp read
  obtain ⟨blanks, -, same⟩ := Option.map_eq_some_iff.mp leads
  cases same
  obtain ⟨value, known, same⟩ := Option.bind_eq_some_iff.mp recognised
  cases same
  exact known

/-- No keyword is read where the leading word is none. -/
theorem keyword?_eq_none
    {recognise : Text → Option α}
    {text : Text}
    (unknown : recognise (Text.leadingWord text) = none) :
    keyword? recognise text = none := by
  cases read : keyword? recognise text with
  | none =>
      rfl
  | some pair =>
      obtain ⟨found, rest⟩ := pair
      rw [leadingWord_of_keyword? read] at unknown
      cases unknown

/-- A word in front of a text is a keyword exactly if it is recognised. -/
theorem keyword?_append_blank
    {word : Text}
    (recognise : Text → Option α)
    (isWord : word.all Text.isVisible = true)
    (rest : Text) :
    keyword? recognise (word ++ ' ' :: rest) =
      (recognise word).map fun found => (found, Text.trimStart rest) := by
  rw [keyword?, Text.wordThenBlanks?_of_word isWord]
  exact (Option.map_eq_bind ..).symm

/-- Whether a word is read as a keyword depends on the word alone, and what is left
begins behind its blank. -/
theorem keyword?_append
    {word rest : Text}
    (recognise : Text → Option α)
    (isWord : word.all Text.isVisible = true)
    (starts : Text.trimStart rest = rest) :
    keyword? recognise (word ++ ' ' :: rest) =
      (recognise word).map fun found => (found, rest) := by
  rw [keyword?_append_blank recognise isWord, starts]

/-- A word with nothing behind it is no keyword. -/
theorem keyword?_of_nothing
    {word : Text}
    (recognise : Text → Option α)
    (isWord : word.all Text.isVisible = true) :
    keyword? recognise word = none := by
  have nothing : Text.afterLeadingWord word = [] :=
    List.dropWhile_eq_nil_iff.mpr fun c member => List.all_eq_true.mp isWord c member
  simp [keyword?, Text.wordThenBlanks?, nothing, Text.afterBlanks?]

/-- A keyword behind which a phrase is read is one. -/
theorem optionally_of_keyword
    {recognise : Text → Option α}
    {text rest : Text}
    {found : α}
    {readOn : Option α → Text → Option β}
    {value : β}
    (keyword : keyword? recognise text = some (found, rest))
    (reads : readOn (some found) rest = some value) :
    optionally recognise text readOn = some value := by
  simp [optionally, keyword, reads]

/-- A keyword behind which no phrase is read belongs to the phrase. -/
theorem optionally_of_fails
    {recognise : Text → Option α}
    {text : Text}
    {readOn : Option α → Text → Option β}
    (fails :
      ∀ found rest,
        keyword? recognise text = some (found, rest) → readOn (some found) rest = none) :
    optionally recognise text readOn = readOn none text := by
  cases keyword : keyword? recognise text with
  | none =>
      simp [optionally, keyword]
  | some pair =>
      simp [optionally, keyword, fails pair.1 pair.2 keyword]

/-- A phrase is read behind its keyword, or from the whole text. -/
theorem optionally_eq_some
    {recognise : Text → Option α}
    {text : Text}
    {readOn : Option α → Text → Option β}
    {value : β}
    (read : optionally recognise text readOn = some value) :
    (∃ found rest,
        keyword? recognise text = some (found, rest) ∧
          readOn (some found) rest = some value) ∨
      readOn none text = some value := by
  unfold optionally at read
  cases keyword : keyword? recognise text with
  | none =>
      rw [keyword] at read
      exact .inr (by simpa using read)
  | some pair =>
      rcases pair with ⟨found, rest⟩
      rw [keyword, Option.bind_some] at read
      cases behind : readOn (some found) rest with
      | none =>
          simp only [behind] at read
          exact .inr (by simpa using read)
      | some other =>
          simp only [behind] at read
          refine .inl ⟨found, rest, rfl, ?_⟩
          rw [behind]
          simpa using read

/-- With its keyword or without it, a phrase is read on from some text. -/
theorem exists_readOn_of_optionally
    {recognise : Text → Option α}
    {text : Text}
    {readOn : Option α → Text → Option β}
    {value : β}
    (read : optionally recognise text readOn = some value) :
    ∃ found rest, readOn found rest = some value := by
  rcases optionally_eq_some read with ⟨found, rest, -, readsOn⟩ | readsOn
  · exact ⟨some found, rest, readsOn⟩
  · exact ⟨none, text, readsOn⟩

/-! ## Names -/

/-- Whether a text is a name that begins with a character of the given class. -/
def IsNameFrom (start : Char → Bool) : Text → Prop
  | [] => False
  | c :: rest => start c = true ∧ ∀ d ∈ rest, isNameChar d = true

/-- Whether a text is a name: a letter, and then letters, digits and
underscores. -/
def IsName : Text → Prop :=
  IsNameFrom Char.isAlpha

instance (start : Char → Bool) : DecidablePred (IsNameFrom start)
  | [] => isFalse id
  | c :: rest =>
      decidable_of_iff (start c = true ∧ rest.all isNameChar = true)
        (and_congr_right' List.all_eq_true)

instance : DecidablePred IsName :=
  inferInstanceAs (DecidablePred (IsNameFrom Char.isAlpha))

/-- A character that continues a name is visible ASCII. -/
theorem toNat_of_isNameChar
    {c : Char}
    (continues : isNameChar c = true) :
    ' '.toNat < c.toNat ∧ c.toNat < 0x80 := by
  have within
      {first last : Char}
      (above : first.val ≤ c.val)
      (below : c.val ≤ last.val)
      (visible : ' '.toNat < first.toNat)
      (ascii : last.toNat < 0x80) :
      ' '.toNat < c.toNat ∧ c.toNat < 0x80 :=
    ⟨Nat.lt_of_lt_of_le visible above, Nat.lt_of_le_of_lt below ascii⟩
  rcases Bool.or_eq_true_iff.mp continues with letterOrDigit | underscore
  · rcases Bool.or_eq_true_iff.mp letterOrDigit with letter | digit
    · rcases Bool.or_eq_true_iff.mp letter with upper | lower
      · obtain ⟨above, below⟩ := of_decide_eq_true upper
        exact within above below (by decide) (by decide)
      · obtain ⟨above, below⟩ := Bool.and_eq_true_iff.mp lower
        exact
          within (of_decide_eq_true above) (of_decide_eq_true below) (by decide) (by decide)
    · obtain ⟨above, below⟩ := Bool.and_eq_true_iff.mp digit
      exact
        within (of_decide_eq_true above) (of_decide_eq_true below) (by decide) (by decide)
  · rw [of_decide_eq_true underscore]
    decide

/-- No character of a name is blank. -/
theorem isBlank_of_isNameChar
    {c : Char}
    (continues : isNameChar c = true) :
    Text.isBlank c = false := by
  obtain ⟨above, below⟩ := toNat_of_isNameChar continues
  have isNoSpace : c ≠ ' ' := by
    rintro rfl
    exact Nat.lt_irrefl _ above
  have isNoBreak : ¬ c.toNat ≤ 13 := by
    change 32 < c.toNat at above
    omega
  simp [Text.isBlank, below, isNoSpace, isNoBreak]

/-- All characters of a name may stand in a name. -/
theorem IsName.isNameChar_of_mem
    {name : Text}
    (isName : IsName name) :
    ∀ c ∈ name, isNameChar c = true := by
  cases name with
  | nil =>
      exact isName.elim
  | cons first rest =>
      intro c member
      rcases List.mem_cons.mp member with rfl | inRest
      · simp [isNameChar, Char.isAlphanum, isName.1]
      · exact isName.2 c inRest

/-- A name is read to its last character. -/
theorem nameFrom?_eq_some_iff
    {start : Char → Bool}
    {text name rest : Text} :
    nameFrom? start text = some (name, rest) ↔
      text = name ++ rest ∧
        IsNameFrom start name ∧
        ∀ c ∈ rest.head?, isNameChar c = false := by
  constructor
  · intro read
    cases text with
    | nil =>
        simp [nameFrom?] at read
    | cons c behind =>
        simp only [nameFrom?, Option.ite_none_right_eq_some, Option.some.injEq,
          Prod.mk.injEq] at read
        obtain ⟨begins, rfl, rfl⟩ := read
        obtain ⟨whole, isRun, stops⟩ :=
          span_eq_iff.mp
            (⟨rfl, rfl⟩ :
              behind.takeWhile isNameChar = _ ∧ behind.dropWhile isNameChar = _)
        exact ⟨congrArg (c :: ·) whole, ⟨begins, isRun⟩, stops⟩
  · rintro ⟨rfl, isName, stops⟩
    cases name with
    | nil =>
        exact isName.elim
    | cons c behind =>
        obtain ⟨begins, isRun⟩ := isName
        obtain ⟨run, others⟩ :=
          span_eq_iff.mpr ⟨rfl, isRun, stops⟩
        simp only [List.cons_append, nameFrom?, begins, if_true, run, others]

/-- No blank stands in front of a name. -/
theorem IsName.trimStart_append
    {name : Text}
    (isName : IsName name)
    (rest : Text) :
    Text.trimStart (name ++ rest) = name ++ rest := by
  cases name with
  | nil =>
      exact isName.elim
  | cons c behind =>
      exact
        Text.trimStart_cons_visible
          (isBlank_of_isNameChar (isName.isNameChar_of_mem c List.mem_cons_self)) _

/-- A word in front of a name is a keyword exactly if it is recognised. -/
theorem keyword?_of_word
    {word name : Text}
    (recognise : Text → Option α)
    (isWord : word.all Text.isVisible = true)
    (isName : IsName name)
    (rest : Text) :
    keyword? recognise (word ++ ' ' :: (name ++ rest)) =
      (recognise word).map fun found => (found, name ++ rest) :=
  keyword?_append recognise isWord (isName.trimStart_append rest)

/-- A name that is read is not empty. -/
theorem ne_nil_of_nameFrom?
    {start : Char → Bool}
    {text name rest : Text}
    (read : nameFrom? start text = some (name, rest)) :
    name ≠ [] := by
  obtain ⟨-, isName, -⟩ := nameFrom?_eq_some_iff.mp read
  rintro rfl
  exact isName

/-- The name of a type that is read is not empty. -/
theorem ne_nil_of_typeName?
    {text typeName rest : Text}
    (read : typeName? text = some (typeName, rest)) :
    typeName ≠ [] := by
  obtain ⟨⟨first, behind⟩, named, qualified⟩ := Option.bind_eq_some_iff.mp read
  have nonEmpty := ne_nil_of_nameFrom? named
  dsimp only at qualified
  split at qualified
  · cases qualified
    simp
  · cases qualified
    exact nonEmpty

end Phrase

end ClassicBasic
