import ClassicBasic.Proofs.Phrase
import ClassicBasic.Proofs.Text.Blank

namespace ClassicBasic

/-!
# Phrases written and read back

A phrase that is written in front of a text is read from it, provided that what
follows cannot continue it.  Behind a name stands the end, an opening parenthesis or
a blank; behind a type stands the end or a blank; and a value goes to the end.
-/

namespace Text

/-- Whether a text is visible and has no blanks around it. -/
def IsTrimmed (text : Text) : Prop :=
  text ≠ [] ∧ trim text = text

instance : DecidablePred IsTrimmed :=
  fun text => inferInstanceAs (Decidable (text ≠ [] ∧ trim text = text))

namespace IsTrimmed

variable
  {text : Text}
  (isTrimmed : IsTrimmed text)
include isTrimmed

/-- A trimmed text begins with no blank. -/
theorem trimStart_eq :
    trimStart text = text := by
  rw [← isTrimmed.2, trimStart_trim]

/-- No blank is trimmed in front of a trimmed text, whatever follows. -/
theorem trimStart_append
    (rest : Text) :
    trimStart (text ++ rest) = text ++ rest := by
  have starts := isTrimmed.trimStart_eq
  rw [Text.trimStart_append (by rw [starts]; exact isTrimmed.1), starts]

/-- Only the ends of a text matter to its being trimmed. -/
theorem append
    {last : Text}
    (between : Text)
    (endsTrimmed : IsTrimmed last) :
    IsTrimmed (text ++ (between ++ last)) := by
  refine ⟨by simp [isTrimmed.1], ?_⟩
  have isVisible : trim last ≠ [] := by
    rw [endsTrimmed.2]
    exact endsTrimmed.1
  have ends := trimEnd_append_trim isVisible (text ++ between)
  rw [endsTrimmed.2, List.append_assoc] at ends
  rw [trim, isTrimmed.trimStart_append, ends]

end IsTrimmed

/-- A part that is trimmed is not left out as an empty one. -/
theorem filter_of_isTrimmed
    {part : Option Text}
    (areTrimmed : ∀ text ∈ part, IsTrimmed text) :
    part.filter (fun text => !text.isEmpty) = part := by
  cases part with
  | none =>
      rfl
  | some text =>
      have isVisible := (areTrimmed text rfl).1
      simp [Option.filter, isVisible]

/-- A text without blanks is trimmed. -/
theorem isTrimmed_of_visible
    {text : Text}
    (isVisible : text ≠ [])
    (visible : ∀ c ∈ text, isBlank c = false) :
    IsTrimmed text := by
  refine ⟨isVisible, ?_⟩
  have starts : trimStart text = text := by
    cases text with
    | nil =>
        rfl
    | cons c rest =>
        exact trimStart_cons_visible (visible c List.mem_cons_self) rest
  obtain ⟨front, last, rfl⟩ := (List.eq_nil_or_concat' text).resolve_left isVisible
  rw [trim, starts, trimEnd_append_visible (visible last (by simp))]

/-- A space is enough to go on behind blanks. -/
theorem afterBlanks?_space
    (text : Text) :
    afterBlanks? (' ' :: text) = some (trimStart text) :=
  rfl

/-- A word leads a text if a blank stands behind it, or nothing. -/
theorem leadingWord_append
    {word : Text}
    (visible : ∀ c ∈ word, isBlank c = false)
    {rest : Text}
    (stops : ∀ c ∈ rest.head?, isBlank c = true) :
    leadingWord (word ++ rest) = word :=
  (span_eq_iff.mpr
    ⟨rfl, fun c member => by simp [visible c member],
      fun c opens => by simp [stops c opens]⟩).1

end Text

namespace Phrase

/-! ## Keywords -/

/-- Whether a text is a word: it has characters, and all of them are visible. -/
def IsWord (word : Text) : Prop :=
  word ≠ [] ∧ word.all Text.isVisible = true

instance : DecidablePred IsWord :=
  fun word => inferInstanceAs (Decidable (word ≠ [] ∧ word.all Text.isVisible = true))

/-- No character of a word is blank. -/
theorem IsWord.isBlank_eq_false
    {word : Text}
    (isWord : IsWord word) :
    ∀ c ∈ word, Text.isBlank c = false := by
  simpa [Text.isVisible] using isWord.2

/-- No blank is trimmed in front of a word, whatever follows. -/
theorem IsWord.trimStart_append
    {word : Text}
    (isWord : IsWord word)
    (rest : Text) :
    Text.trimStart (word ++ rest) = word ++ rest :=
  (Text.isTrimmed_of_visible isWord.1 isWord.isBlank_eq_false).trimStart_append rest

/-- A keyword, if there is one, with the blank behind it. -/
def writtenKeyword (keyword : Option Text) : Text :=
  keyword.elim [] fun word => word ++ [' ']

/-- A keyword that is written is read if it is recognised. -/
theorem keyword?_written
    {word rest : Text}
    (isWord : IsWord word)
    (recognise : Text → Option α)
    (starts : Text.trimStart rest = rest) :
    keyword? recognise (writtenKeyword (some word) ++ rest) =
      (recognise word).map fun found => (found, rest) := by
  rw [writtenKeyword, Option.elim_some, List.append_assoc]
  exact keyword?_append recognise isWord.2 starts

section Keywords

variable
  {keyword : Option Text}
  (areWords : ∀ word ∈ keyword, IsWord word)
include areWords

/-- A trimmed text stays so with a keyword in front, or without one. -/
theorem isTrimmed_writtenKeyword
    {rest : Text}
    (isTrimmed : rest.IsTrimmed) :
    (writtenKeyword keyword ++ rest).IsTrimmed := by
  cases keyword with
  | none =>
      exact isTrimmed
  | some word =>
      have isWord := areWords word rfl
      rw [writtenKeyword, Option.elim_some, List.append_assoc]
      exact (Text.isTrimmed_of_visible isWord.1 isWord.isBlank_eq_false).append [' '] isTrimmed

/-- No blank stands in front of a keyword, nor of the text behind if there is no
keyword. -/
theorem trimStart_writtenKeyword
    {rest : Text}
    (starts : Text.trimStart rest = rest) :
    Text.trimStart (writtenKeyword keyword ++ rest) = writtenKeyword keyword ++ rest := by
  cases keyword with
  | none =>
      exact starts
  | some word =>
      rw [writtenKeyword, Option.elim_some, List.append_assoc]
      exact (areWords word rfl).trimStart_append _

/-- The keyword leads if there is one, and the text behind it otherwise. -/
theorem leadingWord_written
    (rest : Text) :
    Text.leadingWord (writtenKeyword keyword ++ rest) =
      keyword.getD (Text.leadingWord rest) := by
  cases keyword with
  | none =>
      rfl
  | some word =>
      have stops : ∀ c ∈ (' ' :: rest).head?, Text.isBlank c = true := by
        rintro c ⟨⟩
        decide
      rw [writtenKeyword, Option.elim_some, List.append_assoc, List.singleton_append,
        Text.leadingWord_append (areWords word rfl).isBlank_eq_false stops, Option.getD_some]

/-- A keyword that is written is read, and one that is not is not, provided that what
follows leads with another word. -/
theorem optionally_written
    {recognise : Text → Option α}
    {rest : Text}
    {readOn : Option α → Text → Option β}
    {value : β}
    (areKnown : ∀ word ∈ keyword, (recognise word).isSome = true)
    (starts : Text.trimStart rest = rest)
    (unknown : recognise (Text.leadingWord rest) = none)
    (reads : readOn (keyword.bind recognise) rest = some value) :
    optionally recognise (writtenKeyword keyword ++ rest) readOn = some value := by
  cases keyword with
  | none =>
      have notRead : keyword? recognise rest = none := keyword?_eq_none unknown
      rw [writtenKeyword, Option.elim_none, List.nil_append, optionally_of_fails]
      · exact reads
      · intro found behind read
        rw [notRead] at read
        cases read
  | some word =>
      obtain ⟨found, known⟩ := Option.isSome_iff_exists.mp (areKnown word rfl)
      rw [Option.bind_some, known] at reads
      have read :
          keyword? recognise (writtenKeyword (some word) ++ rest) = some (found, rest) := by
        rw [keyword?_written (areWords word rfl) recognise starts, known]
        rfl
      exact optionally_of_keyword read reads

end Keywords

/-! ## Names -/

/-- Whether a text is a name, which may have a type suffix. -/
def IsSuffixedName (text : Text) : Prop :=
  IsName text ∨
    ∃ name suffix, text = name ++ [suffix] ∧ IsName name ∧ suffix ∈ typeSuffixes

/-- A suffix of a type is no character of a name. -/
theorem not_isNameChar_of_suffix
    {suffix : Char}
    (isSuffix : suffix ∈ typeSuffixes) :
    isNameChar suffix = false := by
  have none : typeSuffixes.all (fun suffix => !isNameChar suffix) = true := by
    decide
  simpa using List.all_eq_true.mp none suffix isSuffix

/-- A name with a suffix has characters of names and suffixes only. -/
theorem IsSuffixedName.mem
    {name : Text}
    (isName : IsSuffixedName name) :
    ∀ c ∈ name, isNameChar c = true ∨ c ∈ typeSuffixes := by
  intro c member
  rcases isName with plain | ⟨front, suffix, rfl, plain, isSuffix⟩
  · exact .inl (plain.isNameChar_of_mem c member)
  · rcases List.mem_append.mp member with inFront | isLast
    · exact .inl (plain.isNameChar_of_mem c inFront)
    · rw [List.mem_singleton.mp isLast]
      exact .inr isSuffix

/-- A name with a suffix is not empty. -/
theorem IsSuffixedName.ne_nil
    {name : Text}
    (isName : IsSuffixedName name) :
    name ≠ [] := by
  rintro rfl
  rcases isName with plain | ⟨front, suffix, shape, -⟩
  · exact plain
  · simp at shape

/-- A name with its suffix is read up to where neither goes on. -/
theorem suffixedName?_append
    {name rest : Text}
    (isName : IsSuffixedName name)
    (stops : ∀ c ∈ rest.head?, isNameChar c = false ∧ c ∉ typeSuffixes) :
    suffixedName? (name ++ rest) = some (name, rest) := by
  rcases isName with plain | ⟨front, suffix, rfl, plain, isSuffix⟩
  · have named : name? (name ++ rest) = some (name, rest) :=
      nameFrom?_eq_some_iff.mpr ⟨rfl, plain, fun c opens => (stops c opens).1⟩
    rw [suffixedName?, named]
    cases rest with
    | nil =>
        rfl
    | cons c rest =>
        simp [(stops c rfl).2]
  · have named : name? (front ++ suffix :: rest) = some (front, suffix :: rest) := by
      refine nameFrom?_eq_some_iff.mpr ⟨rfl, plain, ?_⟩
      rintro c ⟨⟩
      exact not_isNameChar_of_suffix isSuffix
    rw [List.append_assoc, List.singleton_append, suffixedName?, named]
    simp [isSuffix]

/-! ## Types -/

/-- Whether a text names a type: a name, or two names with a dot between them. -/
def IsTypeName (text : Text) : Prop :=
  IsNameFrom isTypeStart text ∨
    ∃ first second,
      text = first ++ '.' :: second ∧
        IsNameFrom isTypeStart first ∧ IsNameFrom isTypeStart second

/-- The name of a type has characters of names only. -/
theorem IsNameFrom.isNameChar_of_mem
    {name : Text}
    (isName : IsNameFrom isTypeStart name) :
    ∀ c ∈ name, isNameChar c = true := by
  cases name with
  | nil =>
      exact isName.elim
  | cons first rest =>
      intro c member
      rcases List.mem_cons.mp member with rfl | inRest
      · have begins := isName.1
        simp only [isTypeStart, Bool.or_eq_true] at begins
        simp only [isNameChar, Char.isAlphanum, Bool.or_eq_true]
        exact begins.imp_left .inl
      · exact isName.2 c inRest

/-- A type is named by characters of names and dots only. -/
theorem IsTypeName.mem
    {name : Text}
    (isType : IsTypeName name) :
    ∀ c ∈ name, isNameChar c = true ∨ c = '.' := by
  intro c member
  rcases isType with plain | ⟨first, second, rfl, isFirst, isSecond⟩
  · exact .inl (plain.isNameChar_of_mem c member)
  · rcases List.mem_append.mp member with inFirst | inSecond
    · exact .inl (isFirst.isNameChar_of_mem c inFirst)
    · exact (List.mem_cons.mp inSecond).symm.imp_left (isSecond.isNameChar_of_mem c)

/-- What stands in no name and is no dot does not stand in the name of a type. -/
theorem IsTypeName.not_mem
    {name : Text}
    {c : Char}
    (isType : IsTypeName name)
    (stops : isNameChar c = false)
    (noDot : c ≠ '.') :
    c ∉ name := by
  intro member
  rcases isType.mem c member with continues | isDot
  · exact Bool.false_ne_true (stops.symm.trans continues)
  · exact noDot isDot

/-- The name of a type is a word. -/
theorem IsTypeName.isWord
    {name : Text}
    (isType : IsTypeName name) :
    IsWord name := by
  constructor
  · rintro rfl
    rcases isType with plain | ⟨first, second, shape, -⟩
    · exact plain
    · simp at shape
  · refine List.all_eq_true.mpr fun c member => ?_
    rcases isType.mem c member with continues | rfl
    · simp [Text.isVisible, isBlank_of_isNameChar continues]
    · decide

/-- The name of a type has no blanks at its ends. -/
theorem IsTypeName.isTrimmed
    {name : Text}
    (isType : IsTypeName name) :
    name.IsTrimmed :=
  Text.isTrimmed_of_visible isType.isWord.1 isType.isWord.isBlank_eq_false

/-- The name of a type is read up to where neither name nor dot goes on. -/
theorem typeName?_append
    {name rest : Text}
    (isType : IsTypeName name)
    (stops : ∀ c ∈ rest.head?, isNameChar c = false ∧ c ≠ '.') :
    typeName? (name ++ rest) = some (name, rest) := by
  have ends : ∀ c ∈ rest.head?, isNameChar c = false :=
    fun c opens => (stops c opens).1
  rcases isType with plain | ⟨first, second, rfl, isFirst, isSecond⟩
  · have named : nameFrom? isTypeStart (name ++ rest) = some (name, rest) :=
      nameFrom?_eq_some_iff.mpr ⟨rfl, plain, ends⟩
    have noDot : Text.after? ['.'] rest = none := by
      cases rest with
      | nil =>
          rfl
      | cons c rest =>
          exact if_neg (stops c rfl).2.symm
    simp [typeName?, named, noDot]
  · have named :
        nameFrom? isTypeStart (first ++ '.' :: (second ++ rest)) =
          some (first, '.' :: (second ++ rest)) := by
      refine nameFrom?_eq_some_iff.mpr ⟨rfl, isFirst, ?_⟩
      rintro c ⟨⟩
      decide
    have again : nameFrom? isTypeStart (second ++ rest) = some (second, rest) :=
      nameFrom?_eq_some_iff.mpr ⟨rfl, isSecond, ends⟩
    have dot : Text.after? ['.'] ('.' :: (second ++ rest)) = some (second ++ rest) := rfl
    rw [List.append_assoc, List.cons_append]
    simp [typeName?, named, dot, again]

/-- A type clause as it is written. -/
def writtenType (typeName : Option Text) : Text :=
  typeName.elim [] fun name => " As " ++ name

/-- A trimmed text stays so with a type behind it, or without one. -/
theorem isTrimmed_append_writtenType
    {text : Text}
    {typeName : Option Text}
    (isTrimmed : text.IsTrimmed)
    (areTypes : ∀ name ∈ typeName, IsTypeName name) :
    (text ++ writtenType typeName).IsTrimmed := by
  cases typeName with
  | none =>
      rwa [writtenType, Option.elim_none, List.append_nil]
  | some name =>
      exact isTrimmed.append " As " (areTypes name rfl).isTrimmed

/-- What is written behind the keyword of a type is read from there. -/
theorem afterAs?_written
    {name : Text}
    (isTrimmed : name.IsTrimmed)
    (rest : Text) :
    afterAs? (" As " ++ (name ++ rest)) = some (name ++ rest) := by
  have keyword : Text.trimStart ('A' :: 's' :: ' ' :: (name ++ rest)) = _ :=
    Text.trimStart_cons_visible (by decide) _
  change afterAs? (' ' :: 'A' :: 's' :: ' ' :: (name ++ rest)) = _
  rw [afterAs?, Text.afterBlanks?_space, keyword]
  change Text.afterBlanks? (' ' :: (name ++ rest)) = _
  rw [Text.afterBlanks?_space, isTrimmed.trimStart_append]

/-- Only the word `As` sets off a type. -/
theorem afterAs?_of_word
    {word rest : Text}
    (isWord : IsWord word)
    (different : word ≠ "As")
    (stops : ∀ c ∈ rest.head?, Text.isBlank c = true) :
    afterAs? (' ' :: (word ++ rest)) = none := by
  have leads := Text.leadingWord_append isWord.isBlank_eq_false stops
  rw [afterAs?, Text.afterBlanks?_space, isWord.trimStart_append, Option.bind_eq_bind,
    Option.bind_some]
  refine Option.bind_eq_none_iff.mpr fun behind keyword => ?_
  rw [Text.after?_eq_some_iff.mp keyword] at leads
  cases behind with
  | nil =>
      rfl
  | cons c others =>
      refine if_neg fun blank => different ?_
      have stopsThere : ∀ d ∈ (c :: others).head?, Text.isBlank d = true := by
        rintro d ⟨⟩
        exact blank
      have isWord : IsWord "As" := by
        decide
      rw [Text.leadingWord_append isWord.isBlank_eq_false stopsThere] at leads
      exact leads.symm

/-! ## Values -/

/-- Whether a text can be a value: it is trimmed and has no line feed. -/
def IsValue (value : Text) : Prop :=
  value.IsTrimmed ∧ '\n' ∉ value

instance : DecidablePred IsValue :=
  fun value => inferInstanceAs (Decidable (value.IsTrimmed ∧ '\n' ∉ value))

/-- A value at the end of a declaration or parameter, as it is written. -/
def writtenValue (value : Option Text) : Text :=
  value.elim [] fun value => " = " ++ value

/-- A trimmed text stays so with a value behind it, or without one. -/
theorem isTrimmed_append_writtenValue
    {text : Text}
    {value : Option Text}
    (isTrimmed : text.IsTrimmed)
    (areValues : ∀ text ∈ value, IsValue text) :
    (text ++ writtenValue value).IsTrimmed := by
  cases value with
  | none =>
      rwa [writtenValue, Option.elim_none, List.append_nil]
  | some last =>
      exact isTrimmed.append " = " (areValues last rfl).1

/-- A value that is written at the end is read back, or none if there is none. -/
theorem finalValue?_written
    {value : Option Text}
    (areValues : ∀ text ∈ value, IsValue text) :
    finalValue? (writtenValue value) = some value := by
  cases value with
  | none =>
      rfl
  | some text =>
      obtain ⟨⟨isVisible, isTrimmed⟩, noBreak⟩ := areValues text rfl
      have equals : Text.trimStart (" = " ++ text) = '=' :: ' ' :: text := rfl
      have behind : Text.after? "=" ('=' :: ' ' :: text) = some (' ' :: text) := rfl
      have stays : Text.trim (' ' :: text) = text := by
        rw [Text.trim_cons_blank (by decide), isTrimmed]
      change finalValue? (" = " ++ text) = _
      rw [finalValue?, if_neg (by simp), equals, behind, Option.bind_eq_bind,
        Option.bind_some, stays]
      split
      · exact (isVisible rfl).elim
      · rw [if_neg (by simpa using noBreak)]

end Phrase

end ClassicBasic
