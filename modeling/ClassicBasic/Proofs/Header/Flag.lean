import ClassicBasic.Module
import ClassicBasic.Proofs.Header
import ClassicBasic.Proofs.Text.Blank

namespace ClassicBasic.Header

/-!
# The values of flag lines

A flag line is searched for the first number behind an equals sign, from its start to
its end.  The search goes on behind a comment marker, so a comment decides where
the text in front of it holds no number behind an equals sign, and nowhere else.
-/

/-! ## Numbers -/

/-- A digit of a word is a word character. -/
theorem isWordChar_of_isWordDigit
    {c : Char}
    (digit : Text.isWordDigit c = true) :
    Text.isWordChar c = true := by
  simp [Text.isWordChar, digit]

/-- No blank is a word character. -/
theorem not_wordChar_of_isBlank
    {c : Char}
    (blank : Text.isBlank c = true) :
    Text.isWordChar c = false := by
  have none :
      ∀ code ∈ Text.blankCodes, Text.isWordChar (Char.ofNat code) = false := by
    decide +kernel
  rw [← Char.ofNat_toNat c]
  exact none c.toNat (Text.toNat_mem_blankCodes blank)

section

variable
  {c : Char}
  (noWord : Text.isWordChar c = false)

include noWord

/-- Digits end in front of a character that continues no word, and so does whatever
follows them. -/
theorem wordDigits_append_cons
    (text rest : Text) :
    (text ++ c :: rest).takeWhile Text.isWordDigit = text.takeWhile Text.isWordDigit ∧
      ((text ++ c :: rest).dropWhile Text.isWordDigit).head?.any Text.isWordChar =
        (text.dropWhile Text.isWordDigit).head?.any Text.isWordChar := by
  have noDigit : Text.isWordDigit c = false := by
    by_contra digit
    rw [isWordChar_of_isWordDigit (by simpa using digit)] at noWord
    cases noWord
  induction text with
  | nil =>
      simp [noDigit, noWord]
  | cons d text inductionHypothesis =>
      cases digit : Text.isWordDigit d with
      | true =>
          simpa [digit] using inductionHypothesis
      | false =>
          simp [digit]

/-- A number ends in front of a character that continues no word. -/
theorem flagDigits?_append_cons
    (noSign : c ≠ '-')
    (text rest : Text) :
    flagDigits? (text ++ c :: rest) = flagDigits? text := by
  have same (text : Text) := wordDigits_append_cons noWord text rest
  cases text with
  | nil =>
      have ends := same []
      rw [List.nil_append] at ends
      simp [flagDigits?, noSign, ends]
  | cons d text =>
      by_cases signed : d = '-'
      · subst d
        simp [flagDigits?, same]
      · have ends := same (d :: text)
        rw [List.cons_append] at ends
        simp [flagDigits?, signed, ends]

end

/-- Blanks behind a number do not matter. -/
theorem flagDigits?_trimStart_append_blanks
    {blanks : Text}
    (areBlank : ∀ c ∈ blanks, Text.isBlank c = true)
    (text : Text) :
    flagDigits? (Text.trimStart (text ++ blanks)) = flagDigits? (Text.trimStart text) := by
  cases blanks with
  | nil =>
      rw [List.append_nil]
  | cons blank blanks =>
      have noWord := not_wordChar_of_isBlank (areBlank blank List.mem_cons_self)
      have noSign : blank ≠ '-' := by
        rintro rfl
        exact absurd (areBlank '-' List.mem_cons_self) (by decide)
      cases starts : Text.trimStart text with
      | nil =>
          have allBlank : Text.trimStart (text ++ blank :: blanks) = [] := by
            rw [Text.trimStart, List.dropWhile_eq_nil_iff] at starts ⊢
            intro c member
            rcases List.mem_append.mp member with inText | isBehind
            · exact starts c inText
            · exact areBlank c isBehind
          rw [allBlank]
      | cons c rest =>
          have visible : Text.trimStart text ≠ [] := by
            rw [starts]
            exact List.cons_ne_nil c rest
          rw [Text.trimStart_append visible, starts,
            flagDigits?_append_cons noWord noSign]

/-! ## Numbers behind equals signs -/

/-- What follows a text that it cannot continue a number of is searched behind it. -/
theorem writtenFlag?_append
    {more : Text}
    (same :
      ∀ text,
        flagDigits? (Text.trimStart (text ++ more)) = flagDigits? (Text.trimStart text))
    (text : Text) :
    writtenFlag? (text ++ more) = (writtenFlag? text).or (writtenFlag? more) := by
  induction text with
  | nil =>
      rfl
  | cons c text inductionHypothesis =>
      rw [List.cons_append, writtenFlag?, writtenFlag?, same, inductionHypothesis]
      split
      · cases flagDigits? (Text.trimStart text) <;>
          rfl
      · rfl

/-- What stands in front of the first equals sign does not matter. -/
theorem writtenFlag?_append_left
    {front : Text}
    (noSign : '=' ∉ front)
    (rest : Text) :
    writtenFlag? (front ++ rest) = writtenFlag? rest := by
  induction front with
  | nil =>
      rfl
  | cons c front inductionHypothesis =>
      obtain ⟨different, noLater⟩ : '=' ≠ c ∧ '=' ∉ front := by
        simpa using noSign
      rw [List.cons_append, writtenFlag?, if_neg different.symm]
      exact inductionHypothesis noLater

/-- Characters in front of a flag that are no sign do not matter. -/
theorem writtenFlag?_dropWhile
    {skips : Char → Bool}
    (stops : skips '=' = false)
    (text : Text) :
    writtenFlag? (text.dropWhile skips) = writtenFlag? text := by
  have noSign : '=' ∉ text.takeWhile skips := by
    intro member
    rw [List.mem_takeWhile_imp member] at stops
    cases stops
  have front := writtenFlag?_append_left noSign (text.dropWhile skips)
  rwa [List.takeWhile_append_dropWhile, eq_comm] at front

/-- Blanks behind a flag do not matter. -/
theorem writtenFlag?_trimEnd
    (text : Text) :
    writtenFlag? (Text.trimEnd text) = writtenFlag? text := by
  obtain ⟨blanks, whole, areBlank⟩ := Text.exists_blanks_of_trimEnd text
  have noSign : '=' ∉ blanks := Text.not_mem_of_blank (by decide) areBlank
  have nothing := writtenFlag?_append_left noSign []
  rw [List.append_nil] at nothing
  have cut :=
    writtenFlag?_append (flagDigits?_trimStart_append_blanks areBlank)
      (Text.trimEnd text)
  rw [nothing, ← whole] at cut
  rw [cut]
  exact Option.or_none.symm

/-- Neither blanks at the ends of a line nor byte order marks matter to its flag. -/
theorem flag?_strip
    (line : Text) :
    flag? (strip line) = flag? line := by
  have same : writtenFlag? (strip line) = writtenFlag? line := by
    rw [strip, Text.trim, writtenFlag?_trimEnd, Text.trimStart,
      writtenFlag?_dropWhile (by decide), writtenFlag?_dropWhile (by decide)]
  rw [flag?, flag?, same]

/-- The search for a flag goes on in the comment. -/
theorem writtenFlag?_append_comment
    (code comment : Text) :
    writtenFlag? (code ++ Line.commentMarker :: comment) =
      (writtenFlag? code).or (writtenFlag? comment) := by
  have visible : Text.isBlank Line.commentMarker = false := by
    decide
  have noWord : Text.isWordChar Line.commentMarker = false := by
    decide +kernel
  have same (text : Text) :
      flagDigits? (Text.trimStart (text ++ Line.commentMarker :: comment)) =
        flagDigits? (Text.trimStart text) := by
    rw [Text.trimStart_append_cons visible,
      flagDigits?_append_cons noWord (by decide)]
  rw [writtenFlag?_append same, writtenFlag?, if_neg (by decide)]

/-- The comment decides on a flag only if the code in front of it states no number. -/
theorem flag?_append_comment
    (code comment : Text) :
    flag? (code ++ Line.commentMarker :: comment) =
      if (writtenFlag? code).isSome then flag? code else flag? comment := by
  rw [flag?, flag?, flag?, writtenFlag?_append_comment]
  cases writtenFlag? code <;>
    rfl

/-! ## Flag lines -/

/-- A flag is read at a position if the source has that line and the line states
one. -/
theorem toOption_flagAt
    (source : List Text)
    (position : Nat) :
    (flagAt source position).toOption = source[position]?.bind flag? := by
  cases isLine : source[position]? with
  | none =>
      simp [flagAt, lineAt, isLine, bind, Except.bind, Except.toOption]
  | some line =>
      simp only [flagAt, lineAt, isLine, bind, Except.bind, flag?_strip, Option.bind_some]
      cases flag? line <;>
        rfl

/-- A flag line with a comment gives the flag of its code if that states a number, in
range or not, and the flag of its comment otherwise.  So it gives what its code alone
gives exactly if the code states a number or the comment has no flag. -/
theorem flagAt_comment_iff
    {source : List Text}
    {position : Nat}
    {code comment : Text}
    (isLine : source[position]? = some (code ++ Line.commentMarker :: comment)) :
    (flagAt source position).toOption =
        (if (writtenFlag? code).isSome then flag? code else flag? comment) ∧
      ((flagAt source position).toOption =
          (flagAt (source.set position code) position).toOption ↔
        (writtenFlag? code).isSome ∨ flag? comment = none) := by
  have reads :
      (flagAt source position).toOption =
        if (writtenFlag? code).isSome then flag? code else flag? comment := by
    rw [toOption_flagAt, isLine, Option.bind_some, flag?_append_comment]
  have readsCode :
      (flagAt (source.set position code) position).toOption = flag? code := by
    obtain ⟨inside, -⟩ := List.getElem?_eq_some_iff.mp isLine
    rw [toOption_flagAt, List.getElem?_set_self inside, Option.bind_some]
  refine ⟨reads, ?_⟩
  rw [reads, readsCode]
  cases states : writtenFlag? code with
  | some written =>
      simp
  | none =>
      have noFlag : flag? code = none := by
        rw [flag?, states]
        rfl
      simp [noFlag]

/-- The code of the line states a number that is out of range, so the number in its
comment is not looked at. -/
theorem flagAt_comment_iff_outOfRange :
    let code : Text := "MultiUse = 2147483648 "
    let comment : Text := " = 7"
    let source : List Text := [classMarker, "BEGIN", code ++ Line.commentMarker :: comment]
    source[2]? = some (code ++ Line.commentMarker :: comment) ∧
      (flagAt source 2).toOption = none ∧
      (flagAt source 2).toOption = (flagAt (source.set 2 code) 2).toOption := by
  intro code comment source
  obtain ⟨reads, same⟩ :=
    flagAt_comment_iff
      (show source[2]? = some (code ++ Line.commentMarker :: comment) from rfl)
  refine ⟨rfl, reads.trans ?_, same.mpr (.inl ?_)⟩ <;>
    decide +kernel

/-- The code of a flag line has one equals sign and no number behind it, yet the class
gets a flag: the number that its comment says the flag used to be. -/
theorem exists_flag_from_comment :
    let code : Text := "  MultiUse = True "
    let comment : Text := "was = 5"
    let flagLine : Text := code ++ Line.commentMarker :: comment
    let header (line : Text) : List Text :=
      [classMarker, "BEGIN", line, "  Persistable = 0", "  DataBindingBehavior = 0",
        "  DataSourceBehavior = 0", "  MTSTransactionMode = 0", "END",
        "Attribute VB_Name = \"A\"", "Attribute VB_GlobalNameSpace = False",
        "Attribute VB_Creatable = True", "Attribute VB_PredeclaredId = False",
        "Attribute VB_Exposed = False"]
    (Line.splitComment flagLine).1 = Text.trimEnd code ∧
      code.count '=' = 1 ∧
      flagAt (header flagLine) 2 = .ok 5 ∧
      flagAt (header code) 2 = .error (malformed 2 "MultiUse = True" .noFlag) ∧
      (Module.parse "" (header flagLine) none).result.map Node.classFlags? =
        .ok (some ⟨5, 0, 0, 0, 0⟩) ∧
      (Module.parse "" (header code) none).result.map Node.classFlags? =
        .error ⟨FileFault.unnamed, malformed 2 "MultiUse = True" .noFlag⟩ := by
  decide +kernel

end ClassicBasic.Header
