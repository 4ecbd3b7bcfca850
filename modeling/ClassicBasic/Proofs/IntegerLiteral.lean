import ClassicBasic.IntegerLiteral
import ClassicBasic.Proofs.Phrase
import Mathlib.Data.Nat.Digits.Defs

namespace ClassicBasic.IntegerLiteral

/-!
# What integer literals denote

A literal has a sign, blanks, a marker of its base, digits and type suffixes, of
which only the digits have to be there.  The parts are told apart by the characters
that they can open and end with, so a text is a literal in one way at most.
-/

/-! ## Digits -/

/-- The digits of all bases, in the order of their values. -/
def digitChars : Text := "0123456789ABCDEF"

/-- The value of a digit, which may be a letter of either case.  A character that is
no digit has a value that no base has a digit for. -/
def placeOf (c : Char) : Nat :=
  digitChars.idxOf c.toUpper

/-- The bases that literals are written in. -/
inductive Radix where
  | decimal
  | octal
  | hexadecimal

namespace Radix

/-- The number of digits that a base has. -/
def base : Radix → Nat
  | .decimal => 10
  | .octal => 8
  | .hexadecimal => 16

/-- What tells the base of the digits behind it. -/
def markers : Radix → List Text
  | .decimal => [""]
  | .octal => ["&O", "&o"]
  | .hexadecimal => ["&H", "&h"]

/-- No base needs more than sixteen digits. -/
theorem base_le
    (radix : Radix) :
    radix.base ≤ 16 := by
  cases radix <;>
    decide

end Radix

/-- The digits of every base are ASCII characters. -/
theorem toNat_lt_of_isDigitIn
    {base : Nat}
    {c : Char}
    (isDigit : isDigitIn base c = true) :
    c.toNat < 0x80 := by
  simp only [isDigitIn, Char.isDigit, Bool.and_eq_true, Bool.or_eq_true, decide_eq_true_eq,
    Char.le_def, UInt32.le_iff_toNat_le] at isDigit
  obtain ⟨inRange, -⟩ := isDigit
  change c.val.toNat < 0x80
  rcases inRange with (⟨-, last⟩ | ⟨-, last⟩) | ⟨-, last⟩ <;>
    exact last.trans_lt (by decide)

/-- A character that has the value of a digit is an ASCII character. -/
theorem toNat_lt_of_placeOf
    {c : Char}
    (isDigit : placeOf c < 16) :
    c.toNat < 0x80 := by
  have areAscii : digitChars.all (·.toNat < 0x80) = true := by
    decide
  have member : c.toUpper ∈ digitChars :=
    List.idxOf_lt_length_iff.mp isDigit
  unfold Char.toUpper at member
  split at member
  · next isLetter =>
      exact (UInt32.le_iff_toNat_le.mp isLetter.2).trans_lt (by decide)
  · exact of_decide_eq_true (List.all_eq_true.mp areAscii c member)

/-- A character is a digit in a base if the base has a digit of its value. -/
theorem isDigitIn_iff
    (radix : Radix)
    (c : Char) :
    isDigitIn radix.base c = true ↔ placeOf c < radix.base := by
  have ascii {c : Char} (isAscii : c.toNat < 0x80) :
      isDigitIn radix.base c = true ↔ placeOf c < radix.base := by
    refine
      Text.forall_ascii
        (motive := fun c => isDigitIn radix.base c = true ↔ placeOf c < radix.base)
        ?_ isAscii
    cases radix <;>
      decide +kernel
  constructor
  · intro isDigit
    exact (ascii (toNat_lt_of_isDigitIn isDigit)).mp isDigit
  · intro isDigit
    have small := isDigit.trans_le radix.base_le
    exact (ascii (toNat_lt_of_placeOf small)).mpr isDigit

/-- A digit counts as many as its place among the digits says. -/
theorem digitValue_eq_placeOf
    {c : Char}
    (isDigit : placeOf c < 16) :
    digitValue c = placeOf c := by
  refine
    Text.forall_ascii (motive := fun c => placeOf c < 16 → digitValue c = placeOf c)
      ?_ (toNat_lt_of_placeOf isDigit) isDigit
  decide +kernel

/-- Digits are told from blanks, signs and suffixes. -/
theorem isApart_of_placeOf
    {c : Char}
    (isDigit : placeOf c < 16) :
    (Text.isBlank c = false ∧ c ∉ ['+', '-']) ∧ c ∉ ['&', '%', '^'] := by
  refine
    Text.forall_ascii
      (motive := fun c =>
        placeOf c < 16 →
          (Text.isBlank c = false ∧ c ∉ ['+', '-']) ∧ c ∉ ['&', '%', '^'])
      ?_ (toNat_lt_of_placeOf isDigit) isDigit
  decide +kernel

/-- Digits denote the sum of their values, each with the weight of its place. -/
theorem digitsValue_eq_ofDigits
    {base : Nat}
    {digits : Text}
    (areDigits : ∀ c ∈ digits, placeOf c < 16) :
    digitsValue base digits = Nat.ofDigits base (digits.reverse.map placeOf) := by
  rw [digitsValue, List.foldl_eq_foldr_reverse, Nat.ofDigits_eq_foldr, List.foldr_map]
  refine List.foldr_ext _ _ _ fun c member value => ?_
  rw [digitValue_eq_placeOf (areDigits c (List.mem_reverse.mp member)), Nat.cast_id,
    Nat.mul_comm, Nat.add_comm]

/-- One or more digits of a base are read as the number that they are in that
base. -/
theorem magnitudeIn?_eq_some_iff
    {radix : Radix}
    {digits : Text}
    {magnitude : Nat} :
    magnitudeIn? radix.base digits = some magnitude ↔
      digits ≠ [] ∧ (∀ c ∈ digits, placeOf c < radix.base) ∧
        Nat.ofDigits radix.base (digits.reverse.map placeOf) = magnitude := by
  have areDigits :
      digits.all (isDigitIn radix.base) = true ↔ ∀ c ∈ digits, placeOf c < radix.base := by
    simp only [List.all_eq_true, isDigitIn_iff]
  unfold magnitudeIn?
  constructor
  · intro read
    split at read
    · cases read
    · next written =>
        simp only [Bool.or_eq_true, List.isEmpty_iff, Bool.not_eq_true', not_or,
          Bool.not_eq_false] at written
        have places := areDigits.mp written.2
        refine ⟨written.1, places, ?_⟩
        rw [← Option.some.inj read, digitsValue_eq_ofDigits fun c member =>
          (places c member).trans_le radix.base_le]
  · rintro ⟨someDigit, places, rfl⟩
    rw [if_neg (by simp [someDigit, areDigits.mpr places]),
      digitsValue_eq_ofDigits fun c member => (places c member).trans_le radix.base_le]

/-! ## Parts of literals -/

/-- An integer literal, part by part. -/
structure Parts where
  sign : Text
  blanks : Text
  radix : Radix
  marker : Text
  digits : Text
  behind : Text
  isSign : sign ∈ [[], ['+'], ['-']]
  areBlank : ∀ c ∈ blanks, Text.isBlank c = true
  marks : marker ∈ radix.markers
  someDigit : digits ≠ []
  areDigits : ∀ c ∈ digits, placeOf c < radix.base
  areSuffixes : ∀ c ∈ behind, c ∈ ['&', '%', '^']

namespace Parts

/-- The literal as it is written. -/
def text (parts : Parts) : Text :=
  parts.sign ++ (parts.blanks ++ (parts.marker ++ parts.digits ++ parts.behind))

/-- The number that the digits denote. -/
def magnitude (parts : Parts) : Nat :=
  Nat.ofDigits parts.radix.base (parts.digits.reverse.map placeOf)

/-- The integer that the literal denotes. -/
def value (parts : Parts) : Int :=
  if parts.sign = ['-'] then -parts.magnitude else parts.magnitude

end Parts

/-! ## Signs -/

/-- A sign and the blanks behind it are told from anything that opens with neither. -/
theorem signed_append
    {sign blanks rest : Text}
    (isSign : sign ∈ [[], ['+'], ['-']])
    (areBlank : ∀ c ∈ blanks, Text.isBlank c = true)
    (opens : ∀ c ∈ rest.head?, Text.isBlank c = false ∧ c ∉ ['+', '-']) :
    signed (sign ++ (blanks ++ rest)) = (decide (sign = ['-']), rest) := by
  have visible : Text.trimStart (blanks ++ rest) = rest :=
    (span_eq_iff.mpr ⟨rfl, areBlank, fun c first => (opens c first).1⟩).2
  have unsigned : ∀ c ∈ (blanks ++ rest).head?, c ∉ ['+', '-'] := by
    cases blanks with
    | nil =>
        exact fun c first => (opens c first).2
    | cons blank more =>
        rintro c ⟨⟩ isSign
        have visible : Text.isBlank blank = false := by
          simp only [List.mem_cons, List.not_mem_nil, or_false] at isSign
          rcases isSign with rfl | rfl <;>
            decide
        exact Text.not_mem_of_blank visible areBlank List.mem_cons_self
  simp only [List.mem_cons, List.not_mem_nil, or_false] at isSign
  rcases isSign with rfl | rfl | rfl
  · -- Without a sign, what comes first must not be taken for one.
    rw [List.nil_append]
    unfold signed
    split
    · next rest same =>
        exact absurd (unsigned '-' (by simp [same])) (by decide)
    · next rest same =>
        exact absurd (unsigned '+' (by simp [same])) (by decide)
    · rw [visible]
      rfl
  · simp only [List.cons_append, List.nil_append, signed, visible]
    rfl
  · simp only [List.cons_append, List.nil_append, signed, visible]
    rfl

/-- In front of what a sign is taken from stand the sign, if any, and blanks. -/
theorem exists_sign
    (text : Text) :
    ∃ sign blanks,
      sign ∈ [[], ['+'], ['-']] ∧
        (∀ c ∈ blanks, Text.isBlank c = true) ∧
          text = sign ++ (blanks ++ (signed text).2) ∧
            (signed text).1 = decide (sign = ['-']) := by
  unfold signed
  split
  · next rest =>
      obtain ⟨blanks, whole, areBlank⟩ := Text.exists_blanks_of_trimStart rest
      exact ⟨['-'], blanks, by simp, areBlank, congrArg ('-' :: ·) whole, rfl⟩
  · next rest =>
      obtain ⟨blanks, whole, areBlank⟩ := Text.exists_blanks_of_trimStart rest
      exact ⟨['+'], blanks, by simp, areBlank, congrArg ('+' :: ·) whole, rfl⟩
  · obtain ⟨blanks, whole, areBlank⟩ := Text.exists_blanks_of_trimStart text
    exact ⟨[], blanks, by simp, areBlank, whole, rfl⟩

/-! ## Suffixes -/

/-- A suffix is one of three characters. -/
theorem contains_suffixes_iff
    {c : Char} :
    suffixes.contains c = true ↔ c ∈ ['&', '%', '^'] :=
  List.contains_iff_mem

/-- All suffixes are taken from a text, and nothing else. -/
theorem withoutSuffixes_append
    {front behind : Text}
    (ends : ∀ c ∈ front.getLast?, c ∉ ['&', '%', '^'])
    (areSuffixes : ∀ c ∈ behind, c ∈ ['&', '%', '^']) :
    withoutSuffixes (front ++ behind) = front := by
  have run :
      (behind.reverse ++ front.reverse).dropWhile suffixes.contains = front.reverse := by
    refine (span_eq_iff.mpr ⟨rfl, fun c member => ?_, fun c first => ?_⟩).2
    · exact contains_suffixes_iff.mpr (areSuffixes c (List.mem_reverse.mp member))
    · rw [List.head?_reverse] at first
      exact Bool.eq_false_iff.mpr (mt contains_suffixes_iff.mp (ends c first))
  rw [withoutSuffixes, List.reverse_append, run, List.reverse_reverse]

/-- Nothing but suffixes is taken from the end of a literal. -/
theorem exists_suffixes
    (text : Text) :
    ∃ behind,
      text = withoutSuffixes text ++ behind ∧ ∀ c ∈ behind, c ∈ ['&', '%', '^'] := by
  refine ⟨(text.reverse.takeWhile suffixes.contains).reverse, ?_, fun c member => ?_⟩
  · rw [withoutSuffixes, ← List.reverse_append, List.takeWhile_append_dropWhile,
      List.reverse_reverse]
  · exact contains_suffixes_iff.mp (List.mem_takeWhile_imp (List.mem_reverse.mp member))

/-! ## Markers -/

/-- Behind one of two markers stands what is found behind either. -/
theorem eq_append_of_afterEither?
    {first second text digits : Text}
    (found : afterEither? first second text = some digits) :
    text = first ++ digits ∨ text = second ++ digits := by
  rcases (Option.orElse_eq_some _ _ _).mp found with isFirst | ⟨-, isSecond⟩
  · exact .inl (Text.after?_eq_some_iff.mp isFirst)
  · exact .inr (Text.after?_eq_some_iff.mp isSecond)

/-- The digits of a base are read in that base behind each of its markers. -/
theorem magnitude?_append
    {radix : Radix}
    {marker digits : Text}
    (marks : marker ∈ radix.markers)
    (areDigits : ∀ c ∈ digits, placeOf c < radix.base) :
    magnitude? (marker ++ digits) = magnitudeIn? radix.base digits := by
  cases radix with
  | decimal =>
      have unmarked : ∀ c ∈ digits.head?, c ≠ '&' := by
        rintro c first rfl
        exact absurd (areDigits '&' (List.mem_of_head? first)) (by decide)
      obtain rfl : marker = [] := by
        simpa [Radix.markers] using marks
      cases digits with
      | nil =>
          rfl
      | cons c rest =>
          have noMarker : '&' ≠ c := (unmarked c rfl).symm
          simp [magnitude?, afterEither?, Text.after?, noMarker, Radix.base]
  | octal =>
      simp only [Radix.markers, List.mem_cons, List.not_mem_nil, or_false] at marks
      rcases marks with rfl | rfl <;>
        rfl
  | hexadecimal =>
      simp only [Radix.markers, List.mem_cons, List.not_mem_nil, or_false] at marks
      rcases marks with rfl | rfl <;>
        rfl

/-- A magnitude is read from digits behind the marker of their base. -/
theorem exists_marker
    {text : Text}
    {magnitude : Nat}
    (read : magnitude? text = some magnitude) :
    ∃ radix, ∃ marker ∈ Radix.markers radix, ∃ digits,
      text = marker ++ digits ∧ magnitudeIn? radix.base digits = some magnitude := by
  unfold magnitude? at read
  split at read
  · next _ digits isHexadecimal =>
      rcases eq_append_of_afterEither? isHexadecimal with rfl | rfl
      · exact ⟨.hexadecimal, _, by simp [Radix.markers], digits, rfl, read⟩
      · exact ⟨.hexadecimal, _, by simp [Radix.markers], digits, rfl, read⟩
  · next digits _ isOctal =>
      rcases eq_append_of_afterEither? isOctal with rfl | rfl
      · exact ⟨.octal, _, by simp [Radix.markers], digits, rfl, read⟩
      · exact ⟨.octal, _, by simp [Radix.markers], digits, rfl, read⟩
  · exact ⟨.decimal, [], by simp [Radix.markers], text, rfl, read⟩

/-! ## Literals -/

/-- A literal is read from what stands between its sign and its suffixes, if it is
in range. -/
theorem read?_eq
    (text : Text) :
    read? text =
      (magnitude? (withoutSuffixes (signed (Text.trim text)).2)).bind fun magnitude =>
        if magnitude ≤ maxMagnitude then
          some
            (Int64.ofInt
              (if (signed (Text.trim text)).1 then -magnitude else magnitude))
        else none :=
  rfl

namespace Parts

variable (parts : Parts)

/-- Neither sign takes a magnitude that fits out of the range of integers. -/
theorem toInt_ofInt_value
    (small : parts.magnitude ≤ 0x7FFFFFFFFFFFFFFF) :
    (Int64.ofInt parts.value).toInt = parts.value := by
  refine Int64.toInt_ofInt_of_le ?_ ?_ <;>
    unfold value <;>
    split <;>
    omega

/-- All digits of a literal stand for digits of its base, of which there are at most
sixteen. -/
theorem placeOf_lt
    {c : Char}
    (member : c ∈ parts.digits) :
    placeOf c < 16 :=
  (parts.areDigits c member).trans_le parts.radix.base_le

/-- Behind its sign and blanks, a literal opens with a marker or a digit. -/
theorem opens
    {c : Char}
    (first : c ∈ (parts.marker ++ parts.digits ++ parts.behind).head?) :
    Text.isBlank c = false ∧ c ∉ ['+', '-'] := by
  have isMarker : ∀ marker ∈ parts.radix.markers, marker.head? ∈ [none, some '&'] := by
    cases parts.radix <;>
      decide
  cases marked : parts.marker with
  | cons mark more =>
      rw [marked] at first
      obtain rfl : mark = c := by simpa using first
      obtain rfl : mark = '&' := by simpa [marked] using isMarker _ parts.marks
      decide
  | nil =>
      obtain ⟨digit, rest, whole⟩ := List.exists_cons_of_ne_nil parts.someDigit
      rw [marked, whole] at first
      obtain rfl : digit = c := by simpa using first
      exact (isApart_of_placeOf (parts.placeOf_lt (by simp [whole]))).1

/-- In front of its suffixes, a literal ends with a digit. -/
theorem ends
    {c : Char}
    (last : c ∈ (parts.marker ++ parts.digits).getLast?) :
    c ∉ ['&', '%', '^'] := by
  rw [List.getLast?_append_of_ne_nil _ parts.someDigit] at last
  exact (isApart_of_placeOf (parts.placeOf_lt (List.mem_of_getLast? last))).2

/-- A literal is read as the integer that it denotes, if its magnitude is no larger than
the largest. -/
theorem read?_of_text
    {text : Text}
    (written : parts.text = Text.trim text) :
    read? text =
      if parts.magnitude ≤ 0x7FFFFFFFFFFFFFFF then some (Int64.ofInt parts.value)
      else none := by
  have magnitude :
      magnitude? (parts.marker ++ parts.digits) = some parts.magnitude := by
    rw [magnitude?_append parts.marks parts.areDigits]
    exact magnitudeIn?_eq_some_iff.mpr ⟨parts.someDigit, parts.areDigits, rfl⟩
  have ends : ∀ c ∈ (parts.marker ++ parts.digits).getLast?, c ∉ ['&', '%', '^'] :=
    fun c last => parts.ends last
  have opens :
      ∀ c ∈ (parts.marker ++ parts.digits ++ parts.behind).head?,
        Text.isBlank c = false ∧ c ∉ ['+', '-'] :=
    fun c first => parts.opens first
  rw [read?_eq, ← written, Parts.text, signed_append parts.isSign parts.areBlank opens,
    withoutSuffixes_append ends parts.areSuffixes, magnitude]
  simp only [Option.bind_some, decide_eq_true_eq, maxMagnitude, value]

end Parts

/-- Whatever is read is a literal. -/
theorem exists_parts_of_read?
    {text : Text}
    {value : Int64}
    (read : read? text = some value) :
    ∃ parts : Parts, parts.text = Text.trim text := by
  rw [read?_eq] at read
  obtain ⟨magnitude, isMagnitude, -⟩ := Option.bind_eq_some_iff.mp read
  obtain ⟨sign, blanks, isSign, areBlank, signedText, -⟩ := exists_sign (Text.trim text)
  obtain ⟨behind, unsuffixed, areSuffixes⟩ := exists_suffixes (signed (Text.trim text)).2
  obtain ⟨radix, marker, marks, digits, marked, isNumber⟩ := exists_marker isMagnitude
  obtain ⟨someDigit, areDigits, -⟩ := magnitudeIn?_eq_some_iff.mp isNumber
  refine
    ⟨⟨sign, blanks, radix, marker, digits, behind, isSign, areBlank, marks, someDigit,
      areDigits, areSuffixes⟩, ?_⟩
  rw [Parts.text, ← marked, ← unsuffixed, ← signedText]

/-- Exactly the literals whose magnitude fits are read, each as the integer that it
denotes. -/
theorem read?_eq_some_iff_exists_parts
    (text : Text) :
    (∀ value,
        read? text = some value ↔
          ∃ parts : Parts,
            parts.text = Text.trim text ∧ parts.magnitude ≤ 0x7FFFFFFFFFFFFFFF ∧
              value.toInt = parts.value) ∧
      (read? text = none ↔
        ¬∃ parts : Parts,
          parts.text = Text.trim text ∧ parts.magnitude ≤ 0x7FFFFFFFFFFFFFFF) := by
  constructor
  · intro value
    constructor
    · intro read
      obtain ⟨parts, written⟩ := exists_parts_of_read? read
      rw [parts.read?_of_text written, Option.ite_none_right_eq_some] at read
      obtain ⟨small, same⟩ := read
      cases same
      exact ⟨parts, written, small, parts.toInt_ofInt_value small⟩
    · rintro ⟨parts, written, small, denotes⟩
      rw [parts.read?_of_text written, if_pos small, ← denotes, Int64.ofInt_toInt]
  · constructor
    · rintro unread ⟨parts, written, small⟩
      rw [parts.read?_of_text written, if_pos small] at unread
      cases unread
    · intro noLiteral
      cases read : read? text with
      | none =>
          rfl
      | some value =>
          obtain ⟨parts, written⟩ := exists_parts_of_read? read
          rw [parts.read?_of_text written, Option.ite_none_right_eq_some] at read
          exact absurd ⟨parts, written, read.1⟩ noLiteral

/-- The smallest integer has no literal, since its magnitude does not fit. -/
example :
    read? "-9223372036854775807" = some (-9223372036854775807) ∧
      read? "-9223372036854775808" = none := by
  decide +kernel

end ClassicBasic.IntegerLiteral
