import ClassicBasic.Attribute
import ClassicBasic.Declaration.Block
import ClassicBasic.Member.Region
import ClassicBasic.Proofs.Phrase
import ClassicBasic.Proofs.Text.Blank
import ClassicBasic.Signature

namespace ClassicBasic

/-!
# How lines open

The first visible character of a line already tells most kinds of lines apart.
It is the same for a line and for its code, and every keyword fixes it:
signatures, attribute lines, regions and terminators all open with letters of
their own.
-/

namespace Text

/-- What opens with a word begins with its first character. -/
theorem head?_of_after?
    {c : Char}
    {word text rest : Text}
    (opens : after? (c :: word) text = some rest) :
    text.head? = some c := by
  rw [after?_eq_some_iff.mp opens]
  rfl

end Text

namespace Line

/-- A line opens like its code. -/
theorem opening?_of_codeText
    {text : Text}
    {c : Char}
    (opens : (codeText text).head? = some c) :
    text.opening? = some c := by
  rw [codeText, Text.head?_trim] at opens
  refine Text.opening?_of_prefix opens ?_
  have whole :=
    spanFrom_append (fun c => decide (c = commentMarker)) .code none text
  unfold splitComment cutComment spanCode
  rcases cut : spanFrom (fun c => decide (c = commentMarker)) .code none text
    with ⟨code, comment⟩
  rw [cut] at whole
  cases comment with
  | nil =>
      exact List.prefix_rfl
  | cons marker rest =>
      exact (Text.trimEnd_prefix code).trans ⟨marker :: rest, whole⟩

end Line

/-- An attribute line opens with the first letter of its keyword. -/
theorem Attribute.opening?_of_read?
    {text : Text}
    {stated : Attribute}
    (read : Attribute.read? text = some stated) :
    text.opening? = some 'A' := by
  obtain ⟨rest, opens, -⟩ := Option.bind_eq_some_iff.mp read
  rw [← Text.head?_trim]
  exact Text.head?_of_after? opens

/-- A line whose code opens otherwise is no attribute line. -/
theorem Attribute.read?_eq_none_of_code
    {line : Line}
    {c : Char}
    (opens : line.code.head? = some c)
    (different : c ≠ 'A') :
    Attribute.read? line.text = none := by
  cases read : Attribute.read? line.text with
  | none =>
      rfl
  | some stated =>
      have keyword := Attribute.opening?_of_read? read
      rw [Line.opening?_of_codeText opens, Option.some.injEq] at keyword
      exact (different keyword).elim

/-- A condition begins with the first letter of its keyword. -/
theorem head?_of_opensCondition
    {code : Text}
    (opens : opensCondition code = true) :
    code.head? = some 'I' := by
  unfold opensCondition at opens
  split at opens
  · next found =>
      exact Text.head?_of_after? found
  · simp at opens

/-- A loop begins with the first letter of its keyword. -/
theorem head?_of_opensLoop
    {code : Text}
    (opens : opensLoop code = true) :
    code.head? = some 'F' := by
  unfold opensLoop at opens
  cases found : Text.after? "For" code with
  | none =>
      rw [found] at opens
      simp at opens
  | some rest =>
      exact Text.head?_of_after? found

/-- No line opens a loop and a condition. -/
theorem opensCondition_eq_false_of_opensLoop
    {code : Text}
    (opens : opensLoop code = true) :
    opensCondition code = false := by
  cases condition : opensCondition code with
  | false =>
      rfl
  | true =>
      have first := head?_of_opensCondition condition
      rw [head?_of_opensLoop opens] at first
      simp at first

/-- What ends loops begins with the first letter of its keyword. -/
theorem head?_of_nextCounters?
    {code : Text}
    {counters : List Text}
    (lists : nextCounters? code = some counters) :
    code.head? = some 'N' := by
  obtain ⟨rest, opens, -⟩ := Option.bind_eq_some_iff.mp lists
  exact Text.head?_of_after? opens

/-- A terminator other than `Next` opens with `End`. -/
theorem Signature.head?_terminator
    (signature : Signature) :
    signature.terminator.text.head? = some 'E' := by
  unfold Signature.terminator
  split
  · rfl
  · next kind _ =>
      cases kind <;> rfl

/-- No member ends with what ends a condition. -/
theorem Signature.terminator_ne_endIf
    (signature : Signature) :
    signature.terminator.text ≠ Terminator.endIf.text := by
  unfold Signature.terminator
  split
  · decide
  · next kind _ =>
      cases kind <;> decide

/-- Code that opens with a visible character other than an `R` is not silent. -/
theorem isSilent_eq_false
    {code : Text}
    {c : Char}
    (opens : code.head? = some c)
    (visible : Text.isBlank c = false)
    (different : c ≠ 'R') :
    isSilent code = false := by
  cases code with
  | nil =>
      simp at opens
  | cons first rest =>
      rw [List.head?_cons, Option.some.injEq] at opens
      subst first
      have unmarked : Text.after? Line.remKeyword (c :: rest) = none :=
        if_neg different.symm
      simp [isSilent, Line.startsWithRem, Text.startsWithWord, Text.trimStart,
        visible, unmarked]

namespace Signature

/-- The words that a signature can lead with. -/
def leadingWords : List Text :=
  ["Public", "Private", "Friend", "Static", "Property", "Sub", "Function"]

/-- A leading keyword is taken off the text, or the text is left as it is. -/
theorem leading_eq
    (recognise : Text → Option α)
    (text : Text) :
    (∃ found rest,
        leading recognise text = (some found, rest) ∧
          recognise (Text.leadingWord text) = some found) ∨
      leading recognise text = (none, text) := by
  unfold leading
  cases read : Phrase.keyword? recognise text with
  | none =>
      exact .inr rfl
  | some pair =>
      exact .inl ⟨pair.1, pair.2, rfl, Phrase.leadingWord_of_keyword? read⟩

/-- A signature leads with one of its words. -/
theorem leadingWord_mem_of_read?
    {code : Text}
    {signature : Signature}
    (signed : read? code = some signature) :
    Text.leadingWord code ∈ leadingWords := by
  unfold read? at signed
  rcases leading_eq modifier? code with ⟨modifier, rest, -, known⟩ | unmodified
  · obtain ⟨spelled, allowed⟩ := Option.filter_eq_some_iff.mp known
    have member := List.find?_some spelled
    rw [← of_decide_eq_true member]
    revert allowed
    cases modifier <;> decide
  · simp only [unmodified] at signed
    rcases leading_eq (Phrase.word? "Static") code with
      ⟨static, rest, -, known⟩ | notStatic
    · unfold Phrase.word? at known
      split at known
      · next spelled =>
          rw [spelled]
          decide
      · simp at known
    · simp only [notStatic] at signed
      obtain ⟨⟨kind, rest⟩, keyword, -⟩ := Option.bind_eq_some_iff.mp signed
      have known := Phrase.leadingWord_of_keyword? keyword
      unfold procedure? at known
      split at known
      · next spelled =>
          rw [spelled]
          decide
      · obtain ⟨method, spelled, -⟩ := Option.map_eq_some_iff.mp known
        have member := List.find?_some spelled
        rw [← of_decide_eq_true member]
        cases method <;> decide

/-- A signature opens with the first letter of one of its words. -/
theorem head?_of_read?
    {code : Text}
    {signature : Signature}
    (signed : read? code = some signature) :
    ∃ c, code.head? = some c ∧ c ∈ ['P', 'F', 'S'] := by
  have member := leadingWord_mem_of_read? signed
  have firstLetter :
      ∀ word ∈ leadingWords, ∃ c rest, word = c :: rest ∧ c ∈ ['P', 'F', 'S'] := by
    simp [leadingWords]
  obtain ⟨c, rest, spelled, isLetter⟩ := firstLetter _ member
  have isBeginning : Text.leadingWord code <+: code :=
    List.takeWhile_prefix _
  obtain ⟨behind, whole⟩ := isBeginning
  refine ⟨c, ?_, isLetter⟩
  rw [← whole, spelled]
  rfl

/-- A signature is neither empty nor a comment. -/
theorem isSilent_eq_false_of_read?
    {code : Text}
    {signature : Signature}
    (signed : read? code = some signature) :
    isSilent code = false := by
  obtain ⟨c, opens, isLetter⟩ := head?_of_read? signed
  have letters :
      ∀ letter ∈ ['P', 'F', 'S'],
        Text.isBlank letter = false ∧ letter ≠ 'R' := by
    intro letter member
    simp only [List.mem_cons, List.not_mem_nil, or_false] at member
    rcases member with rfl | rfl | rfl <;>
      decide
  exact isSilent_eq_false opens (letters c isLetter).1 (letters c isLetter).2

end Signature

end ClassicBasic
