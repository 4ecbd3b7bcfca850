import ClassicBasic.Proofs.Token.Stream

namespace ClassicBasic

/-!
# Comments among the tokens of a line

A comment of either form takes the rest of its line, so a line has at most one
comment among its instructions, and it comes last.  Cutting a line at its comment
knows the apostrophe only: where a comment in the older form holds one, what is cut
off is an ending of that comment.
-/

/-! ## Blanks end words -/

namespace Text

/-- No blank stands in an identifier. -/
theorem not_identifierChar_of_isBlank
    {c : Char}
    (blank : isBlank c = true) :
    isIdentifierChar c = false := by
  have none :
      ∀ code ∈ blankCodes, isIdentifierChar (Char.ofNat code) = false := by
    decide +kernel
  rw [← Char.ofNat_toNat c]
  exact none c.toNat (toNat_mem_blankCodes blank)

end Text

/-! ## The older form of comments -/

namespace Line

/-- The blanks around a text do not matter to its first word. -/
theorem startsWithRem_of_trim
    {text : Text}
    (isRem : startsWithRem (Text.trim text) = true) :
    startsWithRem text = true := by
  obtain ⟨rest, opens, ends⟩ := startsWithRem_iff.mp isRem
  obtain ⟨blanks, whole, areBlank⟩ :=
    Text.exists_blanks_of_trimEnd (Text.trimStart text)
  rw [Text.trimStart_trim, Text.trim] at opens
  rw [opens, List.append_assoc] at whole
  refine startsWithRem_iff.mpr ⟨rest ++ blanks, whole, ?_⟩
  cases rest with
  | cons c rest =>
      exact ends
  | nil =>
      cases blanks with
      | nil =>
          rfl
      | cons blank blanks =>
          exact Text.not_identifierChar_of_isBlank (areBlank blank (by simp))

/-- A comment in the older form starts in front of any comment marker in it. -/
theorem trim_of_startsWithRem
    {code comment : Text}
    (opens : startsWithRem (code ++ commentMarker :: comment) = true) :
    Text.trimStart code ≠ [] ∧
      Text.trim (code ++ commentMarker :: comment) =
        Text.trimStart code ++ Text.trimEnd (commentMarker :: comment) := by
  have marked : Text.isBlank commentMarker = false := by
    decide
  have codeOpens : startsWithRem code = true := by
    rwa [startsWithRem_append_cons marked (by decide)] at opens
  obtain ⟨rest, isStart, -⟩ := startsWithRem_iff.mp codeOpens
  refine ⟨by simp [isStart, remKeyword], ?_⟩
  rw [Text.trim, Text.trimStart_append_cons marked, Text.trimEnd_append_cons marked,
    Text.trimEnd_cons marked]

/-- A comment with the marker is none in the older form. -/
theorem not_startsWithRem_of_marker
    {text : Text}
    (marked : text.head? = some commentMarker) :
    startsWithRem text = false := by
  obtain ⟨rest, rfl⟩ := List.head?_eq_some_iff.mp marked
  rw [startsWithRem, Text.trimStart_cons_visible (by decide)]
  rfl

end Line

/-! ## Instructions -/

namespace Instruction

open Line

/-- Whether an instruction is a comment, in one form or the other. -/
def IsComment (instruction : Instruction) : Prop :=
  instruction.text.head? = some commentMarker ∨
    startsWithRem instruction.text = true

variable
  {first : Bool}
  {offset : Nat}

/-- The instruction of a segment is a comment in the older form only if the segment
starts with one. -/
theorem notRem_of_mem_piece
    {segment : Text}
    {instruction : Instruction}
    (notRem : startsWithRem segment = false)
    (member : instruction ∈ piece offset segment) :
    startsWithRem instruction.text = false := by
  obtain ⟨-, rfl⟩ := mem_piece_iff.mp member
  by_contra isRem
  rw [startsWithRem_of_trim (by simpa using isRem)] at notRem
  cases notRem

/-- Nor does a separator behind a segment make a comment in the older form of it. -/
theorem notRem_of_mem_led
    {segment rest : Text}
    {instruction : Instruction}
    (notRem : startsWithRem segment = false)
    (member : instruction ∈ led first offset segment rest) :
    startsWithRem instruction.text = false := by
  unfold led at member
  split at member
  · refine notRem_of_mem_piece ?_ member
    rwa [startsWithRem_append_cons (by decide) (by decide)]
  · exact notRem_of_mem_piece notRem member

/-- Where a line has a comment in the older form, that comment is its last instruction
and ends as the line does from its first marker on. -/
theorem splitFrom_of_rem_comment
    {text code comment : Text}
    (isRem :
      ∃ instruction ∈ splitFrom first offset text,
        startsWithRem instruction.text = true)
    (span : spanCode isCommentMarker text = (code, commentMarker :: comment)) :
    ∃ front last start,
      splitFrom first offset text = front ++ [last] ∧
        (∀ instruction ∈ front, ¬instruction.IsComment) ∧
          startsWithRem last.text = true ∧
            start ≠ [] ∧ last.text = start ++ Text.trimEnd (commentMarker :: comment) := by
  have marked : Text.isBlank commentMarker = false := by
    decide
  -- The code in front of the marker shrinks with the text, so it is generalized.
  induction first, offset, text using separator_induction generalizing code with
  | oldComment opens =>
      have whole := append_of_spanFrom span
      obtain ⟨startVisible, trimmed⟩ := trim_of_startsWithRem (whole ▸ opens)
      rw [whole] at trimmed
      rw [splitFrom_of_rem opens, piece_of_visible (by rw [trimmed]; simp [startVisible])]
      exact
        ⟨[], _, Text.trimStart code, rfl, by simp, startsWithRem_trim opens,
          startVisible, trimmed⟩
  | last _ ends =>
      rw [spanComment_of_last ends] at span
      cases span
  | comment notRem ends =>
      obtain ⟨instruction, member, isRem⟩ := isRem
      have segmentNotRem := notRem_of_found marked (by decide) ends notRem
      rw [splitFrom_of_comment notRem ends, piece_comment] at member
      rcases List.mem_append.mp member with inFront | isLast
      · rw [notRem_of_mem_piece segmentNotRem inFront] at isRem
        cases isRem
      · obtain rfl := List.mem_singleton.mp isLast
        rw [Text.trimEnd_cons marked, not_startsWithRem_of_marker rfl] at isRem
        cases isRem
  | @separated first offset _ segment rest notRem ends inductionHypothesis =>
      obtain ⟨instruction, member, isRem⟩ := isRem
      rcases cut : spanCode isCommentMarker rest with ⟨inner, later⟩
      rw [spanComment_of_separator ends, cut] at span
      cases span
      have noRemInFront : ∀ other ∈ led first offset segment rest,
          startsWithRem other.text = false :=
        fun other isLed =>
          notRem_of_mem_led (notRem_of_found (by decide) (by decide) ends notRem) isLed
      rw [splitFrom_of_separator notRem ends] at member ⊢
      have isLater :=
        (List.mem_append.mp member).resolve_left fun isLed => by
          rw [noRemInFront instruction isLed] at isRem
          cases isRem
      obtain ⟨front, last, start, splits, noComment, lastIsRem, visible, isEnd⟩ :=
        inductionHypothesis ⟨instruction, isLater, isRem⟩ cut
      refine
        ⟨led first offset segment rest ++ front, last, start, ?_, ?_, lastIsRem,
          visible, isEnd⟩
      · rw [splits, List.append_assoc]
      · intro other isOther
        rcases List.mem_append.mp isOther with isLed | isFront
        · rintro (isMarked | otherIsRem)
          · exact not_comment_of_mem_led ends isLed isMarked
          · rw [noRemInFront other isLed] at otherIsRem
            cases otherIsRem
        · exact noComment other isFront

/-- A line with a comment marker has one comment, its last instruction.  This is what the
line is cut at where no instruction is a comment in the older form, and otherwise
reaches further to the front. -/
theorem split_of_splitComment
    {text code comment : Text}
    (isTrimmed : Text.trimEnd text = text)
    (cut : splitComment text = (code, some comment)) :
    ∃ front last,
      split text = front ++ [last] ∧
        (∀ instruction ∈ front, ¬instruction.IsComment) ∧
          last.IsComment ∧
            (last.text = comment ∧
                (∀ instruction ∈ split text, startsWithRem instruction.text = false) ∨
              startsWithRem last.text = true ∧
                ∃ start ≠ [], last.text = start ++ comment) := by
  have marked : Text.isBlank commentMarker = false := by
    decide
  obtain ⟨inFront, cut⟩ := cutComment_of_splitComment cut
  have whole := append_of_cutComment cut
  have span := spanCode_of_cutComment cut
  obtain ⟨c, comment, rfl⟩ : ∃ c rest, comment = c :: rest := by
    cases comment with
    | cons c rest =>
        exact ⟨c, rest, rfl⟩
    | nil =>
        rw [cutComment_of_not_found (by rw [span])] at cut
        cases cut
  obtain rfl : c = commentMarker := by
    simpa [isCommentMarker] using marker_of_found span
  have isEnd : Text.trimEnd (commentMarker :: comment) = commentMarker :: comment := by
    rw [← whole, Text.trimEnd_append_cons marked] at isTrimmed
    rw [Text.trimEnd_cons marked]
    exact List.append_cancel_left isTrimmed
  -- A comment in the older form swallows the marker, so it is the last instruction
  -- instead.
  by_cases noRem : ∀ instruction ∈ split text, startsWithRem instruction.text = false
  · obtain ⟨front, splits, noComment, -⟩ := splitFrom_of_spanComment noRem span
    rw [isEnd] at splits
    refine ⟨front, _, splits, ?_, .inl rfl, .inl ⟨rfl, noRem⟩⟩
    rintro instruction member (isMarked | isRem)
    · exact noComment instruction member isMarked
    · rw [noRem instruction (by rw [split, splits]; exact List.mem_append_left _ member)]
        at isRem
      cases isRem
  · push Not at noRem
    obtain ⟨instruction, member, isRem⟩ := noRem
    obtain ⟨front, last, start, splits, noComment, lastIsRem, visible, isRest⟩ :=
      splitFrom_of_rem_comment ⟨instruction, member, by simpa using isRem⟩ span
    rw [isEnd] at isRest
    exact
      ⟨front, last, splits, noComment, .inr lastIsRem,
        .inr ⟨lastIsRem, start, visible, isRest⟩⟩

end Instruction

/-! ## Tokens -/

namespace Matcher

variable
  {text : Text}

/-- Only the first matcher of the default table makes comments. -/
theorem kind?_eq_comment_iff
    {matcher : Matcher} :
    matcher.kind? text = some .comment ↔
      matcher = .comment ∧
        ((Text.trimStart text).head? = some Line.commentMarker ∨
          Line.startsWithRem text = true) := by
  cases matcher with
  | comment =>
      simp only [kind?, comment?, Option.ite_none_right_eq_some, Bool.or_eq_true,
        decide_eq_true_eq, and_true, true_and]
  | attributeLine =>
      simp only [kind?, attributeLine?]
      split <;> simp
  | label =>
      simp only [kind?, label?, Option.bind_eq_bind, Option.bind_eq_some_iff]
      simp
  | declaration =>
      simp only [kind?, declaration?]
      split
      · simp
      · split <;> simp
  | instruction =>
      simp only [kind?, instruction?]
      split <;> simp
  | statement =>
      simp only [kind?, statement?, Option.bind_eq_bind, Option.bind_eq_some_iff]
      simp
  | expression =>
      simp only [kind?, expression?]
      split <;> simp
  | procedureCall =>
      simp only [kind?, procedureCall?]
      split <;> simp

/-- The table takes comments for what they are, in either form, and nothing else. -/
theorem kind_of_classify?_table
    {location : Location}
    {token : Token}
    (classifies : classify? table text location = some token) :
    token.kind = .comment ↔
      (Text.trimStart text).head? = some Line.commentMarker ∨
        Line.startsWithRem text = true := by
  constructor
  · intro isComment
    obtain ⟨matcher, -, accepts⟩ := exists_token?_of_classify? classifies
    have kind := (token?_eq_some_iff.mp accepts).1
    rw [isComment] at kind
    exact (kind?_eq_comment_iff.mp kind).2
  · intro opens
    have kind : kind? .comment text = some .comment :=
      kind?_eq_comment_iff.mpr ⟨rfl, opens⟩
    unfold classify? at classifies
    split at classifies
    · cases classifies
    · rw [table, List.findSome?_cons, token?, kind] at classifies
      cases classifies
      rfl

end Matcher

namespace Token

/-- The tokens of a line that are comments. -/
def commentsOfLine (line : Line) : List Token :=
  (ofLine Matcher.table line).filter fun token => token.kind = .comment

/-- An instruction of a line has a token, which is a comment where the instruction is
one. -/
theorem exists_classify?_of_mem_split
    {text : Text}
    {instruction : Instruction}
    (member : instruction ∈ Instruction.split text)
    (location : Location) :
    ∃ token,
      Matcher.classify? Matcher.table instruction.text location = some token ∧
        token.instruction = instruction.text ∧
          (token.kind = .comment ↔ instruction.IsComment) := by
  obtain ⟨isTrimmed, visible⟩ := Instruction.trim_of_mem_split member
  obtain ⟨token, classifies⟩ :=
    Option.isSome_iff_exists.mp (Matcher.isSome_classify?_table visible location)
  obtain ⟨matcher, -, accepts⟩ := Matcher.exists_token?_of_classify? classifies
  have opens : Text.trimStart instruction.text = instruction.text := by
    rw [← isTrimmed, Text.trimStart_trim]
  have kind := Matcher.kind_of_classify?_table classifies
  rw [opens] at kind
  exact ⟨token, classifies, (Matcher.token?_eq_some_iff.mp accepts).2.1, kind⟩

/-- A line whose last instruction alone is a comment has one comment token, with the
text of that instruction. -/
theorem commentsOfLine_of_split
    {line : Line}
    {front : List Instruction}
    {last : Instruction}
    (splits : Instruction.split line.text = front ++ [last])
    (noComment : ∀ instruction ∈ front, ¬instruction.IsComment)
    (isComment : last.IsComment) :
    ∃ token, commentsOfLine line = [token] ∧ token.instruction = last.text := by
  have isPart : last ∈ Instruction.split line.text := by
    rw [splits]
    exact List.mem_append_right _ (List.mem_singleton_self last)
  obtain ⟨token, classifies, sameText, kind⟩ :=
    exists_classify?_of_mem_split isPart
      ⟨line.number, last.column⟩
  refine ⟨token, ?_, sameText⟩
  have none :
      (front.filterMap fun instruction =>
          Matcher.classify? Matcher.table instruction.text
            ⟨line.number, instruction.column⟩).filter
        (fun token => token.kind = .comment) = [] := by
    rw [List.filter_eq_nil_iff]
    intro other member
    obtain ⟨instruction, isFront, othersToken⟩ := List.mem_filterMap.mp member
    obtain ⟨same, classifies, -, kind⟩ :=
      exists_classify?_of_mem_split
        (by rw [splits]; exact List.mem_append_left _ isFront)
        ⟨line.number, instruction.column⟩
    rw [othersToken, Option.some.injEq] at classifies
    subst same
    simpa [kind] using noComment instruction isFront
  rw [commentsOfLine, ofLine, splits, List.filterMap_append, List.filter_append, none]
  simp [classifies, kind.mpr isComment]

/-- A line that is cut at a comment has one comment among its tokens.  Where no
instruction of the line is a comment in the older form, the token is what the line is
cut at, and otherwise what is cut off is only an ending of it. -/
theorem commentsOfLine_of_splitComment
    {line : Line}
    {code comment : Text}
    (isTrimmed : Text.trimEnd line.text = line.text)
    (cut : Line.splitComment line.text = (code, some comment)) :
    ∃ token,
      commentsOfLine line = [token] ∧
        (token.instruction = comment ↔
          ∀ instruction ∈ Instruction.split line.text,
            Line.startsWithRem instruction.text = false) ∧
        (token.instruction ≠ comment →
          Line.startsWithRem token.instruction = true ∧
            ∃ start ≠ [], token.instruction = start ++ comment) := by
  obtain ⟨front, last, splits, noComment, isComment, agrees⟩ :=
    Instruction.split_of_splitComment isTrimmed cut
  obtain ⟨token, alone, sameText⟩ := commentsOfLine_of_split splits noComment isComment
  refine ⟨token, alone, ?_⟩
  rw [sameText]
  rcases agrees with ⟨same, noRem⟩ | ⟨isRem, start, visible, longer⟩
  · exact ⟨iff_of_true same noRem, fun different => (different same).elim⟩
  · have different : last.text ≠ comment := by
      rw [longer]
      simpa using visible
    refine
      ⟨iff_of_false different fun noRem => ?_, fun _ => ⟨isRem, start, visible, longer⟩⟩
    rw [noRem last (by rw [splits]; simp)] at isRem
    cases isRem

end Token

end ClassicBasic
