import ClassicBasic.Proofs.Token.Comments

namespace ClassicBasic.Instruction

open Line

/-!
# Splitting from separator to separator

Behind every separator the splitting of a line starts over on what is left of the
line.  So whatever gives an instruction stands at the front of some remainder: a
comment in one form or the other, the code in front of a marker, or a label head
with its colon.  Each of them is scanned alone as it is scanned in the line, because
a date that the line opens in it is closed in it.
-/

/-- What is left of a line to be split. -/
structure Remainder where
  /-- Whether no instruction stands in front of it. -/
  first : Bool
  /-- The number of characters of the line in front of it. -/
  offset : Nat
  text : Text

namespace Remainder

/-- The instructions of a remainder. -/
def split (remainder : Remainder) : List Instruction :=
  splitFrom remainder.first remainder.offset remainder.text

/-- A remainder and the one behind its first separator, with the instructions
between them, of which there is at most one. -/
inductive Step (remainder : Remainder) : List Instruction → Remainder → Prop where
  | separator
      {segment rest : Text}
      (notRem : startsWithRem remainder.text = false)
      (span :
        spanCode endsInstruction remainder.text = (segment, Instruction.separator :: rest)) :
      Step remainder
        (led remainder.first remainder.offset segment rest)
        ⟨remainder.first && (led remainder.first remainder.offset segment rest).isEmpty,
          remainder.offset + segment.length + 1, rest⟩

/-- A remainder and one behind some of its separators, with the instructions between
them. -/
inductive Reaches : Remainder → List Instruction → Remainder → Prop where
  | here
      (remainder : Remainder) :
      Reaches remainder [] remainder
  | step
      {remainder next last : Remainder}
      {passed later : List Instruction}
      (isStep : Step remainder passed next)
      (reaches : Reaches next later last) :
      Reaches remainder (passed ++ later) last

/-- What a remainder gives an instruction from, at its front. -/
inductive Yields (remainder : Remainder) (instruction : Instruction) : Prop where
  | oldComment
      (isRem : startsWithRem remainder.text = true)
      (member : instruction ∈ piece remainder.offset remainder.text)
  | comment
      {segment rest : Text}
      (member :
        instruction ∈ piece (remainder.offset + segment.length) (commentMarker :: rest))
  | plain
      {segment behind : Text}
      (notRem : startsWithRem remainder.text = false)
      (span : spanCode endsInstruction remainder.text = (segment, behind))
      (member : instruction ∈ piece remainder.offset segment)
  | label
      {segment rest : Text}
      (notRem : startsWithRem remainder.text = false)
      (span :
        spanCode endsInstruction remainder.text = (segment, Instruction.separator :: rest))
      (keeps : keepsSeparator remainder.first segment rest = true)
      (member : instruction ∈ piece remainder.offset (segment ++ [Instruction.separator]))

/-! ## Steps -/

namespace Step

variable
  {remainder next : Remainder}
  {passed : List Instruction}
  (isStep : Step remainder passed next)
include isStep

/-- What a step passes stands in front of the instructions of what is next. -/
theorem split_eq :
    remainder.split = passed ++ next.split := by
  cases isStep with
  | separator notRem span =>
      exact splitFrom_of_separator notRem span

/-- A step takes one segment and its separator off, and the offset counts them. -/
theorem text_eq :
    ∃ segment,
      remainder.text = segment ++ Instruction.separator :: next.text ∧
        next.offset = remainder.offset + segment.length + 1 := by
  cases isStep with
  | @separator segment rest _ span =>
      exact ⟨segment, (append_of_spanFrom span).symm, rfl⟩

/-- Only behind nothing but separators and blanks no instruction stands in front. -/
theorem passed_eq_nil
    (first : next.first = true) :
    passed = [] ∧ remainder.first = true := by
  cases isStep with
  | separator =>
      simpa [and_comm] using first

/-- What stands in front of a separator is no comment. -/
theorem not_isComment
    {instruction : Instruction}
    (member : instruction ∈ passed) :
    ¬instruction.IsComment := by
  cases isStep with
  | @separator segment rest notRem span =>
      have segmentNotRem := notRem_of_found (by decide) (by decide) span notRem
      rintro (isMarked | isRem)
      · exact not_comment_of_mem_led span member isMarked
      · rw [notRem_of_mem_led segmentNotRem member] at isRem
        cases isRem

/-- A separator is followed by code, so the scan of a line starts over behind it. -/
theorem endZone_eq :
    endZone remainder.text = endZone next.text := by
  cases isStep with
  | @separator segment rest _ span =>
      have inCode := zoneFrom_of_found span
      have whole := append_of_spanFrom span
      have settled := settled_of_spanFrom (by rw [← spanCode, whole, span])
      have alike :
          (visible (segment.foldl visible none) Instruction.separator).any
              dateOperators.contains =
            (none : Option Char).any dateOperators.contains := by
        rw [visible, if_neg (by decide)]
        decide
      rw [← whole, endZone, endZone, zoneFrom_append settled, inCode, zoneFrom,
        zoneFrom_congr alike]
      rfl

end Step

/-! ## Runs of steps -/

namespace Reaches

variable
  {remainder last : Remainder}
  {before : List Instruction}
  (reaches : Reaches remainder before last)
include reaches

/-- What several steps pass stands in front of the instructions of what is left. -/
theorem split_eq :
    remainder.split = before ++ last.split := by
  induction reaches with
  | here =>
      rfl
  | step isStep _ inductionHypothesis =>
      rw [isStep.split_eq, inductionHypothesis, List.append_assoc]

/-- What is left is the end of the text, and the offset counts what was taken
off. -/
theorem text_eq :
    ∃ front,
      remainder.text = front ++ last.text ∧
        last.offset = remainder.offset + front.length := by
  induction reaches with
  | here =>
      exact ⟨[], rfl, rfl⟩
  | step isStep _ inductionHypothesis =>
      obtain ⟨segment, shape, offset⟩ := isStep.text_eq
      obtain ⟨front, shapeBehind, offsetBehind⟩ := inductionHypothesis
      refine ⟨segment ++ Instruction.separator :: front, ?_, ?_⟩
      · rw [shape, shapeBehind, List.append_assoc, List.cons_append]
      · rw [offsetBehind, offset, List.length_append, List.length_cons]
        omega

/-- As long as no instruction has been found nothing is passed. -/
theorem before_eq_nil
    (first : last.first = true) :
    before = [] := by
  have none : before = [] ∧ remainder.first = true := by
    induction reaches with
    | here =>
        exact ⟨rfl, first⟩
    | step isStep _ inductionHypothesis =>
        obtain ⟨rfl, isFirst⟩ := inductionHypothesis first
        obtain ⟨rfl, stillFirst⟩ := isStep.passed_eq_nil isFirst
        exact ⟨rfl, stillFirst⟩
  exact none.1

/-- No comment is passed on the way. -/
theorem not_isComment :
    ∀ instruction ∈ before, ¬instruction.IsComment := by
  induction reaches with
  | here =>
      simp
  | step isStep _ inductionHypothesis =>
      intro instruction member
      rcases List.mem_append.mp member with isPassed | isLater
      · exact isStep.not_isComment isPassed
      · exact inductionHypothesis instruction isLater

/-- Where the scan of a line ends is decided by what is left. -/
theorem endZone_eq :
    endZone remainder.text = endZone last.text := by
  induction reaches with
  | here =>
      rfl
  | step isStep _ inductionHypothesis =>
      rw [isStep.endZone_eq, inductionHypothesis]

end Reaches

/-- Every instruction stands at the front of a remainder. -/
theorem exists_yields_of_mem
    {remainder : Remainder}
    {instruction : Instruction}
    (member : instruction ∈ remainder.split) :
    ∃ before last, Reaches remainder before last ∧ last.Yields instruction := by
  rcases remainder with ⟨first, offset, text⟩
  induction first, offset, text using separator_induction with
  | oldComment isRem =>
      rw [split, splitFrom_of_rem isRem] at member
      exact ⟨[], _, .here _, .oldComment isRem member⟩
  | last notRem span =>
      rw [split, splitFrom_of_last notRem span] at member
      exact ⟨[], _, .here _, .plain notRem span member⟩
  | comment notRem span =>
      rw [split, splitFrom_of_comment notRem span] at member
      rcases List.mem_append.mp member with isCode | isComment
      · exact ⟨[], _, .here _, .plain notRem span isCode⟩
      · exact ⟨[], _, .here _, .comment isComment⟩
  | @separated first offset text _ _ notRem span inductionHypothesis =>
      have isStep : Step ⟨first, offset, text⟩ _ _ := .separator notRem span
      rw [isStep.split_eq] at member
      rcases List.mem_append.mp member with isLed | isLater
      · refine ⟨[], _, .here _, ?_⟩
        unfold led at isLed
        split at isLed
        · next keeps =>
            exact .label notRem span keeps isLed
        · exact .plain notRem span isLed
      · obtain ⟨later, last, reaches, yields⟩ := inductionHypothesis isLater
        exact ⟨_, last, .step isStep reaches, yields⟩

/-- Every instruction of a line stands at the front of what is left behind some
steps. -/
theorem exists_yields_of_mem_split
    {text : Text}
    {instruction : Instruction}
    (member : instruction ∈ Instruction.split text) :
    ∃ before last, Reaches ⟨true, 0, text⟩ before last ∧ last.Yields instruction :=
  exists_yields_of_mem member

end Remainder

/-! ## Instructions alone -/

/-- What ends an instruction is visible. -/
theorem isBlank_of_endsInstruction
    {c : Char}
    (ends : endsInstruction c = true) :
    Text.isBlank c = false := by
  rcases endsInstruction_iff.mp ends with rfl | rfl <;>
    decide

/-- What the scan of an instruction finds: nothing, or the colon of a label at its
end. -/
def IsUnbroken (text : Text) : Prop :=
  spanCode endsInstruction text = (text, []) ∨
    ∃ head,
      isLabelHead head = true ∧
        text = head ++ [separator] ∧
          spanCode endsInstruction text = (head, [separator])

/-- An instruction that is no comment is scanned to its end, or to the colon of a
label. -/
theorem Remainder.Yields.isUnbroken
    {remainder : Remainder}
    {instruction : Instruction}
    (yields : remainder.Yields instruction) :
    instruction.IsComment ∨ IsUnbroken instruction.text := by
  -- One case for each way to find an instruction; only labels keep a separator, at
  -- their end.
  cases yields with
  | oldComment isRem member =>
      obtain ⟨-, rfl⟩ := mem_piece_iff.mp member
      exact .inl (.inr (startsWithRem_trim isRem))
  | comment member =>
      obtain ⟨-, rfl⟩ := mem_piece_iff.mp member
      refine .inl (.inl ?_)
      rw [Text.head?_trim]
      rfl
  | plain notRem span member =>
      obtain ⟨-, rfl⟩ := mem_piece_iff.mp member
      refine .inr (.inl ?_)
      exact spanCode_trim (fun _ => isBlank_of_endsInstruction) (spanCode_of_comment span)
  | @label segment rest notRem span keeps member =>
      obtain ⟨-, rfl⟩ := mem_piece_iff.mp member
      have isHead : isLabelHead segment = true := by
        simp only [keepsSeparator, Bool.and_eq_true] at keeps
        exact keeps.1
      have trimmed := trim_append_separator (trim_ne_nil_of_isLabelHead isHead)
      have found := spanCode_trimStart (fun _ => isBlank_of_endsInstruction)
        (segment ++ [separator])
      have kept : spanCode endsInstruction (segment ++ [separator]) = (segment, [separator]) :=
        spanFrom_found span
      rw [kept,
        Text.trimStart_append (Text.trimStart_ne_nil (trim_ne_nil_of_isLabelHead isHead))]
        at found
      refine .inr (.inr ⟨Text.trimStart segment, ?_, trimmed, ?_⟩)
      · rwa [isLabelHead_trimStart]
      · rw [trimmed, found]

/-- A comment or an unbroken text is a single instruction, at its first column. -/
theorem split_of_isUnbroken
    {instruction : Instruction}
    (isTrimmed : Text.trim instruction.text = instruction.text)
    (isVisible : Text.trim instruction.text ≠ [])
    (unbroken : instruction.IsComment ∨ IsUnbroken instruction.text) :
    split instruction.text = [⟨1, instruction.text⟩] := by
  have alone : piece 0 instruction.text = [⟨1, instruction.text⟩] := by
    have noBlanks := Text.takeWhile_isBlank_trim instruction.text
    rw [isTrimmed] at noBlanks
    rw [piece_of_visible isVisible, noBlanks, isTrimmed]
    rfl
  rw [split]
  cases isRem : startsWithRem instruction.text with
  | true =>
      rw [splitFrom_of_rem isRem, alone]
  | false =>
      rcases unbroken with (isMarked | oldComment) | span | ⟨head, isHead, shape, span⟩
      · obtain ⟨rest, shape⟩ := List.head?_eq_some_iff.mp isMarked
        have span :
            spanCode endsInstruction instruction.text = ([], commentMarker :: rest) := by
          rw [shape]
          exact spanFrom_cons_of_stops ⟨rfl, by decide⟩ rest
        rw [splitFrom_of_comment isRem span, piece_of_blank rfl, ← shape]
        exact alone
      · rw [oldComment] at isRem
        cases isRem
      · rw [splitFrom_of_last isRem span, alone]
      · have kept : led true 0 head [] = [⟨1, instruction.text⟩] := by
          rw [led, keepsSeparator, isHead, ← alone, shape]
          rfl
        rw [splitFrom_of_separator isRem span, kept, splitFrom_of_blank rfl]
        rfl

/-- Instructions are atomic: an instruction of a line, split again, is a single
instruction.  Unless it is a comment, no comment follows code in it, and the only
separator outside its literals is the colon of a label at its end. -/
theorem split_of_mem_split
    {text : Text}
    {instruction : Instruction}
    (member : instruction ∈ split text) :
    split instruction.text = [⟨1, instruction.text⟩] ∧
      (¬instruction.IsComment →
        commentOffset? instruction.text = none ∧
          ∀ segment behind,
            spanCode endsInstruction instruction.text = (segment, behind) →
              behind = [] ∨ isLabelHead segment = true ∧ behind = [separator]) := by
  obtain ⟨isTrimmed, isVisible⟩ := trim_of_mem_split member
  obtain ⟨-, last, -, yields⟩ :=
    Remainder.exists_yields_of_mem_split member
  refine ⟨split_of_isUnbroken isTrimmed isVisible yields.isUnbroken, ?_⟩
  intro notComment
  rw [commentOffset?_eq_none_iff]
  rcases yields.isUnbroken.resolve_left notComment with span | ⟨head, isHead, -, span⟩
  · refine ⟨by rw [spanComment_of_last span], ?_⟩
    intro segment behind found
    rw [span] at found
    exact .inl (Prod.mk.inj found).2.symm
  · refine ⟨by rw [spanComment_of_separator span]; rfl, ?_⟩
    intro segment behind found
    rw [span] at found
    obtain ⟨rfl, rfl⟩ := Prod.mk.inj found
    exact .inr ⟨isHead, rfl⟩

/-- A date keeps its colon alone too, though the line goes on to other number signs. -/
theorem split_of_mem_split_date :
    let text : Text := "10: d = #1:30# : done : 'at #2: \"x"
    let date : Instruction := ⟨5, "d = #1:30#"⟩
    date ∈ split text ∧
      ¬date.IsComment ∧
      split date.text = [⟨1, date.text⟩] ∧
      commentOffset? date.text = none ∧
      split text =
        [⟨1, "10:"⟩, date, ⟨18, "done"⟩, ⟨25, "'at #2: \"x"⟩] := by
  intro text date
  have member : date ∈ split text := by
    decide +kernel
  have notComment : ¬date.IsComment := by
    unfold IsComment
    decide
  obtain ⟨alone, unbroken⟩ := split_of_mem_split member
  exact ⟨member, notComment, alone, (unbroken notComment).1, by decide +kernel⟩

end ClassicBasic.Instruction
