import ClassicBasic.Proofs.Line.Instruction

namespace ClassicBasic.Instruction

/-!
# The columns of instructions

Every instruction of a line is a piece of it: a segment without the blanks
around it, at the column of its first visible character.  The pieces are laid out
over the line in its order, and only blanks and separators are left between them.
So their columns grow strictly, and none of them is blank.
-/

open Line

/--
A line is split into pieces.  What holds of one piece, of a piece in front of a
comment, and of a piece in front of instructions of which it holds, holds of all
instructions of a line.
-/
theorem splitFrom_induction
    {motive : Nat → Text → List Instruction → Prop}
    (whole :
      ∀ (offset : Nat) (text : Text), motive offset text (piece offset text))
    (comment :
      ∀ (offset : Nat) (segment behind : Text),
        motive offset (segment ++ behind)
          (piece offset segment ++ piece (offset + segment.length) behind))
    (separated :
      ∀ (offset : Nat) (segment rest : Text) (first : Bool)
        (later : List Instruction),
        motive (offset + segment.length + 1) rest later →
        motive offset (segment ++ separator :: rest)
          (led first offset segment rest ++ later))
    (first : Bool)
    (offset : Nat)
    (text : Text) :
    motive offset text (splitFrom first offset text) := by
  induction first, offset, text using separator_induction with
  | oldComment isRem =>
      rw [splitFrom_of_rem isRem]
      exact whole _ _
  | last notRem ends =>
      rw [splitFrom_of_last notRem ends, ← append_of_spanFrom ends, List.append_nil]
      exact whole _ _
  | comment notRem ends =>
      rw [splitFrom_of_comment notRem ends, ← append_of_spanFrom ends]
      exact comment _ _ _
  | separated notRem ends inductionHypothesis =>
      rw [splitFrom_of_separator notRem ends, ← append_of_spanFrom ends]
      exact separated _ _ _ _ _ inductionHypothesis

/-- The first column behind an instruction. -/
def behind (instruction : Instruction) : Nat :=
  instruction.column + instruction.text.length

/-- Whether a column is one of those that an instruction is written at. -/
def Covers (instruction : Instruction) (column : Nat) : Prop :=
  instruction.column ≤ column ∧ column < instruction.behind

/-- Whether a character can stand between instructions. -/
def IsBetween (c : Char) : Prop :=
  Text.isBlank c = true ∨ c = separator

/--
Instructions laid out over a text, with the number of characters in front of
it.  Every instruction is written at its column, is visible and has no blanks
around it, and only blanks and separators stand between instructions.
-/
inductive Laid : Nat → Text → List Instruction → Prop where
  | gap
      {offset : Nat}
      {gap : Text}
      (between : ∀ c ∈ gap, IsBetween c) :
      Laid offset gap []
  | instruction
      {offset : Nat}
      {gap text rest : Text}
      {later : List Instruction}
      (between : ∀ c ∈ gap, IsBetween c)
      (isVisible : text ≠ [])
      (isTrimmed : Text.trim text = text)
      (isLaid : Laid (offset + gap.length + text.length) rest later) :
      Laid offset (gap ++ (text ++ rest))
        (⟨offset + gap.length + 1, text⟩ :: later)

namespace Laid

variable
  {offset : Nat}
  {text : Text}
  {instructions : List Instruction}

/-- A gap may stand in front of instructions that are laid out. -/
theorem prepend
    {gap : Text}
    (between : ∀ c ∈ gap, IsBetween c)
    (isLaid : Laid (offset + gap.length) text instructions) :
    Laid offset (gap ++ text) instructions := by
  cases isLaid with
  | gap inText =>
      exact .gap fun c member => (List.mem_append.mp member).elim (between c) (inText c)
  | @instruction _ inner token rest later inText isVisible isTrimmed isLaid =>
      have length :
          offset + gap.length + inner.length = offset + (gap ++ inner).length := by
        rw [List.length_append, Nat.add_assoc]
      rw [length] at isLaid ⊢
      rw [← List.append_assoc]
      exact
        .instruction
          (fun c member => (List.mem_append.mp member).elim (between c) (inText c))
          isVisible isTrimmed isLaid

/-- Instructions laid out over a text and over what stands behind it are laid out
over both. -/
theorem append
    {front rest : Text}
    {before later : List Instruction}
    (isBefore : Laid offset front before)
    (isLater : Laid (offset + front.length) rest later) :
    Laid offset (front ++ rest) (before ++ later) := by
  induction isBefore with
  | gap between =>
      exact prepend between isLater
  | instruction between isVisible isTrimmed _ inductionHypothesis =>
      simp only [List.append_assoc, List.cons_append]
      refine .instruction between isVisible isTrimmed (inductionHypothesis ?_)
      simpa only [List.length_append, Nat.add_assoc] using isLater

/-- Every instruction is written at its column. -/
theorem written
    {instruction : Instruction}
    (isLaid : Laid offset text instructions)
    (member : instruction ∈ instructions) :
    ∃ front rest,
      text = front ++ (instruction.text ++ rest) ∧
        instruction.column = offset + front.length + 1 ∧
          instruction.text ≠ [] ∧ Text.trim instruction.text = instruction.text := by
  induction isLaid with
  | gap =>
      cases member
  | @instruction offset gap token rest later _ isVisible isTrimmed _ inductionHypothesis =>
      rcases List.mem_cons.mp member with rfl | isLater
      · exact ⟨gap, rest, rfl, rfl, isVisible, isTrimmed⟩
      · obtain ⟨front, behind, rfl, column, visible, trimmed⟩ := inductionHypothesis isLater
        refine
          ⟨gap ++ (token ++ front), behind, by simp only [List.append_assoc], ?_, visible,
            trimmed⟩
        rw [column, List.length_append, List.length_append]
        omega

/-- Every instruction ends in front of the next one. -/
theorem disjoint
    (isLaid : Laid offset text instructions) :
    instructions.Pairwise fun first second => first.behind ≤ second.column := by
  induction isLaid with
  | gap =>
      exact .nil
  | instruction _ _ _ isLaid inductionHypothesis =>
      refine .cons ?_ inductionHypothesis
      intro second member
      obtain ⟨front, -, -, column, -⟩ := isLaid.written member
      rw [behind, column]
      dsimp only
      omega

/-- Only blanks and separators stand where no instruction does. -/
theorem between_of_not_covered
    {position : Nat}
    {c : Char}
    (isLaid : Laid offset text instructions)
    (isThere : text[position]? = some c)
    (notCovered :
      ∀ instruction ∈ instructions, ¬instruction.Covers (offset + position + 1)) :
    IsBetween c := by
  induction isLaid generalizing position with
  | gap between =>
      exact between c (List.mem_of_getElem? isThere)
  | @instruction offset gap token rest later between _ _ _ inductionHypothesis =>
      by_cases inGap : position < gap.length
      · rw [List.getElem?_append_left inGap] at isThere
        exact between c (List.mem_of_getElem? isThere)
      · rw [List.getElem?_append_right (Nat.le_of_not_lt inGap)] at isThere
        have notHere := notCovered _ List.mem_cons_self
        simp only [Covers, behind] at notHere
        have isBehind : token.length ≤ position - gap.length := by omega
        rw [List.getElem?_append_right isBehind] at isThere
        refine inductionHypothesis isThere fun instruction member => ?_
        have column :
            offset + gap.length + token.length + (position - gap.length - token.length) =
              offset + position := by
          omega
        rw [column]
        exact notCovered instruction (List.mem_cons_of_mem _ member)

end Laid

/-- A piece is laid out over its segment. -/
theorem laid_piece
    (offset : Nat)
    (segment : Text) :
    Laid offset segment (piece offset segment) := by
  by_cases blank : Text.trim segment = []
  · rw [piece_of_blank blank]
    exact .gap fun c member => .inl (Text.trim_eq_nil_iff.mp blank c member)
  · obtain ⟨blanks, whole, areBlank⟩ :=
      Text.exists_blanks_of_trimEnd (Text.trimStart segment)
    have shape :
        segment = segment.takeWhile Text.isBlank ++ (Text.trim segment ++ blanks) := by
      rw [Text.trim, ← whole]
      exact List.takeWhile_append_dropWhile.symm
    rw [piece_of_visible blank]
    conv => arg 2; rw [shape]
    refine .instruction ?_ blank (Text.trim_trim segment) (.gap ?_)
    · exact fun c member => .inl (List.mem_takeWhile_imp member)
    · exact fun c member => .inl (areBlank c member)

/-- The instruction in front of a separator is laid out, with the separator or
without it. -/
theorem laid_led
    (first : Bool)
    (offset : Nat)
    (segment rest : Text) :
    Laid offset (segment ++ [separator]) (led first offset segment rest) := by
  unfold led
  split
  · exact laid_piece offset (segment ++ [separator])
  · have colon : ∀ c ∈ [separator], IsBetween c :=
      fun c member => .inr (List.mem_singleton.mp member)
    simpa using (laid_piece offset segment).append (.gap colon)

/-- The instructions of the rest of a line are laid out over it. -/
theorem laid_splitFrom
    (first : Bool)
    (offset : Nat)
    (text : Text) :
    Laid offset text (splitFrom first offset text) := by
  refine splitFrom_induction (motive := Laid) laid_piece ?_ ?_ first offset text
  · intro offset segment behind
    exact (laid_piece offset segment).append (laid_piece _ behind)
  · intro offset segment rest first later isLater
    rw [← List.singleton_append, ← List.append_assoc]
    refine (laid_led first offset segment rest).append ?_
    rwa [List.length_append, List.length_singleton, ← Nat.add_assoc]

/-- Instructions in the order of their columns, between two columns. -/
structure Ordered (front behind : Nat) (instructions : List Instruction) : Prop where
  increasing : (instructions.map column).Pairwise (· < ·)
  inside :
    ∀ instruction ∈ instructions,
      front < instruction.column ∧ instruction.column ≤ behind

/-- The columns of the rest of a line grow strictly, and none lies outside. -/
theorem ordered_splitFrom
    (first : Bool)
    (offset : Nat)
    (text : Text) :
    Ordered offset (offset + text.length) (splitFrom first offset text) := by
  have isLaid := laid_splitFrom first offset text
  refine ⟨?_, ?_⟩
  · rw [List.pairwise_map]
    refine isLaid.disjoint.imp_of_mem ?_
    intro instruction other member _ endsBefore
    obtain ⟨-, -, -, -, visible, -⟩ := isLaid.written member
    have longer := List.length_pos_of_ne_nil visible
    rw [behind] at endsBefore
    omega
  · intro instruction member
    obtain ⟨front, rest, rfl, column, visible, -⟩ := isLaid.written member
    have longer := List.length_pos_of_ne_nil visible
    simp only [List.length_append]
    omega

/-- The columns of a line grow strictly. -/
theorem split_increasing
    (text : Text) :
    ((split text).map column).Pairwise (· < ·) :=
  (ordered_splitFrom true 0 text).increasing

/-- No instruction is blank, and none has blanks around it. -/
theorem trim_of_mem_split
    {text : Text}
    {instruction : Instruction}
    (member : instruction ∈ split text) :
    Text.trim instruction.text = instruction.text ∧
      Text.trim instruction.text ≠ [] := by
  obtain ⟨-, -, -, -, visible, trimmed⟩ := (laid_splitFrom true 0 text).written member
  rw [trimmed]
  exact ⟨rfl, visible⟩

/-- The instructions of a line cover it.  Each is visible, has no blanks around it
and stands in the line from its column on.  Their columns grow, no two of them share
one, and where none of them stands there is a blank or a separator. -/
theorem split_covers
    (text : Text) :
    (∀ instruction ∈ split text,
      instruction.text ≠ [] ∧
        (∀ c ∈ instruction.text.head?, Text.isBlank c = false) ∧
        (∀ c ∈ instruction.text.getLast?, Text.isBlank c = false) ∧
        1 ≤ instruction.column ∧
        instruction.text <+: text.drop (instruction.column - 1)) ∧
      ((split text).map column).Pairwise (· < ·) ∧
      (split text).Pairwise (fun first second => first.behind ≤ second.column) ∧
      ∀ position c,
        text[position]? = some c →
          (∀ instruction ∈ split text, ¬instruction.Covers (position + 1)) →
            Text.isBlank c = true ∨ c = separator := by
  have isLaid : Laid 0 text (split text) := laid_splitFrom true 0 text
  refine ⟨?_, split_increasing text, isLaid.disjoint, ?_⟩
  · intro instruction member
    obtain ⟨front, rest, shape, column, visible, trimmed⟩ := isLaid.written member
    rw [Nat.zero_add] at column
    refine ⟨visible, ?_, ?_, ?_, ?_⟩
    · rw [← trimmed]
      exact fun c => Text.isBlank_of_head?_trim
    · rw [← trimmed]
      exact fun c => Text.isBlank_of_getLast?_trim
    · rw [column]
      exact Nat.le_add_left 1 front.length
    · rw [column, shape, Nat.add_sub_cancel, List.drop_left]
      exact List.prefix_append instruction.text rest
  · intro position c isThere notCovered
    refine isLaid.between_of_not_covered isThere ?_
    rwa [Nat.zero_add]

/-- Labels keep their colon at both ends of a line, and a literal keeps its own. -/
example :
    split "  äb : \"x:\": c : " = [⟨3, "äb :"⟩, ⟨8, "\"x:\""⟩, ⟨14, "c :"⟩] := by
  decide +kernel

end ClassicBasic.Instruction
