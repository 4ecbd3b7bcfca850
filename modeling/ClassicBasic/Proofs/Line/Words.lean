import ClassicBasic.Proofs.Line.Layout
import ClassicBasic.Proofs.Line.Texts
import ClassicBasic.Proofs.Text.Words

namespace ClassicBasic.Line

/-!
# The words of logical lines

Joining takes nothing out of a source but blanks and continuation markers.  From
the first visible line on, the physical lines fall into runs, one for each logical
line.  A run opens with a visible line at the number of its logical line, and the
logical line says the words of its run.
-/

/-! ## Words of joined texts -/

/-- The words of a text other than continuation markers. -/
def properWords (text : Text) : List Text :=
  (Text.words text).filter fun word => word ≠ [continuationMarker]

/-- Blanks around a text are no words. -/
theorem properWords_trim
    (text : Text) :
    properWords (Text.trim text) = properWords text := by
  rw [properWords, Text.words_trim, properWords]

/-- A blank text has no words. -/
theorem properWords_of_blank
    {text : Text}
    (blank : Text.trim text = []) :
    properWords text = [] := by
  rw [← properWords_trim, blank]
  rfl

/-- Cutting a continuation marker off takes no other word. -/
theorem properWords_of_continued?
    {text head : Text}
    (marked : continued? text = some head) :
    properWords head = properWords text := by
  obtain ⟨before, rfl, blank, rfl⟩ := continued?_eq_some_iff.mp marked
  have alone : Text.words [continuationMarker] = [[continuationMarker]] :=
    Text.words_of_visible (List.cons_ne_nil _ _) (List.forall_mem_singleton.mpr rfl)
  have parted :
      Text.words (before ++ [continuationMarker]) =
        Text.words before ++ [[continuationMarker]] := by
    rcases List.eq_nil_or_concat before with rfl | ⟨front, last, rfl⟩
    · exact alone
    · have isBlank : Text.isBlank last = true := blank last (by simp)
      rw [List.concat_eq_append, List.append_assoc, List.singleton_append,
        Text.words_append_cons isBlank, Text.words_append_cons isBlank, alone,
        Text.words_nil, List.append_nil]
  rw [properWords, properWords, parted, List.filter_append, Text.words_trimEnd]
  simp

/-- Joined texts have the words of the one and then those of the other. -/
theorem properWords_joinTexts
    (head next : Text) :
    properWords (joinTexts head next) = properWords head ++ properWords next := by
  unfold joinTexts
  split
  · next noText =>
      rw [List.isEmpty_iff.mp noText]
      rfl
  · split
    · next noText =>
        rw [List.isEmpty_iff.mp noText]
        exact (List.append_nil _).symm
    · have space : Text.isBlank ' ' = true := by
        decide
      rw [properWords, Text.words_append_cons space, List.filter_append]
      rfl

/-! ## Runs of physical lines -/

/-- Whether a logical line comes from a run of physical lines.  The first of them
is visible, and the words are those of all of them. -/
structure IsFromRun (line : Line) (run : List Text) : Prop where
  opens : ∃ opening, run.head? = some opening ∧ Text.trim opening ≠ []
  saysWords : properWords line.text = run.flatMap properWords

/-- A line that gets the words of further physical lines comes from the longer
run. -/
theorem IsFromRun.append
    {line : Line}
    {run : List Text}
    (isFrom : line.IsFromRun run)
    {text : Text}
    {more : List Text}
    (sameWords :
      properWords text = properWords line.text ++ more.flatMap properWords) :
    IsFromRun { line with text := text } (run ++ more) := by
  obtain ⟨opening, isFirst, visible⟩ := isFrom.opens
  refine ⟨⟨opening, ?_, visible⟩, ?_⟩
  · rw [List.head?_append, isFirst, Option.some_or]
  · rw [sameWords, isFrom.saysWords, List.flatMap_append]

/-- A visible line opens a run. -/
theorem isFromRun_trim
    {opening : Text}
    (visible : Text.trim opening ≠ [])
    (number : Nat) :
    IsFromRun ⟨Text.trim opening, number⟩ [opening] := by
  refine ⟨⟨opening, rfl, visible⟩, ?_⟩
  rw [properWords_trim, List.flatMap_singleton]

/-- A line that goes on takes the next physical line into its run. -/
theorem IsFromRun.joined
    {line : Line}
    {run : List Text}
    (isFrom : line.IsFromRun run)
    {head : Text}
    (marked : continued? line.text = some head)
    (next : Text) :
    IsFromRun { line with text := joinTexts head (Text.trim next) } (run ++ [next]) := by
  apply isFrom.append
  rw [properWords_joinTexts, properWords_trim, properWords_of_continued? marked,
    List.flatMap_singleton]

/-- A marker that joins nothing is dropped without taking a word along. -/
theorem IsFromRun.completed
    {line : Line}
    {run : List Text}
    (isFrom : line.IsFromRun run) :
    IsFromRun { line with text := (continued? line.text).getD line.text } run := by
  refine ⟨isFrom.opens, ?_⟩
  rw [← isFrom.saysWords]
  cases marked : continued? line.text with
  | none =>
      rfl
  | some head =>
      exact properWords_of_continued? marked

/-- Whether physical lines from a number on fall into the runs of logical lines.
Only the last of these may end in a continuation marker. -/
inductive FallInto : Nat → List Text → List Line → Prop where
  | nil
      (number : Nat) :
      FallInto number [] []
  | cons
      {line : Line}
      {run rest : List Text}
      {lines : List Line}
      (isFrom : line.IsFromRun run)
      (ends : lines ≠ [] → ¬ EndsInMarker line.text)
      (later : FallInto (line.number + run.length) rest lines) :
      FallInto line.number (run ++ rest) (line :: lines)

/-- Whether physical lines from a number on fall into runs behind blank lines. -/
def FallBehindBlanks (number : Nat) (physical : List Text) (lines : List Line) : Prop :=
  ∃ blanks rest,
    physical = blanks ++ rest ∧
      (∀ text ∈ blanks, Text.trim text = []) ∧
      FallInto (number + blanks.length) rest lines

/-- Without blank lines in front the runs begin at once. -/
theorem FallInto.behindNoBlanks
    {number : Nat}
    {physical : List Text}
    {lines : List Line}
    (falls : FallInto number physical lines) :
    FallBehindBlanks number physical lines :=
  ⟨[], physical, rfl, List.forall_mem_nil _, falls⟩

/-- A blank line in front is one more before the runs. -/
theorem FallBehindBlanks.cons
    {number : Nat}
    {physical : List Text}
    {lines : List Line}
    {text : Text}
    (blank : Text.trim text = [])
    (falls : FallBehindBlanks (number + 1) physical lines) :
    FallBehindBlanks number (text :: physical) lines := by
  obtain ⟨blanks, rest, rfl, areBlank, falls⟩ := falls
  refine ⟨text :: blanks, rest, rfl, List.forall_mem_cons.mpr ⟨blank, areBlank⟩, ?_⟩
  rwa [List.length_cons, Nat.add_comm blanks.length, ← Nat.add_assoc]

/-- A line that stays as it is takes the blank lines behind it into its run. -/
theorem FallBehindBlanks.cons_complete
    {line : Line}
    {run physical : List Text}
    {lines : List Line}
    (later : FallBehindBlanks (line.number + run.length) physical lines)
    (isFrom : line.IsFromRun run)
    (complete : continued? line.text = none) :
    FallInto line.number (run ++ physical) (line :: lines) := by
  obtain ⟨blanks, rest, rfl, areBlank, falls⟩ := later
  have noWords : blanks.flatMap properWords = [] :=
    List.flatMap_eq_nil_iff.mpr fun text isText =>
      properWords_of_blank (areBlank text isText)
  have longer : line.IsFromRun (run ++ blanks) :=
    isFrom.append (by rw [noWords, List.append_nil])
  rw [← List.append_assoc]
  refine .cons longer (fun _ => continued?_eq_none_iff.mp complete) ?_
  rwa [List.length_append, ← Nat.add_assoc]

/-- Behind an open line, and also behind none once a line is visible, physical
lines fall into the runs of the lines that are joined from them. -/
theorem fallInto_joinFrom
    (physical : List Text) :
    (∀ number,
      FallBehindBlanks number physical (joinFrom none (numbered number physical))) ∧
      ∀ line run,
        IsFromRun line run →
          FallInto line.number (run ++ physical)
            (joinFrom (some line)
              (numbered (line.number + run.length) physical)) := by
  induction physical with
  | nil =>
      refine ⟨fun number => (FallInto.nil number).behindNoBlanks, ?_⟩
      intro line run isFrom
      exact .cons isFrom.completed (fun other => (other rfl).elim) (.nil _)
  | cons next rest inductionHypothesis =>
      obtain ⟨behindNone, behindOpen⟩ := inductionHypothesis
      -- Proved first, since a complete line leaves the rest to the case without an open line.
      have fromNone :
          ∀ number,
            FallBehindBlanks number (next :: rest)
              (joinFrom none (numbered number (next :: rest))) := by
        intro number
        cases visible : Text.trim next with
        | nil =>
            apply FallBehindBlanks.cons visible
            simpa only [numbered, joinFrom, opened?, visible] using behindNone (number + 1)
        | cons c text =>
            have opens : opened? ⟨next, number⟩ = some ⟨c :: text, number⟩ := by
              simp only [opened?, visible]
            have isFrom : IsFromRun ⟨c :: text, number⟩ [next] := by
              rw [← visible]
              exact isFromRun_trim (by simp [visible]) number
            rw [numbered, joinFrom, opens]
            exact (behindOpen _ _ isFrom).behindNoBlanks
      refine ⟨fromNone, ?_⟩
      intro line run isFrom
      cases marked : continued? line.text with
      | none =>
          rw [joinFrom_of_complete marked]
          exact (fromNone _).cons_complete isFrom marked
      | some head =>
          have falls := behindOpen _ _ (isFrom.joined marked next)
          rw [List.append_assoc, List.length_append] at falls
          rw [numbered, joinFrom_of_continued marked]
          exact falls

namespace FallInto

variable
  {number : Nat}
  {physical : List Text}

/-- The number of the first line behind physical lines comes after them. -/
theorem number_eq
    {lines : List Line}
    (falls : FallInto number physical lines) :
    lines.head?.elim (number + physical.length) Line.number = number := by
  cases falls with
  | nil => rfl
  | cons isFrom ends later => rfl

/-- Each line has its run in front of those of the later lines. -/
theorem split
    {before after : List Line}
    {line : Line}
    (falls : FallInto number physical (before ++ line :: after)) :
    ∃ front run back,
      physical = front ++ (run ++ back) ∧
        line.number = number + front.length ∧
        line.IsFromRun run ∧
        (after ≠ [] → ¬ EndsInMarker line.text) ∧
        FallInto (line.number + run.length) back after := by
  induction before generalizing number physical with
  | nil =>
      cases falls with
      | @cons _ run rest _ isFrom ends later =>
          exact ⟨[], run, rest, rfl, rfl, isFrom, ends, later⟩
  | cons earlier before inductionHypothesis =>
      cases falls with
      | @cons _ firstRun _ _ isFrom ends later =>
          obtain ⟨front, run, back, rfl, place, rest⟩ := inductionHypothesis later
          refine ⟨firstRun ++ front, run, back, ?_, ?_, rest⟩
          · rw [List.append_assoc]
          · rw [place, List.length_append, Nat.add_assoc]

end FallInto

/-! ## The words of a source -/

/-- The number behind a logical line: that of the next logical line, or of the end
of the source. -/
def numberBehind
    (first : Nat)
    (source : List Text)
    (later : List Line) :
    Nat :=
  later.head?.elim (first + source.length) number

/-- The physical lines of a source that have numbers from `start` on and smaller
than `stop`. -/
def between
    (first : Nat)
    (source : List Text)
    (start stop : Nat) :
    List Text :=
  (source.drop (start - first)).take (stop - start)

section

variable
  {first : Nat}
  {source : List Text}

/-- The run of a logical line reaches to the start of the next one. -/
theorem exists_run_of_logical
    {before after : List Line}
    {line : Line}
    (lines : logical first source = before ++ line :: after) :
    ∃ front run back,
      source = front ++ (run ++ back) ∧
        line.number = first + front.length ∧
        line.IsFromRun run ∧
        (after ≠ [] → ¬ EndsInMarker line.text) ∧
        numberBehind first source after = line.number + run.length := by
  obtain ⟨blanks, rest, rfl, -, falls⟩ := (fallInto_joinFrom source).1 first
  have fallsLines :
      FallInto (first + blanks.length) rest (before ++ line :: after) :=
    lines ▸ falls
  obtain ⟨front, run, back, rfl, place, isFrom, ends, later⟩ := fallsLines.split
  refine ⟨blanks ++ front, run, back, ?_, ?_, isFrom, ends, ?_⟩
  · rw [List.append_assoc]
  · rw [place, List.length_append, Nat.add_assoc]
  · have length :
        first + (blanks ++ (front ++ (run ++ back))).length =
          line.number + run.length + back.length := by
      simp only [List.length_append, place]
      omega
    rw [numberBehind, length]
    exact later.number_eq

/-- A logical line starts on a visible line. -/
theorem exists_opening_of_mem_logical
    {line : Line}
    (isLine : line ∈ logical first source) :
    ∃ index text,
      line.number = first + index ∧
        source[index]? = some text ∧ Text.trim text ≠ [] := by
  obtain ⟨before, after, lines⟩ := List.append_of_mem isLine
  obtain ⟨front, run, back, rfl, place, isFrom, -, -⟩ := exists_run_of_logical lines
  obtain ⟨opening, isFirst, visible⟩ := isFrom.opens
  refine ⟨front.length, opening, place, ?_, visible⟩
  rw [List.getElem?_append_right (Nat.le_refl _), Nat.sub_self, ← List.head?_eq_getElem?,
    List.head?_append, isFirst, Option.some_or]

/-- Only blank lines stand in front of the first logical line. -/
theorem blank_of_number_lt
    {index : Nat}
    {text : Text}
    (isLine : source[index]? = some text)
    (inFront : ∀ line ∈ logical first source, first + index < line.number) :
    Text.trim text = [] := by
  obtain ⟨blanks, rest, rfl, areBlank, falls⟩ := (fallInto_joinFrom source).1 first
  have place := falls.number_eq
  change (logical first (blanks ++ rest)).head?.elim _ _ = _ at place
  have among : index < blanks.length := by
    cases lines : logical first (blanks ++ rest) with
    | nil =>
        obtain ⟨inside, -⟩ := List.getElem?_eq_some_iff.mp isLine
        rw [List.length_append] at inside
        rw [lines, List.head?_nil, Option.elim_none] at place
        omega
    | cons line later =>
        have less := inFront line (by simp [lines])
        rw [lines, List.head?_cons, Option.elim_some] at place
        omega
  rw [List.getElem?_append_left among] at isLine
  exact areBlank text (List.mem_of_getElem? isLine)

/-- A logical line says the words of the physical lines from its start up to that of
the next logical line. -/
theorem properWords_of_logical
    {before after : List Line}
    {line : Line}
    (lines : logical first source = before ++ line :: after) :
    properWords line.text =
      (between first source line.number
        (numberBehind first source after)).flatMap properWords := by
  obtain ⟨front, run, back, whole, place, isFrom, -, behind⟩ :=
    exists_run_of_logical lines
  have isRun :
      between first source line.number (numberBehind first source after) = run := by
    rw [between, behind, whole, place, Nat.add_sub_cancel_left, Nat.add_sub_cancel_left,
      List.drop_left, List.take_left]
  rw [isRun]
  exact isFrom.saysWords

end

/-- Joining keeps every word once and in its place.  The logical lines of a source
have growing numbers, those of visible physical lines, with nothing but blank lines
in front of the first.  Each says, in order, the words of the physical lines from
its start up to the start of the next or to the end, continuation markers aside.  It has
no blank at its ends, and only the last may end in a continuation marker. -/
theorem logical_keeps_words
    (first : Nat)
    (source : List Text) :
    ((logical first source).map number).Pairwise (· < ·) ∧
      (∀ line ∈ logical first source,
        ∃ index text,
          line.number = first + index ∧
            source[index]? = some text ∧ Text.trim text ≠ []) ∧
      (∀ index text,
        source[index]? = some text →
          (∀ line ∈ logical first source, first + index < line.number) →
            Text.trim text = []) ∧
      ∀ before line after,
        logical first source = before ++ line :: after →
          properWords line.text =
              (between first source line.number
                (numberBehind first source after)).flatMap properWords ∧
            Text.trim line.text = line.text ∧
            (after ≠ [] → ¬ EndsInMarker line.text) := by
  refine ⟨logical_increasing first source, fun line => exists_opening_of_mem_logical,
    fun index text => blank_of_number_lt, ?_⟩
  intro before line after lines
  have isLine : line ∈ logical first source := by
    simp [lines]
  obtain ⟨-, -, -, -, -, -, ends, -⟩ := exists_run_of_logical lines
  exact ⟨properWords_of_logical lines, trim_of_mem_logical isLine, ends⟩

/-- Each of two markers takes up a line, and a lone marker in front of a blank line
leaves a logical line without words. -/
example :
    logical 3 ["", "a _ _", "", " b_", "_", "", "c d _ _"] =
      [⟨"a b_", 4⟩, ⟨"", 7⟩, ⟨"c d _", 9⟩] := by
  decide

end ClassicBasic.Line
