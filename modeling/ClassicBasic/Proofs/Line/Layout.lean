import ClassicBasic.Line.Comment
import ClassicBasic.Proofs.Line.Numbering
import ClassicBasic.Proofs.Text.Blank
import Mathlib.Logic.Relation

namespace ClassicBasic.Line

/-!
# Layout

Indentation, blank lines and continuation markers decide on which physical line
a logical line starts, but a logical line says the same wherever it starts.
Sources whose logical lines say the same differ in their layout only, and the
numbers of these lines correspond.
-/

/-! ## Renumbering -/

/-- A line with another number. -/
def renumber (f : Nat → Nat) (line : Line) : Line :=
  { line with number := f line.number }

/-- A line that gets another number says the same. -/
@[simp] theorem text_renumber
    (f : Nat → Nat)
    (line : Line) :
    (line.renumber f).text = line.text :=
  rfl

/-- A line has the number that it was given. -/
@[simp] theorem number_renumber
    (f : Nat → Nat)
    (line : Line) :
    (line.renumber f).number = f line.number :=
  rfl

/-- A line that gets another number has the same code. -/
@[simp] theorem code_renumber
    (f : Nat → Nat)
    (line : Line) :
    (line.renumber f).code = line.code :=
  rfl

/-- Whether a line opens a logical line does not depend on its number. -/
theorem opened?_renumber
    (f : Nat → Nat)
    (line : Line) :
    (line.renumber f).opened? = line.opened?.map (renumber f) := by
  unfold opened?
  rw [text_renumber]
  split <;>
    rfl

/-- Joining does not look at numbers. -/
theorem joinFrom_renumber
    (f : Nat → Nat)
    (current : Option Line)
    (physical : List Line) :
    joinFrom (current.map (renumber f)) (physical.map (renumber f)) =
      (joinFrom current physical).map (renumber f) := by
  induction physical generalizing current with
  | nil =>
      cases current <;>
        rfl
  | cons next rest inductionHypothesis =>
      cases current with
      | none =>
          simp only [Option.map_none, List.map_cons, joinFrom, opened?_renumber,
            inductionHypothesis]
      | some line =>
          simp only [Option.map_some, List.map_cons, joinFrom, text_renumber,
            opened?_renumber]
          split
          · next head _ =>
              exact inductionHypothesis
                (some { line with text := joinTexts head (Text.trim next.text) })
          · rw [inductionHypothesis, List.map_cons]

/-- Lines are numbered from a later number on by a shift of all numbers. -/
theorem numbered_add
    (first shift : Nat)
    (source : List Text) :
    numbered (first + shift) source =
      (numbered first source).map (renumber (· + shift)) := by
  induction source generalizing first with
  | nil =>
      rfl
  | cons text rest inductionHypothesis =>
      rw [numbered, numbered, List.map_cons, ← inductionHypothesis, Nat.add_right_comm]
      rfl

/-- Logical lines move with the number of the first physical line. -/
theorem logical_add
    (first shift : Nat)
    (source : List Text) :
    logical (first + shift) source =
      (logical first source).map (renumber (· + shift)) := by
  have moved := joinFrom_renumber (· + shift) none (numbered first source)
  rwa [Option.map_none, ← numbered_add] at moved

/-! ## Logical texts -/

/-- What the logical lines of physical lines say. -/
def texts (physical : List Text) : List Text :=
  (logical 1 physical).map text

/-- What logical lines say does not depend on the number of the first line. -/
theorem map_text_logical
    (first : Nat)
    (physical : List Text) :
    (logical first physical).map text = texts physical := by
  have moved (first : Nat) :
      (logical first physical).map text = (logical 0 physical).map text := by
    have shifted := logical_add 0 first physical
    rw [Nat.zero_add] at shifted
    rw [shifted, List.map_map]
    rfl
  rw [texts, moved, moved 1]

/-! ## Whole lines -/

/-- The logical line that is open behind physical lines, given the one that is
open in front of them. -/
def openBehind : Option Line → List Line → Option Line
  | current, [] => current
  | none, next :: rest => openBehind next.opened? rest
  | some current, next :: rest =>
      match continued? current.text with
      | some head =>
          openBehind
            (some { current with text := joinTexts head (Text.trim next.text) })
            rest
      | none => openBehind next.opened? rest

/-- Whether physical lines make whole logical lines: the last of them does not
go on behind them. -/
def IsWhole (physical : List Text) : Prop :=
  ∀ line ∈ openBehind none (numbered 1 physical), continued? line.text = none

instance (physical : List Text) : Decidable (IsWhole physical) :=
  inferInstanceAs
    (Decidable
      (∀ line ∈ openBehind none (numbered 1 physical), continued? line.text = none))

/-- A logical line that does not go on is complete. -/
theorem joinFrom_of_complete
    {line : Line}
    (complete : continued? line.text = none)
    (physical : List Line) :
    joinFrom (some line) physical = line :: joinFrom none physical := by
  cases physical <;>
    simp only [joinFrom, complete, Option.getD_none]

/-- A logical line that goes on takes the next physical line. -/
theorem joinFrom_of_continued
    {line : Line}
    {head : Text}
    (goesOn : continued? line.text = some head)
    (next : Line)
    (rest : List Line) :
    joinFrom (some line) (next :: rest) =
      joinFrom
        (some { line with text := joinTexts head (Text.trim next.text) })
        rest := by
  simp only [joinFrom, goesOn]

/-- Lines behind a complete logical line are joined on their own. -/
theorem joinFrom_append
    {current : Option Line}
    {front : List Line}
    (complete : ∀ line ∈ openBehind current front, continued? line.text = none)
    (back : List Line) :
    joinFrom current (front ++ back) =
      joinFrom current front ++ joinFrom none back := by
  -- Where the front ends is decided behind it, so the open line is carried along.
  induction front generalizing current with
  | nil =>
      cases current with
      | none =>
          rfl
      | some line =>
          have ends : continued? line.text = none := complete line rfl
          rw [List.nil_append, joinFrom_of_complete ends,
            joinFrom_of_complete ends]
          rfl
  | cons next rest inductionHypothesis =>
      cases current with
      | none =>
          exact inductionHypothesis complete
      | some line =>
          cases state : continued? line.text with
          | none =>
              simp only [openBehind, state] at complete
              rw [joinFrom_of_complete state, joinFrom_of_complete state,
                List.cons_append]
              exact congrArg (line :: ·) (inductionHypothesis complete)
          | some head =>
              simp only [openBehind, state] at complete
              rw [List.cons_append, joinFrom_of_continued state,
                joinFrom_of_continued state]
              exact inductionHypothesis complete

/-- Lines behind others are numbered on from these. -/
theorem numbered_append
    (first : Nat)
    (front back : List Text) :
    numbered first (front ++ back) =
      numbered first front ++ numbered (first + front.length) back := by
  induction front generalizing first with
  | nil =>
      rfl
  | cons text rest inductionHypothesis =>
      simp only [List.cons_append, numbered, inductionHypothesis,
        List.length_cons, Nat.add_assoc, Nat.add_comm 1]

/-- A visible line ends a logical line unless it has a continuation marker. -/
theorem continued?_joinTexts
    {next : Text}
    (visible : next ≠ [])
    (ends : continued? next = none)
    (head : Text) :
    continued? (joinTexts head next) = none := by
  obtain ⟨before, last, rfl⟩ := List.eq_nil_or_concat next |>.resolve_left visible
  unfold joinTexts
  split
  · exact ends
  · split
    · next noText =>
        simp at noText
    · cases before using List.reverseRecOn with
      | nil =>
          have noMarker : last ≠ continuationMarker := by
            simpa [continued?] using ends
          simp [continued?, noMarker]
      | append_singleton earlier blank =>
          simpa [continued?] using ends

/-- Behind a visible line without a continuation marker no logical line goes on. -/
theorem continued?_openBehind
    {last : Text}
    (visible : Text.trim last ≠ [])
    (ends : continued? (Text.trim last) = none)
    (current : Option Line)
    (front : List Line)
    (number : Nat) :
    ∀ line ∈ openBehind current (front ++ [⟨last, number⟩]),
      continued? line.text = none := by
  have starts : ∀ line ∈ opened? ⟨last, number⟩, continued? line.text = none := by
    intro line isOpened
    unfold opened? at isOpened
    split at isOpened
    · cases isOpened
    · cases isOpened
      exact ends
  -- The line in front is generalized, since each line may be joined to the one before.
  induction front generalizing current with
  | nil =>
      cases current with
      | none =>
          exact starts
      | some line =>
          cases goesOn : continued? line.text with
          | none =>
              simpa only [List.nil_append, openBehind, goesOn] using starts
          | some head =>
              simp only [List.nil_append, openBehind, goesOn]
              intro joined isJoined
              cases isJoined
              exact continued?_joinTexts visible ends head
  | cons next rest inductionHypothesis =>
      cases current with
      | none =>
          exact inductionHypothesis next.opened?
      | some line =>
          simp only [List.cons_append, openBehind]
          split
          · exact inductionHypothesis _
          · exact inductionHypothesis next.opened?

section

variable
  {physical : List Text}
  (ends :
    ∀ last ∈ physical.getLast?,
      Text.trim last ≠ [] ∧ continued? (Text.trim last) = none)

include ends

/-- A last line that is visible and has no continuation marker ends the logical
line that is open there. -/
theorem complete_of_ends
    (first : Nat) :
    ∀ line ∈ openBehind none (numbered first physical),
      continued? line.text = none := by
  rcases List.eq_nil_or_concat physical with rfl | ⟨front, last, rfl⟩
  · intro line isOpen
    cases isOpen
  · obtain ⟨isVisible, noMarker⟩ := ends last (by simp)
    rw [List.concat_eq_append, numbered_append]
    exact continued?_openBehind isVisible noMarker none _ _

/-- Behind such a line, the logical lines do not depend on those in front. -/
theorem logical_append
    (first : Nat)
    (back : List Text) :
    logical first (physical ++ back) =
      logical first physical ++ logical (first + physical.length) back := by
  rw [logical, join, numbered_append, joinFrom_append (complete_of_ends ends first)]
  rfl

/-- Behind such a line, one more line is a logical line of its own. -/
theorem logical_concat
    {text : Text}
    (trimmed : Text.trim text = text)
    (visible : text ≠ [])
    (complete : continued? text = none)
    (first : Nat) :
    logical first (physical ++ [text]) =
      logical first physical ++ [⟨text, first + physical.length⟩] := by
  obtain ⟨c, rest, rfl⟩ := List.exists_cons_of_ne_nil visible
  rw [logical_append ends]
  simp [logical, join, numbered, joinFrom, opened?, trimmed, complete]

end

/-- Behind whole logical lines a new one starts. -/
theorem texts_append
    {front : List Text}
    (whole : IsWhole front)
    (back : List Text) :
    texts (front ++ back) = texts front ++ texts back := by
  rw [texts, logical, join, numbered_append, joinFrom_append whole,
    List.map_append, ← map_text_logical (1 + front.length) back]
  rfl

/-! ## Changes of layout -/

/-- One change of the layout of physical lines. -/
inductive Relaid : List Text → List Text → Prop where
  /-- The lines have other blanks around them. -/
  | indented
      {before after : List Text}
      (same : before.map Text.trim = after.map Text.trim) :
      Relaid before after
  /-- A blank line stands between logical lines. -/
  | spaced
      {front back : List Text}
      {blank : Text}
      (whole : IsWhole front)
      (isBlank : Text.trim blank = []) :
      Relaid (front ++ back) (front ++ blank :: back)
  /-- Logical lines are wrapped otherwise. -/
  | wrapped
      {front back first second : List Text}
      (whole : IsWhole front)
      (firstWhole : IsWhole first)
      (secondWhole : IsWhole second)
      (same : texts first = texts second) :
      Relaid (front ++ (first ++ back)) (front ++ (second ++ back))
  /-- The last logical lines are wrapped otherwise, where a continuation marker
  may be left over. -/
  | wrappedLast
      {front first second : List Text}
      (whole : IsWhole front)
      (same : texts first = texts second) :
      Relaid (front ++ first) (front ++ second)

/-- A line without the blanks around it. -/
def trimmed (line : Line) : Line :=
  { line with text := Text.trim line.text }

/-- The blanks around a physical line do not matter to the logical line that it
opens. -/
theorem opened?_trimmed
    (line : Line) :
    line.trimmed.opened? = line.opened? := by
  simp only [opened?, trimmed, Text.trim_trim]

/-- Joining trims every physical line. -/
theorem joinFrom_trimmed
    (current : Option Line)
    (physical : List Line) :
    joinFrom current (physical.map trimmed) = joinFrom current physical := by
  induction physical generalizing current with
  | nil =>
      rfl
  | cons next rest inductionHypothesis =>
      cases current with
      | none =>
          simp only [List.map_cons, joinFrom, opened?_trimmed, inductionHypothesis]
      | some line =>
          have sameText : Text.trim next.trimmed.text = Text.trim next.text :=
            Text.trim_trim next.text
          simp only [List.map_cons, joinFrom, opened?_trimmed, inductionHypothesis,
            sameText]

/-- Lines are numbered alike with and without the blanks around them. -/
theorem numbered_map_trim
    (first : Nat)
    (physical : List Text) :
    numbered first (physical.map Text.trim) = (numbered first physical).map trimmed := by
  induction physical generalizing first with
  | nil =>
      rfl
  | cons text rest inductionHypothesis =>
      rw [List.map_cons, numbered, numbered, List.map_cons, inductionHypothesis]
      rfl

/-- What logical lines say does not depend on the blanks around physical lines. -/
theorem texts_map_trim
    (physical : List Text) :
    texts (physical.map Text.trim) = texts physical := by
  rw [texts, texts, logical, logical, join, join, numbered_map_trim, joinFrom_trimmed]

/-- A blank line says nothing. -/
theorem texts_blank
    {blank : Text}
    (isBlank : Text.trim blank = []) :
    texts [blank] = [] := by
  simp [texts, logical, join, numbered, joinFrom, opened?, isBlank]

/-- A blank line does not go on. -/
theorem isWhole_blank
    {blank : Text}
    (isBlank : Text.trim blank = []) :
    IsWhole [blank] := by
  simp [IsWhole, numbered, openBehind, opened?, isBlank]

/-- One change of the layout does not change what logical lines say. -/
theorem Relaid.texts_eq
    {before after : List Text}
    (relaid : Relaid before after) :
    texts before = texts after := by
  cases relaid with
  | indented same =>
      rw [← texts_map_trim before, same, texts_map_trim]
  | @spaced front back blank whole isBlank =>
      rw [texts_append whole, texts_append whole, ← List.singleton_append,
        texts_append (isWhole_blank isBlank), texts_blank isBlank,
        List.nil_append]
  | wrapped whole firstWhole secondWhole same =>
      rw [texts_append whole, texts_append whole, texts_append firstWhole,
        texts_append secondWhole, same]
  | wrappedLast whole same =>
      rw [texts_append whole, texts_append whole, same]

/-- Nor do any number of them, made or taken back. -/
theorem texts_eq_of_relaid
    {before after : List Text}
    (relaid : Relation.EqvGen Relaid before after) :
    texts before = texts after := by
  induction relaid with
  | rel _ _ once =>
      exact once.texts_eq
  | refl _ =>
      rfl
  | symm _ _ _ inductionHypothesis =>
      exact inductionHypothesis.symm
  | trans _ _ _ _ _ first second =>
      exact first.trans second

/-! ## Corresponding numbers -/

/-- The number of the line in a second list that stands at the place of the
line with a given number in the first; a number of no line is kept. -/
def counterpart : List Line → List Line → Nat → Nat
  | line :: rest, other :: others, number =>
      if line.number = number then other.number
      else counterpart rest others number
  | _, _, number => number

/-- A number of no line has no counterpart but itself. -/
theorem counterpart_of_absent
    {lines : List Line}
    {number : Nat}
    (absent : ∀ line ∈ lines, line.number ≠ number)
    (others : List Line) :
    counterpart lines others number = number := by
  induction lines generalizing others with
  | nil =>
      rfl
  | cons line rest inductionHypothesis =>
      cases others with
      | nil =>
          rfl
      | cons other others =>
          obtain ⟨differs, restDiffer⟩ := List.forall_mem_cons.mp absent
          rw [counterpart, if_neg differs, inductionHypothesis restDiffer]

/-- Lines that say the same differ by the numbers that correspond. -/
theorem map_renumber_counterpart
    {lines others : List Line}
    (increasing : (lines.map number).Pairwise (· < ·))
    (same : lines.map text = others.map text) :
    lines.map (renumber (counterpart lines others)) = others := by
  induction lines generalizing others with
  | nil =>
      cases others with
      | nil =>
          rfl
      | cons other others =>
          cases same
  | cons line rest inductionHypothesis =>
      cases others with
      | nil =>
          cases same
      | cons other others =>
          obtain ⟨sameText, sameRest⟩ := List.cons.inj same
          obtain ⟨isFirst, restIncreasing⟩ := List.pairwise_cons.mp increasing
          -- Numbers increase, so no later line is mistaken for the first one.
          have head :
              line.renumber (counterpart (line :: rest) (other :: others)) =
                other := by
            simp only [renumber, counterpart, if_true, sameText]
          have tail :
              ∀ later ∈ rest,
                later.renumber (counterpart (line :: rest) (other :: others)) =
                  later.renumber (counterpart rest others) := by
            intro later isLater
            have differs : line.number ≠ later.number :=
              Nat.ne_of_lt (isFirst later.number (List.mem_map_of_mem isLater))
            simp only [renumber, counterpart, if_neg differs]
          rw [List.map_cons, head, List.map_congr_left tail,
            inductionHypothesis restIncreasing sameRest]

/-- No logical line stands in front of the first physical line. -/
theorem le_number_of_mem_logical
    {first : Nat}
    {source : List Text}
    {line : Line}
    (isLine : line ∈ logical first source) :
    first ≤ line.number := by
  have kept := joinFrom_sublist none (numbered first source)
  rw [map_number_numbered] at kept
  have inRange := kept.subset (List.mem_map_of_mem isLine)
  exact (List.mem_range'_1.mp inRange).1

/-- No logical line begins behind the last physical line. -/
theorem number_lt_of_mem_logical
    {first : Nat}
    {source : List Text}
    {line : Line}
    (isLine : line ∈ logical first source) :
    line.number < first + source.length := by
  have kept := joinFrom_sublist none (numbered first source)
  rw [map_number_numbered] at kept
  have inRange := kept.subset (List.mem_map_of_mem isLine)
  exact (List.mem_range'_1.mp inRange).2

end ClassicBasic.Line
