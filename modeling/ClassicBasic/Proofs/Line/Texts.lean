import ClassicBasic.Proofs.Line.Numbering
import ClassicBasic.Proofs.OneLine

namespace ClassicBasic.Line

/-!
# The texts of logical lines

The text of a logical line is put together from trimmed physical lines, with a
space between them.  What holds of trimmed lines and is kept by cutting a marker off
and by joining with the next line holds of all logical lines: no blank stands at
their ends, and they hold no line feed that the physical lines do not hold.
-/

/-- A numbered line is one of the source. -/
theorem mem_of_mem_numbered
    {first : Nat}
    {source : List Text}
    {line : Line}
    (isLine : line ∈ numbered first source) :
    line.text ∈ source := by
  induction source generalizing first with
  | nil =>
      cases isLine
  | cons text rest inductionHypothesis =>
      rcases List.mem_cons.mp isLine with rfl | inRest
      · exact List.mem_cons_self
      · exact List.mem_cons_of_mem _ (inductionHypothesis inRest)

section

variable
  {keeps : Text → Prop}
  {physical : List Line}

/-- What opened lines have, and what cutting and joining keep, all logical lines
have. -/
theorem forall_text_joinFrom
    (opens : ∀ line ∈ physical, keeps (Text.trim line.text))
    (cuts : ∀ text head, keeps text → continued? text = some head → keeps head)
    (joins :
      ∀ line ∈ physical, ∀ head,
        keeps head → keeps (joinTexts head (Text.trim line.text)))
    {current : Option Line}
    (isKept : ∀ line ∈ current, keeps line.text) :
    ∀ line ∈ joinFrom current physical, keeps line.text := by
  -- The open line is generalized: it grows by every line that is joined to it.
  induction physical generalizing current with
  | nil =>
      intro line isLine
      cases current with
      | none =>
          simp [joinFrom] at isLine
      | some last =>
          rw [joinFrom, List.mem_singleton] at isLine
          subst line
          have lastKept := isKept last rfl
          cases marked : continued? last.text with
          | none =>
              exact lastKept
          | some head =>
              exact cuts last.text head lastKept marked
  | cons next rest inductionHypothesis =>
      obtain ⟨opensNext, opensRest⟩ := List.forall_mem_cons.mp opens
      obtain ⟨joinsNext, joinsRest⟩ := List.forall_mem_cons.mp joins
      have behind
          {current : Option Line}
          (isKept : ∀ line ∈ current, keeps line.text) :=
        inductionHypothesis opensRest joinsRest isKept
      have opened : ∀ line ∈ next.opened?, keeps line.text := by
        intro line isOpened
        unfold opened? at isOpened
        split at isOpened
        · cases isOpened
        · cases isOpened
          exact opensNext
      cases current with
      | none =>
          exact behind opened
      | some last =>
          have lastKept := isKept last rfl
          unfold joinFrom
          split
          · next head continued =>
              refine behind fun line isJoined => ?_
              cases isJoined
              exact joinsNext head (cuts last.text head lastKept continued)
          · exact List.forall_mem_cons.mpr ⟨lastKept, behind opened⟩

end

/-- What holds of trimmed physical lines and is kept when lines are cut and joined
holds of logical lines. -/
theorem forall_text_logical
    {source : List Text}
    (keeps : Text → Prop)
    (opens : ∀ text ∈ source, keeps (Text.trim text))
    (cuts : ∀ text head, keeps text → continued? text = some head → keeps head)
    (joins :
      ∀ text ∈ source, ∀ head, keeps head → keeps (joinTexts head (Text.trim text)))
    (first : Nat) :
    ∀ line ∈ logical first source, keeps line.text :=
  forall_text_joinFrom
    (fun line isLine => opens line.text (mem_of_mem_numbered isLine)) cuts
    (fun line isLine => joins line.text (mem_of_mem_numbered isLine)) (by simp)

/-! ## Continuation markers -/

/-- Whether a text ends in a continuation marker, which stands alone or behind a
blank. -/
def EndsInMarker (text : Text) : Prop :=
  ∃ before,
    text = before ++ [continuationMarker] ∧
      ∀ c ∈ before.getLast?, Text.isBlank c = true

/-- A continued line contributes what stands before its marker. -/
theorem continued?_eq_some_iff
    {text head : Text} :
    continued? text = some head ↔
      ∃ before,
        text = before ++ [continuationMarker] ∧
          (∀ c ∈ before.getLast?, Text.isBlank c = true) ∧
          head = Text.trimEnd before := by
  rcases List.eq_nil_or_concat text with rfl | ⟨front, last, rfl⟩
  · simp [continued?]
  · simp only [continued?, List.concat_eq_append, List.reverse_append, List.reverse_singleton,
      List.singleton_append, List.head?_reverse, List.reverse_reverse,
      Option.ite_none_right_eq_some, Option.some.injEq, List.append_singleton_inj,
      Option.all_eq_true]
    constructor
    · rintro ⟨⟨isMarker, blank⟩, rfl⟩
      exact ⟨front, ⟨rfl, isMarker⟩, blank, rfl⟩
    · rintro ⟨before, ⟨rfl, isMarker⟩, blank, rfl⟩
      exact ⟨⟨isMarker, blank⟩, rfl⟩

/-- A line goes on behind it exactly if it ends in a marker. -/
theorem continued?_eq_none_iff
    {text : Text} :
    continued? text = none ↔ ¬ EndsInMarker text := by
  constructor
  · rintro complete ⟨before, whole, blank⟩
    have marked := continued?_eq_some_iff.mpr ⟨before, whole, blank, rfl⟩
    rw [complete] at marked
    cases marked
  · intro noMarker
    rw [Option.eq_none_iff_forall_ne_some]
    intro head marked
    obtain ⟨before, whole, blank, -⟩ := continued?_eq_some_iff.mp marked
    exact noMarker ⟨before, whole, blank⟩

instance (text : Text) : Decidable (EndsInMarker text) :=
  decidable_of_iff (continued? text ≠ none)
    ((not_congr continued?_eq_none_iff).trans not_not)

/-! ## Ends -/

/-- No blank stands at the ends of a logical line. -/
theorem trim_of_mem_logical
    {first : Nat}
    {source : List Text}
    {line : Line}
    (isLine : line ∈ logical first source) :
    Text.trim line.text = line.text := by
  refine forall_text_logical (fun text => Text.trim text = text) ?_ ?_ ?_ first line isLine
  · intro text _
    exact Text.trim_trim _
  · intro text head trimmed marked
    obtain ⟨before, rfl, -, rfl⟩ := continued?_eq_some_iff.mp marked
    have isMarker : Text.isBlank continuationMarker = false := by
      decide
    have starts := Text.trimStart_trim (before ++ [continuationMarker])
    rw [trimmed, Text.trimStart_append_cons isMarker, List.append_left_inj] at starts
    rw [Text.trim_trimEnd, Text.trim, starts]
  · intro text _ head trimmed
    unfold joinTexts
    split
    · exact Text.trim_trim _
    · next isText =>
        split
        · exact trimmed
        · next visible =>
            have isVisible : Text.trim text ≠ [] := by
              simpa using visible
            have starts : Text.trimStart head = head := by
              rw [← trimmed, Text.trimStart_trim]
            have opens : Text.trimStart head ≠ [] := by
              rw [starts]
              simpa using isText
            have ends := Text.trimEnd_append_trim isVisible (head ++ [' '])
            rw [Text.trim, Text.trimStart_append opens, starts]
            simpa using ends

/-- No logical line ends with a blank. -/
theorem trimEnd_of_mem_logical
    {first : Nat}
    {source : List Text}
    {line : Line}
    (isLine : line ∈ logical first source) :
    Text.trimEnd line.text = line.text := by
  rw [← trim_of_mem_logical isLine, Text.trim, Text.trimEnd_trimEnd]

/-- Logical lines hold no line feed if the physical lines hold none. -/
theorem oneLine_of_mem_logical
    {first : Nat}
    {source : List Text}
    {line : Line}
    (oneLine : ∀ text ∈ source, '\n' ∉ text)
    (isLine : line ∈ logical first source) :
    '\n' ∉ line.text := by
  have trimmed : ∀ text ∈ source, '\n' ∉ Text.trim text :=
    fun text isText member => oneLine text isText (Text.mem_of_mem_trim member)
  refine
    forall_text_logical (fun text => '\n' ∉ text) trimmed ?_ ?_ first line isLine
  · intro text head noBreak marked member
    obtain ⟨before, rfl, -, rfl⟩ := continued?_eq_some_iff.mp marked
    exact noBreak (List.mem_append_left _ (Text.mem_of_mem_trimEnd member))
  · intro text isText head noBreak
    have noLater := trimmed text isText
    unfold joinTexts
    split
    · exact noLater
    · split
      · exact noBreak
      · simp [noBreak, noLater]

end ClassicBasic.Line
