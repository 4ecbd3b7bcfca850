import ClassicBasic.Proofs.Line.Scan
import ClassicBasic.Proofs.Text.Blank

namespace ClassicBasic.Line

/-!
# Comments and the code in front of them

A comment leaves the code in front of it alone, whatever it says, with one
exception.  A number sign in the code, behind an operator, waits for another
one to open a date; where the comment has the other one, the marker between
them stands in a date and is no marker.
-/

/-- Whether a character opens a comment where it stands in code. -/
def isCommentMarker (c : Char) : Bool :=
  c = commentMarker

/-- The zone at the end of a line. -/
def endZone (text : Text) : Zone :=
  zoneFrom .code none text

/-- Whether a number sign of a line would open a date if another one followed. -/
def awaitsDate (text : Text) : Bool :=
  awaitsDateFrom .code none text

/-- The blanks around a line do not matter to the zone that it ends in. -/
theorem endZone_trim
    (text : Text) :
    endZone (Text.trim text) = endZone text := by
  have leading : endZone (Text.trimStart text) = endZone text := by
    induction text with
    | nil =>
        rfl
    | cons c rest inductionHypothesis =>
        cases blank : Text.isBlank c with
        | false =>
            rw [Text.trimStart_cons_visible blank]
        | true =>
            have same : endZone (c :: rest) = endZone rest := by
              rw [endZone, zoneFrom, next_of_isBlank blank, visible, if_pos blank]
              rfl
            rw [same, ← inductionHypothesis, Text.trimStart, Text.trimStart,
              List.dropWhile_cons_of_pos blank]
  obtain ⟨blanks, whole, areBlank⟩ :=
    Text.exists_blanks_of_trimEnd (Text.trimStart text)
  have trailing := congrArg endZone whole
  have noSign : dateDelimiter ∉ blanks := Text.not_mem_of_blank (by decide) areBlank
  rw [endZone, endZone, zoneFrom_append (.inr noSign), zoneFrom_of_blank areBlank] at trailing
  rw [← leading]
  exact trailing.symm

/-- Without a marker the whole line is code. -/
theorem cutComment_of_not_found
    {text : Text}
    (notFound : (spanCode isCommentMarker text).2 = []) :
    cutComment text = (text, none) := by
  have cut : spanCode isCommentMarker text = (text, []) :=
    spanFrom_eq_of_snd_eq_nil notFound
  change spanCode (fun c => decide (c = commentMarker)) text = _ at cut
  simp only [cutComment, cut]

/-- The first marker outside of literals begins the comment. -/
theorem cutComment_of_found
    {text code behind : Text}
    {c : Char}
    (cut : spanCode isCommentMarker text = (code, c :: behind)) :
    cutComment text = (code, some (c :: behind)) := by
  change spanCode (fun c => decide (c = commentMarker)) text = _ at cut
  simp only [cutComment, cut]

/-- A comment that is cut off begins where a scan finds the first marker. -/
theorem spanCode_of_cutComment
    {text code comment : Text}
    (cut : cutComment text = (code, some comment)) :
    spanCode isCommentMarker text = (code, comment) := by
  rcases span : spanCode isCommentMarker text with ⟨front, behind⟩
  cases behind with
  | nil =>
      rw [cutComment_of_not_found (by rw [span])] at cut
      cases cut
  | cons c rest =>
      rw [cutComment_of_found span] at cut
      cases cut
      rfl

/-- A line is its code and its comment. -/
theorem append_of_cutComment
    {text code comment : Text}
    (cut : cutComment text = (code, some comment)) :
    code ++ comment = text := by
  have whole := spanFrom_append isCommentMarker .code none text
  have span := spanCode_of_cutComment cut
  rw [spanCode] at span
  rwa [span] at whole

/-- A line has no comment if a scan finds no marker. -/
theorem commentOffset?_eq_none_iff
    {text : Text} :
    commentOffset? text = none ↔ (spanCode isCommentMarker text).2 = [] := by
  rcases span : spanCode isCommentMarker text with ⟨code, behind⟩
  cases behind with
  | nil =>
      simp [commentOffset?, cutComment_of_not_found (by rw [span])]
  | cons c rest =>
      simp [commentOffset?, cutComment_of_found span]

/-- Without a marker the code is the line without the blanks around it. -/
theorem codeText_of_not_found
    {text : Text}
    (notFound : (spanCode isCommentMarker text).2 = []) :
    codeText text = Text.trim text := by
  simp only [codeText, splitComment, cutComment_of_not_found notFound]

/-- A comment that is split off was cut off before the code was trimmed. -/
theorem cutComment_of_splitComment
    {text code comment : Text}
    (split : splitComment text = (code, some comment)) :
    ∃ front, cutComment text = (front, some comment) := by
  unfold splitComment at split
  split at split
  · cases Prod.mk.inj split |>.2
  · next front found cut =>
      cases Prod.mk.inj split |>.2
      exact ⟨front, cut⟩

/-- Neither the space nor the marker in front of a comment is a number sign. -/
theorem sign_mem_comment_iff
    {comment : Text} :
    dateDelimiter ∈ ' ' :: commentMarker :: comment ↔
      dateDelimiter ∈ comment := by
  have notBlank : dateDelimiter ≠ ' ' := by
    decide
  have notMarker : dateDelimiter ≠ commentMarker := by
    decide
  simp [notBlank, notMarker]

/-- A comment is not found where it has the number sign that one of the code
waits for. -/
theorem cutComment_append_comment_ne
    {text comment : Text}
    (awaits : awaitsDate text = true)
    (sign : dateDelimiter ∈ comment) :
    cutComment (text ++ " '" ++ comment) ≠
      (text ++ [' '], some (commentMarker :: comment)) := by
  intro cut
  obtain ⟨front, behind, rfl, noSign⟩ := List.eq_append_cons_of_mem sign
  have noSignBetween : dateDelimiter ∉ ' ' :: commentMarker :: front :=
    fun sign => noSign (sign_mem_comment_iff.mp sign)
  have whole :
      text ++ " '" ++ (front ++ dateDelimiter :: behind) =
        text ++ (' ' :: commentMarker :: front ++ dateDelimiter :: behind) := by
    simp [commentMarker]
  have span := spanCode_of_cutComment cut
  rw [whole, spanCode] at span
  have inDate :=
    awaiting_prefix_spanFrom awaits noSignBetween
      (by rw [span]; exact List.prefix_append text [' '])
  rw [span] at inDate
  have tooLong := inDate.length_le
  simp at tooLong

section Commented

variable
  {text : Text}
  (uncommented : commentOffset? text = none)
include uncommented

/-- A comment behind code in which no number sign waits for its own is found. -/
theorem cutComment_append_comment
    (closed : endZone text ≠ .string)
    (comment : Text)
    (settled : awaitsDate text = false ∨ dateDelimiter ∉ comment) :
    cutComment (text ++ " '" ++ comment) =
      (text ++ [' '], some (commentMarker :: comment)) := by
  have notFound := commentOffset?_eq_none_iff.mp uncommented
  have inCode : zoneFrom .code none text = .code := by
    have notDate : zoneFrom .code none text ≠ .date :=
      zoneFrom_ne_date (by simp)
    cases zone : zoneFrom .code none text with
    | code =>
        rfl
    | string =>
        exact (closed zone).elim
    | date =>
        exact (notDate zone).elim
  have settledBehind :
      awaitsDateFrom .code none text = false ∨
        dateDelimiter ∉ ' ' :: commentMarker :: comment := by
    rcases settled with notAwaiting | noSign
    · exact .inl notAwaiting
    · exact .inr fun sign => noSign (sign_mem_comment_iff.mp sign)
  apply cutComment_of_found
  have whole :
      text ++ " '" ++ comment = text ++ ' ' :: commentMarker :: comment := by
    simp [commentMarker]
  rw [whole, spanCode, spanFrom_append_of_not_found settledBehind notFound, inCode]
  rfl

/-- What a line in front of a comment is read as does not depend on the comment,
unless a number sign of the line waits for one that the comment has. -/
theorem splitComment_append_comment_iff
    (closed : endZone text ≠ .string)
    (comment : Text) :
    (splitComment (text ++ " '" ++ comment) =
          (Text.trimEnd text, some (commentMarker :: comment)) ↔
        ¬(awaitsDate text = true ∧ dateDelimiter ∈ comment)) ∧
      (¬(awaitsDate text = true ∧ dateDelimiter ∈ comment) →
        codeText (text ++ " '" ++ comment) = codeText text) := by
  have found :
      ¬(awaitsDate text = true ∧ dateDelimiter ∈ comment) →
        splitComment (text ++ " '" ++ comment) =
          (Text.trimEnd text, some (commentMarker :: comment)) := by
    intro apart
    have settled : awaitsDate text = false ∨ dateDelimiter ∉ comment := by
      cases awaits : awaitsDate text with
      | false =>
          exact .inl rfl
      | true =>
          exact .inr fun sign => apart ⟨awaits, sign⟩
    simp only [splitComment,
      cutComment_append_comment uncommented closed comment settled]
    rw [Text.trimEnd_append_blank (by decide)]
  refine ⟨⟨?_, found⟩, ?_⟩
  · rintro split ⟨awaits, sign⟩
    -- A split at the marker would be a cut there, but the sign in the comment closes a
    -- date.
    refine cutComment_append_comment_ne awaits sign ?_
    obtain ⟨code, cut⟩ := cutComment_of_splitComment split
    have shape :
        text ++ " '" ++ comment = (text ++ [' ']) ++ commentMarker :: comment := by
      simp [commentMarker]
    have whole := append_of_cutComment cut
    rw [shape] at whole
    rw [cut, List.append_cancel_right whole]
  · intro apart
    rw [codeText, found apart, Text.trim_trimEnd,
      codeText_of_not_found (commentOffset?_eq_none_iff.mp uncommented)]

end Commented

/-- The file number in an argument list waits, and the comment names a number. -/
theorem splitComment_fileNumber :
    let text : Text := "s = Input(5, #1)"
    let comment : Text := " file #1"
    commentOffset? text = none ∧
      endZone text ≠ .string ∧
      splitComment (text ++ " '" ++ comment) ≠
        (Text.trimEnd text, some (commentMarker :: comment)) ∧
      codeText (text ++ " '" ++ comment) ≠ codeText text := by
  decide

/-- A date that is closed in front of the comment does not wait. -/
theorem splitComment_append_comment_closedDate :
    let text : Text := "d = #1/1/2000#"
    let comment : Text := "not #2: it's \"late\""
    commentOffset? text = none ∧
      endZone text ≠ .string ∧
      (splitComment (text ++ " '" ++ comment) =
            (Text.trimEnd text, some (commentMarker :: comment)) ↔
          ¬(awaitsDate text = true ∧ dateDelimiter ∈ comment)) ∧
        (¬(awaitsDate text = true ∧ dateDelimiter ∈ comment) →
          codeText (text ++ " '" ++ comment) = codeText text) :=
  ⟨by decide, by decide,
    splitComment_append_comment_iff (by decide) (by decide) _⟩

end ClassicBasic.Line
