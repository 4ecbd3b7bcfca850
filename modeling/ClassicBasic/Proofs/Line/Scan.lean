import ClassicBasic.Proofs.Line.Opening
import Mathlib.Data.List.Basic

namespace ClassicBasic.Line

/-!
# Scans and the text behind them

What a scan makes of a text depends on what stands behind it in one respect
only: a number sign behind an operator opens a date as soon as another number
sign follows.  A text that leaves no such sign waiting is scanned alike whatever
stands behind it, and where a sign waits, the next one ends the date that both
of them delimit.
-/

/-- The zone behind a text. -/
def zoneFrom (zone : Zone) (before : Option Char) : Text → Zone
  | [] => zone
  | c :: rest => zoneFrom (zone.next before c rest) (visible before c) rest

/-- Whether a character is a number sign that would open a date if another one
followed it. -/
def isAwaiting (zone : Zone) (before : Option Char) (c : Char) (rest : Text) :
    Bool :=
  zone = .code && c = dateDelimiter && before.any dateOperators.contains &&
    !rest.contains dateDelimiter

/-- Whether a number sign of a text would open a date if another one followed. -/
def awaitsDateFrom (zone : Zone) (before : Option Char) : Text → Bool
  | [] => false
  | c :: rest =>
      isAwaiting zone before c rest ||
        awaitsDateFrom (zone.next before c rest) (visible before c) rest

/-- A blank leaves the scan in its zone. -/
theorem next_of_isBlank
    {c : Char}
    (blank : Text.isBlank c = true)
    (zone : Zone)
    (before : Option Char)
    (rest : Text) :
    zone.next before c rest = zone := by
  have notQuote : c ≠ Text.stringDelimiter := by
    rintro rfl
    revert blank
    decide
  have notSign : c ≠ dateDelimiter := by
    rintro rfl
    revert blank
    decide
  cases zone <;>
    simp [Zone.next, notQuote, notSign]

/-- Of the character in front only matters whether it is an operator. -/
theorem next_congr
    {before other : Option Char}
    (alike :
      before.any dateOperators.contains = other.any dateOperators.contains)
    (zone : Zone)
    (c : Char)
    (rest : Text) :
    zone.next before c rest = zone.next other c rest := by
  have sameOpening : opensDate before rest = opensDate other rest := by
    simp only [opensDate, alike]
  cases zone <;>
    simp only [Zone.next, sameOpening]

/-- Operators in front stay operators behind a character, and others stay others. -/
theorem visible_congr
    {before other : Option Char}
    (alike :
      before.any dateOperators.contains = other.any dateOperators.contains)
    (c : Char) :
    (visible before c).any dateOperators.contains =
      (visible other c).any dateOperators.contains := by
  unfold visible
  split
  · exact alike
  · rfl

/-- Of the character in front of a text only matters whether it is an operator. -/
theorem zoneFrom_congr
    {zone : Zone}
    {before other : Option Char}
    (alike :
      before.any dateOperators.contains = other.any dateOperators.contains)
    (text : Text) :
    zoneFrom zone before text = zoneFrom zone other text := by
  induction text generalizing zone before other with
  | nil =>
      rfl
  | cons c rest inductionHypothesis =>
      rw [zoneFrom, zoneFrom, next_congr alike]
      exact inductionHypothesis (visible_congr alike c)

/-- More text lets a number sign open a date only if it brings the closing one. -/
theorem opensDate_append
    (before : Option Char)
    (rest more : Text) :
    opensDate before (rest ++ more) =
      (opensDate before rest ||
        before.any dateOperators.contains && more.contains dateDelimiter) := by
  simp only [opensDate, List.contains_append, Bool.and_or_distrib_left]

/-- Only a waiting number sign takes notice of what stands behind the text. -/
theorem next_append
    {zone : Zone}
    {before : Option Char}
    {c : Char}
    {rest more : Text}
    (settled :
      isAwaiting zone before c rest = false ∨ dateDelimiter ∉ more) :
    zone.next before c (rest ++ more) = zone.next before c rest := by
  cases zone with
  | string | date =>
      rfl
  | code =>
      by_cases isSign : c = dateDelimiter
      · subst c
        have sameOpening :
            opensDate before (rest ++ more) = opensDate before rest := by
          rw [opensDate_append]
          rcases settled with notAwaiting | noSign
          · cases operator : before.any dateOperators.contains with
            | false =>
                simp
            | true =>
                have later : dateDelimiter ∈ rest := by
                  simpa [isAwaiting, operator] using notAwaiting
                simp [opensDate, operator, later]
          · simp [noSign]
        simp only [Zone.next, sameOpening]
      · simp [Zone.next, isSign]

/-- A waiting number sign opens a date once another one follows. -/
theorem next_of_isAwaiting
    {zone : Zone}
    {before : Option Char}
    {c : Char}
    {rest more : Text}
    (awaiting : isAwaiting zone before c rest = true)
    (sign : dateDelimiter ∈ more) :
    zone.next before c (rest ++ more) = .date := by
  simp only [isAwaiting, Bool.and_eq_true, decide_eq_true_eq] at awaiting
  obtain ⟨⟨⟨rfl, rfl⟩, operator⟩, -⟩ := awaiting
  have notQuote : dateDelimiter ≠ Text.stringDelimiter := by
    decide
  simp [Zone.next, notQuote, opensDate, operator, sign]

/-- A date that has been opened is closed in the text that it was opened in. -/
theorem mem_of_next_eq_date
    {zone : Zone}
    {before : Option Char}
    {c : Char}
    {rest : Text}
    (inDate : zone.next before c rest = .date) :
    dateDelimiter ∈ rest ∨ zone = .date ∧ c ≠ dateDelimiter := by
  cases zone with
  | string =>
      simp only [Zone.next] at inDate
      split at inDate <;>
        cases inDate
  | date =>
      right
      refine ⟨rfl, ?_⟩
      rintro rfl
      simp [Zone.next] at inDate
  | code =>
      left
      simp only [Zone.next] at inDate
      split at inDate
      · cases inDate
      · split at inDate
        · next opens =>
            have closes := opens.2
            simp only [opensDate, Bool.and_eq_true] at closes
            simpa using closes.2
        · cases inDate

/-- No text ends inside a date that it opens. -/
theorem zoneFrom_ne_date
    {zone : Zone}
    {before : Option Char}
    {text : Text}
    (closes : zone = .date → dateDelimiter ∈ text) :
    zoneFrom zone before text ≠ .date := by
  induction text generalizing zone before with
  | nil =>
      simpa [zoneFrom] using closes
  | cons c rest inductionHypothesis =>
      refine inductionHypothesis fun inDate => ?_
      rcases mem_of_next_eq_date inDate with later | ⟨isDate, notSign⟩
      · exact later
      · rcases List.mem_cons.mp (closes isDate) with isSign | later
        · exact (notSign isSign.symm).elim
        · exact later

/-- Where no sign waits in vain for what follows, none does behind the first
character. -/
theorem awaitsDateFrom_cons
    {zone : Zone}
    {before : Option Char}
    {c : Char}
    {rest more : Text}
    (settled :
      awaitsDateFrom zone before (c :: rest) = false ∨ dateDelimiter ∉ more) :
    (isAwaiting zone before c rest = false ∨ dateDelimiter ∉ more) ∧
      (awaitsDateFrom (zone.next before c rest) (visible before c) rest = false ∨
        dateDelimiter ∉ more) := by
  rcases settled with notAwaiting | noSign
  · simp only [awaitsDateFrom, Bool.or_eq_false_iff] at notAwaiting
    exact ⟨.inl notAwaiting.1, .inl notAwaiting.2⟩
  · exact ⟨.inr noSign, .inr noSign⟩

/-- The zone behind a text goes on from the one behind its front. -/
theorem zoneFrom_append
    {zone : Zone}
    {before : Option Char}
    {text more : Text}
    (settled :
      awaitsDateFrom zone before text = false ∨ dateDelimiter ∉ more) :
    zoneFrom zone before (text ++ more) =
      zoneFrom (zoneFrom zone before text) (text.foldl visible before) more := by
  induction text generalizing zone before with
  | nil =>
      rfl
  | cons c rest inductionHypothesis =>
      obtain ⟨here, later⟩ := awaitsDateFrom_cons settled
      rw [List.cons_append, zoneFrom, next_append here, inductionHypothesis later]
      rfl

/-- Blanks leave the scan in its zone. -/
theorem zoneFrom_of_blank
    {text : Text}
    (blank : ∀ c ∈ text, Text.isBlank c = true)
    (zone : Zone)
    (before : Option Char) :
    zoneFrom zone before text = zone := by
  induction text generalizing before with
  | nil =>
      rfl
  | cons c rest inductionHypothesis =>
      obtain ⟨isBlank, areBlank⟩ := List.forall_mem_cons.mp blank
      rw [zoneFrom, next_of_isBlank isBlank]
      exact inductionHypothesis areBlank _

section Spans

variable
  {marker : Char → Bool}
  {zone : Zone}
  {before : Option Char}

/-- A scan goes on behind a character that is no marker in code. -/
theorem spanFrom_cons_of_passes
    {c : Char}
    (passes : ¬(zone = .code ∧ marker c = true))
    (rest : Text) :
    spanFrom marker zone before (c :: rest) =
      (c :: (spanFrom marker (zone.next before c rest) (visible before c) rest).1,
        (spanFrom marker (zone.next before c rest) (visible before c) rest).2) := by
  rw [spanFrom, if_neg passes]

/-- A scan stops at a marker in code. -/
theorem spanFrom_cons_of_stops
    {c : Char}
    (stops : zone = .code ∧ marker c = true)
    (rest : Text) :
    spanFrom marker zone before (c :: rest) = ([], c :: rest) := by
  rw [spanFrom, if_pos stops]

/-- The parts of a cut make up the text. -/
theorem append_of_spanFrom
    {text front behind : Text}
    (cut : spanFrom marker zone before text = (front, behind)) :
    front ++ behind = text := by
  have whole := spanFrom_append marker zone before text
  rwa [cut] at whole

/-- A cut without a marker leaves the whole text. -/
theorem spanFrom_eq_of_snd_eq_nil
    {text : Text}
    (notFound : (spanFrom marker zone before text).2 = []) :
    spanFrom marker zone before text = (text, []) := by
  have whole := spanFrom_append marker zone before text
  rw [notFound, List.append_nil] at whole
  exact Prod.ext whole notFound

/-- What a scan stops at is a marker. -/
theorem marker_of_found
    {text code behind : Text}
    {c : Char}
    (found : spanFrom marker zone before text = (code, c :: behind)) :
    marker c = true := by
  induction text generalizing zone before code with
  | nil =>
      simp [spanFrom] at found
  | cons first rest inductionHypothesis =>
      by_cases stops : zone = .code ∧ marker first = true
      · rw [spanFrom_cons_of_stops stops] at found
        cases found
        exact stops.2
      · rw [spanFrom_cons_of_passes stops] at found
        exact inductionHypothesis (Prod.ext rfl (Prod.mk.inj found).2)

/-- What a cut finds in a text it finds there whatever stands behind. -/
theorem spanFrom_append_of_found
    {text more code behind : Text}
    {c : Char}
    (settled :
      awaitsDateFrom zone before text = false ∨ dateDelimiter ∉ more)
    (found : spanFrom marker zone before text = (code, c :: behind)) :
    spanFrom marker zone before (text ++ more) = (code, c :: behind ++ more) := by
  induction text generalizing zone before code with
  | nil =>
      simp [spanFrom] at found
  | cons first rest inductionHypothesis =>
      obtain ⟨here, later⟩ := awaitsDateFrom_cons settled
      rw [List.cons_append]
      by_cases stops : zone = .code ∧ marker first = true
      · rw [spanFrom_cons_of_stops stops] at found ⊢
        cases found
        rfl
      · rw [spanFrom_cons_of_passes stops] at found
        obtain ⟨rfl, behindShape⟩ := Prod.mk.inj found
        have tail := inductionHypothesis later (Prod.ext rfl behindShape)
        rw [spanFrom_cons_of_passes stops, next_append here, tail]

/-- A cut that finds nothing in a text goes on behind it. -/
theorem spanFrom_append_of_not_found
    {text more : Text}
    (settled :
      awaitsDateFrom zone before text = false ∨ dateDelimiter ∉ more)
    (notFound : (spanFrom marker zone before text).2 = []) :
    spanFrom marker zone before (text ++ more) =
      (text ++
          (spanFrom marker (zoneFrom zone before text)
            (text.foldl visible before) more).1,
        (spanFrom marker (zoneFrom zone before text)
          (text.foldl visible before) more).2) := by
  induction text generalizing zone before with
  | nil =>
      rfl
  | cons first rest inductionHypothesis =>
      obtain ⟨here, later⟩ := awaitsDateFrom_cons settled
      have passes : ¬(zone = .code ∧ marker first = true) := by
        intro stops
        rw [spanFrom_cons_of_stops stops] at notFound
        cases notFound
      rw [spanFrom_cons_of_passes passes] at notFound
      rw [List.cons_append, spanFrom_cons_of_passes passes, next_append here,
        inductionHypothesis later notFound]
      rfl

/-- No marker stands in a date. -/
theorem date_prefix_spanFrom
    {text more : Text}
    (noSign : dateDelimiter ∉ text) :
    text ++ [dateDelimiter] <+:
      (spanFrom marker .date before (text ++ dateDelimiter :: more)).1 := by
  have passes : ∀ c, ¬(Zone.date = .code ∧ marker c = true) := by
    simp
  induction text generalizing before with
  | nil =>
      change [dateDelimiter] <+:
        (spanFrom marker .date before (dateDelimiter :: more)).1
      rw [spanFrom_cons_of_passes (passes dateDelimiter)]
      simp
  | cons c rest inductionHypothesis =>
      have notSign : c ≠ dateDelimiter := by
        rintro rfl
        simp at noSign
      have stays :
          Zone.date.next before c (rest ++ dateDelimiter :: more) = .date := by
        simp [Zone.next, notSign]
      simp only [List.cons_append]
      rw [spanFrom_cons_of_passes (passes c), stays]
      refine (List.prefix_cons_inj c).mpr (inductionHypothesis ?_)
      exact fun later => noSign (List.mem_cons_of_mem c later)

/-- Where a number sign of the text waits, no marker stands between the text
and the next number sign. -/
theorem awaiting_prefix_spanFrom
    {text between more : Text}
    (awaits : awaitsDateFrom zone before text = true)
    (noSign : dateDelimiter ∉ between)
    (passesText :
      text <+:
        (spanFrom marker zone before
          (text ++ (between ++ dateDelimiter :: more))).1) :
    text ++ between ++ [dateDelimiter] <+:
      (spanFrom marker zone before
        (text ++ (between ++ dateDelimiter :: more))).1 := by
  induction text generalizing zone before with
  | nil =>
      simp [awaitsDateFrom] at awaits
  | cons first rest inductionHypothesis =>
      simp only [List.cons_append] at passesText ⊢
      have passes : ¬(zone = .code ∧ marker first = true) := by
        intro stops
        rw [spanFrom_cons_of_stops stops] at passesText
        simp at passesText
      rw [spanFrom_cons_of_passes passes] at passesText ⊢
      replace passesText := (List.prefix_cons_inj first).mp passesText
      refine (List.prefix_cons_inj first).mpr ?_
      cases here : isAwaiting zone before first rest with
      | true =>
          rw [next_of_isAwaiting here (by simp), ← List.append_assoc]
          refine date_prefix_spanFrom ?_
          simp only [isAwaiting, Bool.and_eq_true, Bool.not_eq_true'] at here
          have noLater : dateDelimiter ∉ rest := by
            simpa using here.2
          simp [noLater, noSign]
      | false =>
          rw [next_append (.inl here)] at passesText ⊢
          refine inductionHypothesis ?_ passesText
          simpa [awaitsDateFrom, here] using awaits

/-- A cut behind a text tells that no number sign of the text waits for one
behind the cut. -/
theorem settled_of_spanFrom
    {text more : Text}
    (cut : spanFrom marker zone before (text ++ more) = (text, more)) :
    awaitsDateFrom zone before text = false ∨ dateDelimiter ∉ more := by
  cases awaits : awaitsDateFrom zone before text with
  | false =>
      exact .inl rfl
  | true =>
      right
      intro sign
      obtain ⟨between, behind, rfl, noSign⟩ := List.eq_append_cons_of_mem sign
      have passesText :
          text <+:
            (spanFrom marker zone before
              (text ++ (between ++ dateDelimiter :: behind))).1 :=
        ⟨[], by rw [cut, List.append_nil]⟩
      have inDate := awaiting_prefix_spanFrom awaits noSign passesText
      rw [cut] at inDate
      have tooLong := inDate.length_le
      simp only [List.length_append, List.length_singleton] at tooLong
      omega

/-- Cut off what is behind a cut, and the cut finds nothing. -/
theorem spanFrom_of_cut
    {text more : Text}
    (cut : spanFrom marker zone before (text ++ more) = (text, more)) :
    spanFrom marker zone before text = (text, []) := by
  have settled := settled_of_spanFrom cut
  rcases found : spanFrom marker zone before text with ⟨code, behind⟩
  cases behind with
  | nil =>
      exact found ▸ spanFrom_eq_of_snd_eq_nil (by rw [found])
  | cons c behind =>
      rw [spanFrom_append_of_found settled found] at cut
      have whole := spanFrom_append marker zone before text
      rw [found, (Prod.mk.inj cut).1] at whole
      have tooLong := congrArg List.length whole
      simp at tooLong

/-- A scan only asks whether an operator stands in front of it. -/
theorem spanFrom_congr
    {other : Option Char}
    (alike :
      before.any dateOperators.contains = other.any dateOperators.contains)
    (text : Text) :
    spanFrom marker zone before text = spanFrom marker zone other text := by
  induction text generalizing zone before other with
  | nil =>
      rfl
  | cons c rest inductionHypothesis =>
      simp only [spanFrom, next_congr alike,
        inductionHypothesis (visible_congr alike c)]

/-- A cut at fewer markers goes on where a cut at more of them stops. -/
theorem spanFrom_of_coarser
    {coarse : Char → Bool}
    (coarser : ∀ c, marker c = true → coarse c = true)
    {text code behind : Text}
    (cut : spanFrom coarse zone before text = (code, behind)) :
    spanFrom marker zone before text =
      (code ++ (spanFrom marker .code (code.foldl visible before) behind).1,
        (spanFrom marker .code (code.foldl visible before) behind).2) := by
  induction text generalizing zone before code with
  | nil =>
      cases cut
      rfl
  | cons c rest inductionHypothesis =>
      by_cases stops : zone = .code ∧ coarse c = true
      · rw [spanFrom_cons_of_stops stops] at cut
        cases cut
        rw [stops.1]
        rfl
      · have passes : ¬(zone = .code ∧ marker c = true) :=
          fun found => stops ⟨found.1, coarser c found.2⟩
        rw [spanFrom_cons_of_passes stops] at cut
        obtain ⟨rfl, behindShape⟩ := Prod.mk.inj cut
        have tail := inductionHypothesis (Prod.ext rfl behindShape)
        rw [spanFrom_cons_of_passes passes, tail]
        rfl

/-- A text that has been cut does not open with a marker. -/
theorem marker_opening?_spanFrom
    {text : Text}
    {c : Char}
    (opens : Text.opening? (spanFrom marker .code before text).1 = some c) :
    marker c = false := by
  induction text generalizing before with
  | nil =>
      simp [spanFrom, Text.opening?] at opens
  | cons first rest inductionHypothesis =>
      by_cases stops : marker first = true
      · rw [spanFrom_cons_of_stops ⟨rfl, stops⟩] at opens
        simp [Text.opening?] at opens
      · rw [spanFrom_cons_of_passes (by simp [stops])] at opens
        by_cases blank : Text.isBlank first = true
        · rw [next_of_isBlank blank] at opens
          have opensRest :
              Text.opening?
                  (spanFrom marker .code (visible before first) rest).1 =
                some c := by
            simpa [Text.opening?, Text.isVisible, blank] using opens
          exact inductionHypothesis opensRest
        · have isFirst : first = c := by
            simpa [Text.opening?, Text.isVisible, blank] using opens
          rw [← isFirst]
          simpa using stops

/-- What a cut does not find in a text it does not find in a front of it. -/
theorem spanFrom_snd_eq_nil_of_append
    {text more : Text}
    (settled :
      awaitsDateFrom zone before text = false ∨ dateDelimiter ∉ more)
    (notFound : (spanFrom marker zone before (text ++ more)).2 = []) :
    (spanFrom marker zone before text).2 = [] := by
  rcases found : spanFrom marker zone before text with ⟨code, behind⟩
  cases behind with
  | nil =>
      rfl
  | cons c behind =>
      rw [spanFrom_append_of_found settled found] at notFound
      cases notFound

/-- A cut stops in code. -/
theorem zoneFrom_of_found
    {text code behind : Text}
    {c : Char}
    (found : spanFrom marker zone before text = (code, c :: behind)) :
    zoneFrom zone before code = .code := by
  rw [← append_of_spanFrom found] at found
  have notFound : (spanFrom marker zone before code).2 = [] := by
    rw [spanFrom_of_cut found]
  rw [spanFrom_append_of_not_found (settled_of_spanFrom found) notFound] at found
  have nothing := List.append_right_eq_self.mp (Prod.mk.inj found).1
  by_contra inLiteral
  rw [spanFrom_cons_of_passes (by simp [inLiteral])] at nothing
  cases nothing

/-- A marker that is found is found where the text ends behind it. -/
theorem spanFrom_found
    {text code behind : Text}
    {c : Char}
    (found : spanFrom marker zone before text = (code, c :: behind)) :
    spanFrom marker zone before (code ++ [c]) = (code, [c]) := by
  have inCode := zoneFrom_of_found found
  have marks := marker_of_found found
  rw [← append_of_spanFrom found] at found
  have settled :
      awaitsDateFrom zone before code = false ∨ dateDelimiter ∉ [c] :=
    (settled_of_spanFrom found).imp_right fun noSign sign =>
      noSign (List.mem_cons.mpr (.inl (List.mem_singleton.mp sign)))
  rw [spanFrom_append_of_not_found settled (by rw [spanFrom_of_cut found]), inCode,
    spanFrom_cons_of_stops ⟨rfl, marks⟩, List.append_nil]

/-- A marker at the end of a text that is not found stands in a literal. -/
theorem zoneFrom_ne_code_of_marker
    {text : Text}
    {c : Char}
    (marks : marker c = true)
    (isNoQuote : c ≠ Text.stringDelimiter)
    (isNoSign : c ≠ dateDelimiter)
    (notFound : (spanFrom marker zone before (text ++ [c])).2 = []) :
    zoneFrom zone before (text ++ [c]) ≠ .code := by
  have settled :
      awaitsDateFrom zone before text = false ∨ dateDelimiter ∉ [c] :=
    .inr (by simpa using isNoSign.symm)
  have notInFront := spanFrom_snd_eq_nil_of_append settled notFound
  rw [spanFrom_append_of_not_found settled notInFront] at notFound
  rw [zoneFrom_append settled]
  cases inside : zoneFrom zone before text with
  | code =>
      rw [inside, spanFrom_cons_of_stops ⟨rfl, marks⟩] at notFound
      cases notFound
  | string =>
      simp [zoneFrom, Zone.next, isNoQuote]
  | date =>
      simp [zoneFrom, Zone.next, isNoSign]

/-- The blanks in front of a text stay in front of the cut. -/
theorem spanCode_trimStart
    (areVisible : ∀ c, marker c = true → Text.isBlank c = false)
    (text : Text) :
    spanCode marker (Text.trimStart text) =
      (Text.trimStart (spanCode marker text).1, (spanCode marker text).2) := by
  induction text with
  | nil =>
      rfl
  | cons c rest inductionHypothesis =>
      cases blank : Text.isBlank c with
      | false =>
          rw [Text.trimStart_cons_visible blank]
          refine Prod.ext ?_ rfl
          rw [spanCode, spanFrom]
          split
          · rfl
          · exact (Text.trimStart_cons_visible blank _).symm
      | true =>
          have passes : ¬(Zone.code = .code ∧ marker c = true) := by
            rintro ⟨-, marks⟩
            rw [areVisible c marks] at blank
            cases blank
          have behind :
              spanCode marker (c :: rest) =
                (c :: (spanCode marker rest).1, (spanCode marker rest).2) := by
            rw [spanCode, spanFrom_cons_of_passes passes, next_of_isBlank blank, visible,
              if_pos blank]
            rfl
          rw [behind, Text.trimStart, Text.trimStart, List.dropWhile_cons_of_pos blank,
            List.dropWhile_cons_of_pos blank]
          exact inductionHypothesis

/-- A text without markers has none without the blanks around it. -/
theorem spanCode_trim
    (areVisible : ∀ c, marker c = true → Text.isBlank c = false)
    {text : Text}
    (notFound : spanCode marker text = (text, [])) :
    spanCode marker (Text.trim text) = (Text.trim text, []) := by
  have noneBehind := spanCode_trimStart areVisible text
  rw [notFound] at noneBehind
  obtain ⟨blanks, whole, areBlank⟩ :=
    Text.exists_blanks_of_trimEnd (Text.trimStart text)
  rw [whole] at noneBehind
  refine spanFrom_eq_of_snd_eq_nil ?_
  exact
    spanFrom_snd_eq_nil_of_append (.inr (Text.not_mem_of_blank (by decide) areBlank))
      (congrArg Prod.snd noneBehind)

end Spans

end ClassicBasic.Line
