import ClassicBasic.Proofs.Line.Scan
import ClassicBasic.Proofs.Text.TopLevel

namespace ClassicBasic

/-!
# Texts that a scan passes over

A text without markers and number signs outside its literals leaves a scan where it
was, wherever in a line it stands.  So a line that is put together from such texts is
passed over as a whole.
-/

/-- The characters of a text that stand outside string literals, with the quotes that
open one. -/
def Text.Nesting.bare (nesting : Nesting) : Text → Text
  | [] => []
  | c :: rest =>
      if nesting.inString then (nesting.after c).bare rest
      else c :: (nesting.after c).bare rest

/-- What stands outside of literals stands in the text. -/
theorem Text.Nesting.mem_of_mem_bare
    {nesting : Nesting}
    {text : Text}
    {c : Char}
    (member : c ∈ nesting.bare text) :
    c ∈ text := by
  induction text generalizing nesting with
  | nil =>
      exact member
  | cons first rest inductionHypothesis =>
      unfold bare at member
      split at member
      · exact List.mem_cons_of_mem first (inductionHypothesis member)
      · exact
          List.mem_cons.mpr ((List.mem_cons.mp member).imp_right inductionHypothesis)

namespace Line

/-- Whether a scan that meets a text in code passes over it: no marker is found, the
scan is in code behind it, and no number sign waits for another one. -/
structure IsPassed (marker : Char → Bool) (text : Text) : Prop where
  endsInCode : ∀ before, zoneFrom .code before text = .code
  awaitsNothing : ∀ before, awaitsDateFrom .code before text = false
  notFound : ∀ before, (spanFrom marker .code before text).2 = []

/-- A number sign that has met another one waits for none behind the text. -/
theorem awaitsDateFrom_append
    {zone : Zone}
    {before : Option Char}
    {text : Text}
    (settled : awaitsDateFrom zone before text = false)
    (more : Text) :
    awaitsDateFrom zone before (text ++ more) =
      awaitsDateFrom (zoneFrom zone before text) (text.foldl visible before) more := by
  induction text generalizing zone before with
  | nil =>
      rfl
  | cons c rest inductionHypothesis =>
      rw [awaitsDateFrom, Bool.or_eq_false_iff] at settled
      obtain ⟨here, later⟩ := settled
      have still : isAwaiting zone before c (rest ++ more) = false := by
        rw [isAwaiting, Bool.and_eq_false_iff] at here ⊢
        refine here.imp_right fun found => ?_
        rw [Bool.not_eq_false'] at found ⊢
        rw [List.contains_append, found, Bool.true_or]
      rw [List.cons_append, awaitsDateFrom, still, next_append (.inl here),
        inductionHypothesis later]
      rfl

section Passed

variable
  {marker : Char → Bool}
  {text : Text}

/-- A scan passes two texts one behind the other if it passes each. -/
theorem IsPassed.append
    {more : Text}
    (passed : IsPassed marker text)
    (morePassed : IsPassed marker more) :
    IsPassed marker (text ++ more) := by
  constructor
  · intro before
    rw [zoneFrom_append (.inl (passed.awaitsNothing before)), passed.endsInCode]
    exact morePassed.endsInCode _
  · intro before
    rw [awaitsDateFrom_append (passed.awaitsNothing before), passed.endsInCode]
    exact morePassed.awaitsNothing _
  · intro before
    rw [spanFrom_append_of_not_found (.inl (passed.awaitsNothing before))
      (passed.notFound before), passed.endsInCode]
    exact morePassed.notFound _

/-- A number sign that ends a name opens no date. -/
theorem IsPassed.append_sign
    (passed : IsPassed marker text)
    (noMarker : marker dateDelimiter = false)
    (noOperator :
      ∀ before, (text.foldl visible before).any dateOperators.contains = false) :
    IsPassed marker (text ++ [dateDelimiter]) := by
  have notQuote : dateDelimiter ≠ Text.stringDelimiter := by
    decide
  constructor
  · intro before
    rw [zoneFrom_append (.inl (passed.awaitsNothing before)), passed.endsInCode]
    simp [zoneFrom, Zone.next, notQuote, opensDate]
  · intro before
    rw [awaitsDateFrom_append (passed.awaitsNothing before), passed.endsInCode]
    simp [awaitsDateFrom, isAwaiting, noOperator]
  · intro before
    rw [spanFrom_append_of_not_found (.inl (passed.awaitsNothing before))
      (passed.notFound before), passed.endsInCode]
    simp [spanFrom, noMarker]

/-- The zone of a scan that only knows string literals. -/
def Zone.ofNesting (nesting : Text.Nesting) : Zone :=
  if nesting.inString then .string else .code

/-- As long as no number sign stands in code, a scan tells literals from code as
counting quotes does. -/
theorem next_ofNesting
    {nesting : Text.Nesting}
    {c : Char}
    (noSign : nesting.inString = false → c ≠ dateDelimiter)
    (before : Option Char)
    (rest : Text) :
    (Zone.ofNesting nesting).next before c rest = Zone.ofNesting (nesting.after c) := by
  rcases nesting with ⟨inString, depth⟩
  by_cases delimits : c = Text.stringDelimiter
  · cases inString <;>
      simp [Zone.ofNesting, Zone.next, Text.Nesting.after, delimits]
  · cases inString with
    | true =>
        simp [Zone.ofNesting, Zone.next, Text.Nesting.after, delimits]
    | false =>
        have inCode : (Text.Nesting.after ⟨false, depth⟩ c).inString = false := by
          unfold Text.Nesting.after
          rw [if_neg delimits, if_neg Bool.false_ne_true]
          split_ifs <;>
            rfl
        have stays : (Zone.ofNesting ⟨false, depth⟩).next before c rest = .code := by
          simp [Zone.ofNesting, Zone.next, delimits, noSign rfl]
        rw [stays, Zone.ofNesting, inCode]
        rfl

/-- A scan walks over literals as the nesting of the text does, as long as no number
sign and no marker stands outside of them. -/
theorem passes_ofNesting
    {nesting : Text.Nesting}
    (closed : (nesting.behind text).inString = false)
    (quiet : ∀ c ∈ nesting.bare text, c ≠ dateDelimiter ∧ marker c = false)
    (before : Option Char) :
    zoneFrom (.ofNesting nesting) before text = .code ∧
      awaitsDateFrom (.ofNesting nesting) before text = false ∧
        (spanFrom marker (.ofNesting nesting) before text).2 = [] := by
  -- The nesting tells the zone at every character, so both scans go on in step.
  induction text generalizing nesting before with
  | nil =>
      have outside : nesting.inString = false := closed
      simp [zoneFrom, awaitsDateFrom, spanFrom, Zone.ofNesting, outside]
  | cons c rest inductionHypothesis =>
      have here :
          nesting.inString = false → c ≠ dateDelimiter ∧ marker c = false := by
        intro outside
        refine quiet c ?_
        simp [Text.Nesting.bare, outside]
      have later :
          ∀ d ∈ (nesting.after c).bare rest, d ≠ dateDelimiter ∧ marker d = false := by
        intro d member
        refine quiet d ?_
        unfold Text.Nesting.bare
        split
        · exact member
        · exact List.mem_cons_of_mem c member
      have goesOn := next_ofNesting (fun outside => (here outside).1) before rest
      have passes : ¬(Zone.ofNesting nesting = .code ∧ marker c = true) := by
        rintro ⟨inCode, marks⟩
        cases outside : nesting.inString with
        | true =>
            simp [Zone.ofNesting, outside] at inCode
        | false =>
            simp [(here outside).2] at marks
      have awaits : isAwaiting (.ofNesting nesting) before c rest = false := by
        cases outside : nesting.inString with
        | true =>
            simp [isAwaiting, Zone.ofNesting, outside]
        | false =>
            simp [isAwaiting, (here outside).1]
      rw [zoneFrom, awaitsDateFrom, awaits, Bool.false_or, spanFrom_cons_of_passes passes,
        goesOn]
      exact inductionHypothesis closed later _

/-- A scan passes a text with closed literals if nothing outside of them is a number
sign or a marker. -/
theorem isPassed_of_bare
    (closed : (Text.Nesting.top.behind text).inString = false)
    (quiet :
      ∀ c ∈ Text.Nesting.top.bare text, c ≠ dateDelimiter ∧ marker c = false) :
    IsPassed marker text where
  endsInCode before := (passes_ofNesting closed quiet before).1
  awaitsNothing before := (passes_ofNesting closed quiet before).2.1
  notFound before := (passes_ofNesting closed quiet before).2.2

/-- A text without literals is passed over if it has no marker. -/
theorem isPassed_of_plain
    (plain :
      ∀ c ∈ text, c ≠ Text.stringDelimiter ∧ c ≠ dateDelimiter ∧ marker c = false) :
    IsPassed marker text := by
  have bare : Text.stringDelimiter ∉ text := fun member => (plain _ member).1 rfl
  exact
    isPassed_of_bare (Text.Nesting.inString_behind bare _) fun c member =>
      (plain c (Text.Nesting.mem_of_mem_bare member)).2

end Passed

end Line

end ClassicBasic
