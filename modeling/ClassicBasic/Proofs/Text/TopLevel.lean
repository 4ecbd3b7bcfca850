import ClassicBasic.Proofs.Text.Blank
import ClassicBasic.Text.TopLevel

namespace ClassicBasic.Text

/-!
# Cutting at the top level

Cutting takes a text character by character: each is put in front of the first
part, or opens a new one.  So a text that goes on only adds to its last part and
behind it, and the parts have all characters but the separators.  Nothing is open
where a part begins, so it can be cut for itself.
-/

/-! ## Nesting -/

/-- Where a character stands. -/
structure Nesting where
  inString : Bool
  /-- The number of open parentheses. -/
  depth : Nat
  deriving DecidableEq

namespace Nesting

/-- Outside all parentheses and string literals. -/
def top : Nesting :=
  ⟨false, 0⟩

/-- The nesting behind a character. -/
def after (nesting : Nesting) (c : Char) : Nesting :=
  if c = stringDelimiter then { nesting with inString := !nesting.inString }
  else if nesting.inString then nesting
  else if c = '(' then { nesting with depth := nesting.depth + 1 }
  else if c = ')' then { nesting with depth := nesting.depth - 1 }
  else nesting

/-- Whether all that is open closes in a text, and nothing closes that is not
open. -/
def closes (nesting : Nesting) : Text → Bool
  | [] => nesting = top
  | c :: rest => !(c = ')' && nesting = top) && (nesting.after c).closes rest

/-- The nesting behind a text. -/
def behind (nesting : Nesting) (text : Text) : Nesting :=
  text.foldl after nesting

/-- What closes behind a text is what is open there. -/
theorem closes_behind
    {nesting : Nesting}
    {front rest : Text}
    (closed : nesting.closes (front ++ rest) = true) :
    (nesting.behind front).closes rest = true := by
  induction front generalizing nesting with
  | nil =>
      exact closed
  | cons c front inductionHypothesis =>
      rw [List.cons_append, closes, Bool.and_eq_true] at closed
      exact inductionHypothesis closed.2

/-- Behind what closes all that is open nothing is open. -/
theorem behind_of_closes
    {nesting : Nesting}
    {text : Text}
    (closed : nesting.closes text = true) :
    nesting.behind text = top := by
  rw [← List.append_nil text] at closed
  exact of_decide_eq_true (closes_behind closed)

/-- Texts that are closed one behind the other are closed together. -/
theorem closes_append
    {nesting : Nesting}
    {front rest : Text}
    (frontCloses : nesting.closes front = true)
    (restCloses : top.closes rest = true) :
    nesting.closes (front ++ rest) = true := by
  induction front generalizing nesting with
  | nil =>
      rw [closes, decide_eq_true_eq] at frontCloses
      rwa [frontCloses]
  | cons c front inductionHypothesis =>
      rw [closes, Bool.and_eq_true] at frontCloses
      rw [List.cons_append, closes, frontCloses.1, inductionHypothesis frontCloses.2]
      rfl

/-- Whether no separator of a text stands at the top. -/
def hides (separator : Char) (nesting : Nesting) : Text → Bool
  | [] => true
  | c :: rest => !(c = separator && nesting = top) && (nesting.after c).hides separator rest

/-- Two texts hide a separator one behind the other if each does in its place. -/
theorem hides_append
    {separator : Char}
    {nesting : Nesting}
    {front rest : Text}
    (frontHides : nesting.hides separator front = true)
    (restHides : (nesting.behind front).hides separator rest = true) :
    nesting.hides separator (front ++ rest) = true := by
  induction front generalizing nesting with
  | nil =>
      exact restHides
  | cons c front inductionHypothesis =>
      rw [hides, Bool.and_eq_true] at frontHides
      rw [List.cons_append, hides, frontHides.1,
        inductionHypothesis frontHides.2 restHides]
      rfl

/-- Only quotes begin and end literals. -/
theorem inString_behind
    {text : Text}
    (bare : stringDelimiter ∉ text)
    (nesting : Nesting) :
    (nesting.behind text).inString = nesting.inString := by
  induction text generalizing nesting with
  | nil =>
      rfl
  | cons c rest inductionHypothesis =>
      obtain ⟨noDelimiter, inRest⟩ := not_or.mp (mt List.mem_cons.mpr bare)
      have here : (nesting.after c).inString = nesting.inString := by
        unfold after
        split_ifs with delimits <;>
          first | rfl | exact absurd delimits.symm noDelimiter
      exact (inductionHypothesis inRest _).trans here

/-- A parenthesis that closes in front of the end of the text, and none is open,
stands in a literal. -/
theorem inString_of_closes
    {nesting : Nesting}
    {rest : Text}
    (flat : nesting.depth = 0)
    (closed : nesting.closes (')' :: rest) = true) :
    nesting.inString = true := by
  rcases nesting with ⟨inString, depth⟩
  cases flat
  cases inString with
  | true =>
      rfl
  | false =>
      cases closed

end Nesting

/-- Whether the parentheses of a text are paired outside its string literals, and
its literals are closed. -/
def IsBalanced (text : Text) : Prop :=
  Nesting.top.closes text = true

instance : DecidablePred IsBalanced :=
  fun text => inferInstanceAs (Decidable (Nesting.top.closes text = true))

/-- Whether a text can be a part of a list: it is balanced, and no separator of the
list stands in it outside parentheses and string literals. -/
def IsPart (separator : Char) (text : Text) : Prop :=
  IsBalanced text ∧ Nesting.top.hides separator text = true

instance (separator : Char) : DecidablePred (IsPart separator) :=
  fun text => inferInstanceAs (Decidable (IsBalanced text ∧ _))

/-- Two parts one behind the other are one part. -/
theorem IsPart.append
    {separator : Char}
    {front rest : Text}
    (frontPart : IsPart separator front)
    (restPart : IsPart separator rest) :
    IsPart separator (front ++ rest) := by
  refine ⟨Nesting.closes_append frontPart.1 restPart.1, ?_⟩
  refine Nesting.hides_append frontPart.2 ?_
  rw [Nesting.behind_of_closes frontPart.1]
  exact restPart.2

/-- Whether a character neither nests nor separates. -/
def isPlain (separator c : Char) : Bool :=
  c ≠ stringDelimiter && c ≠ '(' && c ≠ ')' && c ≠ separator

/-- Plain characters make a part. -/
theorem isPart_of_isPlain
    {separator : Char}
    {text : Text}
    (plain : ∀ c ∈ text, isPlain separator c = true) :
    IsPart separator text := by
  induction text with
  | nil =>
      exact ⟨rfl, rfl⟩
  | cons c rest inductionHypothesis =>
      obtain ⟨here, inRest⟩ := List.forall_mem_cons.mp plain
      have single : IsPart separator [c] := by
        simp only [isPlain, Bool.and_eq_true, decide_eq_true_eq] at here
        obtain ⟨⟨⟨noDelimiter, noOpening⟩, noClosing⟩, noSeparator⟩ := here
        simp [IsPart, IsBalanced, Nesting.closes, Nesting.hides, Nesting.after,
          Nesting.top, noDelimiter, noOpening, noClosing, noSeparator]
      exact single.append (inductionHypothesis inRest)

/-- Whatever stands in a pair of parentheses is hidden, as long as it neither nests nor
opens a literal. -/
theorem isPart_parenthesized
    {separator : Char}
    {inside : Text}
    (flat : ∀ c ∈ inside, c ≠ stringDelimiter ∧ c ≠ '(' ∧ c ≠ ')')
    (separates : separator ≠ '(') :
    IsPart separator ('(' :: (inside ++ [')'])) := by
  have deep :
      Nesting.closes ⟨false, 1⟩ (inside ++ [')']) = true ∧
        Nesting.hides separator ⟨false, 1⟩ (inside ++ [')']) = true := by
    induction inside with
    | nil =>
        exact ⟨rfl, by simp [Nesting.hides, Nesting.top]⟩
    | cons c rest inductionHypothesis =>
        obtain ⟨⟨noDelimiter, noOpening, noClosing⟩, inRest⟩ := List.forall_mem_cons.mp flat
        have stays : Nesting.after ⟨false, 1⟩ c = ⟨false, 1⟩ := by
          simp [Nesting.after, noDelimiter, noOpening, noClosing]
        rw [List.cons_append, Nesting.closes, Nesting.hides, stays]
        simpa [Nesting.top] using inductionHypothesis inRest
  refine ⟨deep.1, ?_⟩
  rw [Nesting.hides]
  simp only [separates.symm, decide_false, Bool.false_and, Bool.not_false, Bool.true_and]
  exact deep.2

/-! ## Parts -/

/-- The parts of a text, given where it begins. -/
def partsFrom (separator : Char) (nesting : Nesting) (text : Text) : List Text :=
  let parts := splitFrom separator nesting.inString nesting.depth text
  parts.1 :: parts.2

/-- A character goes in front of the first part, or it is a separator at the top
and opens a part. -/
theorem partsFrom_cons
    (separator : Char)
    (nesting : Nesting)
    (c : Char) :
    (∀ rest,
        partsFrom separator nesting (c :: rest) =
          (partsFrom separator (nesting.after c) rest).modifyHead (c :: ·)) ∨
      (c = separator ∧ nesting = .top) ∧
        ∀ rest,
          partsFrom separator nesting (c :: rest) =
            [] :: partsFrom separator nesting rest := by
  rcases nesting with ⟨inString, depth⟩
  by_cases cuts :
      c = separator ∧
        c ≠ stringDelimiter ∧ inString = false ∧ c ≠ '(' ∧ c ≠ ')' ∧ depth = 0
  · obtain ⟨rfl, noDelimiter, rfl, noOpening, noClosing, rfl⟩ := cuts
    exact .inr ⟨⟨rfl, rfl⟩, fun rest => by simp [partsFrom, splitFrom, *]⟩
  · refine .inl fun rest => ?_
    unfold partsFrom Nesting.after
    simp only [splitFrom, splitFrom.extend]
    split_ifs <;> simp_all

/-- A character that separates nothing belongs to the first part. -/
theorem partsFrom_cons_of_hidden
    {separator c : Char}
    {nesting : Nesting}
    (hidden : ¬(c = separator ∧ nesting = .top))
    (rest : Text) :
    partsFrom separator nesting (c :: rest) =
      (partsFrom separator (nesting.after c) rest).modifyHead (c :: ·) := by
  rcases nesting with ⟨inString, depth⟩
  unfold partsFrom Nesting.after
  simp only [splitFrom, splitFrom.extend, Nesting.top] at hidden ⊢
  split_ifs <;> simp_all

/-- A text that hides its separators goes in front of the first part. -/
theorem partsFrom_append
    {separator : Char}
    {nesting : Nesting}
    {front : Text}
    (hidden : nesting.hides separator front = true)
    (rest : Text) :
    partsFrom separator nesting (front ++ rest) =
      (partsFrom separator (nesting.behind front) rest).modifyHead (front ++ ·) := by
  induction front generalizing nesting with
  | nil =>
      rfl
  | cons c front inductionHypothesis =>
      rw [Nesting.hides, Bool.and_eq_true, Bool.not_eq_true'] at hidden
      have here : ¬(c = separator ∧ nesting = .top) := by
        rintro ⟨rfl, rfl⟩
        simp at hidden
      rw [List.cons_append, partsFrom_cons_of_hidden here, inductionHypothesis hidden.2]
      rfl

/-- A part is not split. -/
theorem splitTopLevel_of_isPart
    {separator : Char}
    {part : Text}
    (isPart : IsPart separator part) :
    splitTopLevel separator part = [part] := by
  have whole := partsFrom_append isPart.2 []
  rw [Nesting.behind_of_closes isPart.1, List.append_nil] at whole
  rw [show splitTopLevel separator part = _ from whole]
  exact congrArg (fun text => [text]) (List.append_nil part)

/-! ## Separators -/

section Separators

variable
  {separator : Char}
  (separates : separator ∉ [stringDelimiter, '(', ')'])

include separates

/-- In front of a separator at the beginning stands an empty part. -/
theorem splitTopLevel_cons
    (rest : Text) :
    splitTopLevel separator (separator :: rest) = [] :: splitTopLevel separator rest := by
  simp only [List.mem_cons, List.not_mem_nil, or_false, not_or] at separates
  simp [splitTopLevel, splitFrom, separates]

/-- The separator neither opens nor closes anything. -/
theorem after_separator : Nesting.top.after separator = .top := by
  simp only [List.mem_cons, List.not_mem_nil, or_false, not_or] at separates
  simp [Nesting.after, Nesting.top, separates]

/-- A separator at the top splits a text into what stands in front of it and what
stands behind. -/
theorem partsFrom_append_cons
    {nesting : Nesting}
    {front : Text}
    (closed : nesting.behind front = .top)
    (rest : Text) :
    partsFrom separator nesting (front ++ separator :: rest) =
      partsFrom separator nesting front ++ splitTopLevel separator rest := by
  induction front generalizing nesting with
  | nil =>
      obtain rfl : nesting = .top := closed
      exact splitTopLevel_cons separates rest
  | cons c front inductionHypothesis =>
      rcases partsFrom_cons separator nesting c with
        continues | ⟨⟨isSeparator, isTop⟩, cuts⟩
      · rw [List.cons_append, continues, continues, inductionHypothesis closed]
        rfl
      · subst isSeparator isTop
        replace closed : (Nesting.top.after c).behind front = .top := closed
        rw [after_separator separates] at closed
        rw [List.cons_append, cuts, cuts, inductionHypothesis closed]
        rfl

/-- A separator behind a text that leaves nothing open parts what stands on its two
sides. -/
theorem splitTopLevel_append
    {front : Text}
    (closed : Nesting.top.behind front = .top)
    (rest : Text) :
    splitTopLevel separator (front ++ separator :: rest) =
      splitTopLevel separator front ++ splitTopLevel separator rest :=
  partsFrom_append_cons separates closed rest

end Separators

/-- A part is cut off at the separator behind it. -/
theorem splitTopLevel_append_cons
    {separator : Char}
    {part : Text}
    (isPart : IsPart separator part)
    (separates : separator ∉ [stringDelimiter, '(', ')'])
    (rest : Text) :
    splitTopLevel separator (part ++ separator :: rest) =
      part :: splitTopLevel separator rest := by
  rw [splitTopLevel_append separates (Nesting.behind_of_closes isPart.1),
    splitTopLevel_of_isPart isPart]
  rfl

/-! ## Decomposition -/

/-- What is put in front of the first part stands in front of the joined parts. -/
theorem intercalate_modifyHead
    (separator c : Char)
    (first : Text)
    (others : List Text) :
    [separator].intercalate ((first :: others).modifyHead (c :: ·)) =
      c :: [separator].intercalate (first :: others) := by
  cases others with
  | nil =>
      simp
  | cons second others =>
      simp [List.intercalate_cons_cons]

/-- The parts with the separator between them are the text. -/
theorem intercalate_partsFrom
    (separator : Char)
    (nesting : Nesting)
    (text : Text) :
    [separator].intercalate (partsFrom separator nesting text) = text := by
  induction text generalizing nesting with
  | nil =>
      rfl
  | cons c rest inductionHypothesis =>
      rcases partsFrom_cons separator nesting c with continues | ⟨⟨rfl, -⟩, cuts⟩
      · rw [continues, partsFrom, intercalate_modifyHead]
        exact congrArg (c :: ·) (inductionHypothesis (nesting.after c))
      · rw [cuts, partsFrom, List.intercalate_cons_cons, List.nil_append]
        exact congrArg (c :: ·) (inductionHypothesis nesting)

/-- The first part is cut no further where its text begins, and every other part where
nothing is open. -/
theorem partsFrom_of_eq_cons
    {separator : Char}
    {nesting : Nesting}
    {text first : Text}
    {others : List Text}
    (cut : partsFrom separator nesting text = first :: others) :
    partsFrom separator nesting first = [first] ∧
      ∀ part ∈ others, splitTopLevel separator part = [part] := by
  induction text generalizing nesting first others with
  | nil =>
      cases cut
      exact ⟨rfl, List.forall_mem_nil _⟩
  | cons c rest inductionHypothesis =>
      rcases partsFrom_cons separator nesting c with continues | ⟨⟨-, isTop⟩, cuts⟩
      · rw [continues, partsFrom, List.modifyHead_cons] at cut
        obtain ⟨alone, others⟩ := inductionHypothesis (partsFrom.eq_1 ..)
        cases cut
        rw [continues, alone]
        exact ⟨rfl, others⟩
      · -- Nothing is open at a separator, so the next part begins as a text does.
        subst isTop
        obtain ⟨alone, others⟩ :=
          inductionHypothesis (partsFrom.eq_1 separator .top rest)
        rw [cuts] at cut
        cases cut
        exact ⟨rfl, List.forall_mem_cons.mpr ⟨alone, others⟩⟩

/-- Cutting loses nothing but the separators, leaves parts that cannot be cut further,
and is done on each side of a separator for itself where nothing is open, be the
parentheses in front of it paired or not. -/
theorem splitTopLevel_decomposes
    (separator : Char) :
    (∀ text, [separator].intercalate (splitTopLevel separator text) = text) ∧
      (∀ text, ∀ part ∈ splitTopLevel separator text,
        splitTopLevel separator part = [part]) ∧
        (separator ∉ [stringDelimiter, '(', ')'] →
          ∀ front rest,
            Nesting.top.behind front = .top →
              splitTopLevel separator (front ++ separator :: rest) =
                splitTopLevel separator front ++ splitTopLevel separator rest) := by
  refine ⟨fun text => intercalate_partsFrom separator .top text, ?_, ?_⟩
  · intro text part member
    obtain ⟨first, others⟩ :=
      partsFrom_of_eq_cons (partsFrom.eq_1 separator .top text)
    rcases List.mem_cons.mp member with rfl | isOther
    · exact first
    · exact others part isOther
  · intro separates front rest closed
    exact splitTopLevel_append separates closed rest

/-- A list with a parenthesis that closes nothing, and one behind it that is left
open. -/
theorem splitTopLevel_decomposes_unmatched :
    let front : Text := "a), f(1, \"),\")"
    let rest : Text := "(b, c"
    let part : Text := " f(1, \"),\")"
    part ∈ splitTopLevel ',' front ∧
      ',' ∉ [stringDelimiter, '(', ')'] ∧
        Nesting.top.behind front = .top ∧
          [','].intercalate (splitTopLevel ',' front) = front ∧
            splitTopLevel ',' part = [part] ∧
              splitTopLevel ',' (front ++ ',' :: rest) =
                splitTopLevel ',' front ++ splitTopLevel ',' rest := by
  intro front rest part
  obtain ⟨joined, alone, parted⟩ := splitTopLevel_decomposes ','
  have member : part ∈ splitTopLevel ',' front := by
    decide
  have separates : ',' ∉ [stringDelimiter, '(', ')'] := by
    decide
  have closed : Nesting.top.behind front = .top := by
    decide
  exact
    ⟨member, separates, closed, joined front, alone front part member,
      parted separates front rest closed⟩

/-! ## Growing texts -/

/-- Whether parts go on as others do: the last of them grows, and more follow. -/
inductive GrowsTo : List Text → List Text → Prop where
  | last (part next : Text) (more : List Text) :
      GrowsTo [part] ((part ++ next) :: more)
  | behind
      (part : Text)
      {parts longer : List Text}
      (grows : GrowsTo parts longer) :
      GrowsTo (part :: parts) (part :: longer)

/-- Parts that grow do so with a character in front of them. -/
theorem GrowsTo.modifyHead
    {parts longer : List Text}
    (grows : GrowsTo parts longer)
    (c : Char) :
    GrowsTo (parts.modifyHead (c :: ·)) (longer.modifyHead (c :: ·)) := by
  cases grows with
  | last part next more =>
      exact .last (c :: part) next more
  | behind part grows =>
      exact .behind (c :: part) grows

/-- A text that goes on is cut like its front, up to the last part of that. -/
theorem growsTo_partsFrom
    (separator : Char)
    (nesting : Nesting)
    (front rest : Text) :
    GrowsTo (partsFrom separator nesting front)
      (partsFrom separator nesting (front ++ rest)) := by
  induction front generalizing nesting with
  | nil =>
      exact .last [] _ _
  | cons c front inductionHypothesis =>
      rcases partsFrom_cons separator nesting c with continues | ⟨-, cuts⟩
      · rw [List.cons_append, continues, continues]
        exact (inductionHypothesis (nesting.after c)).modifyHead c
      · rw [List.cons_append, cuts, cuts]
        exact .behind [] (inductionHypothesis nesting)

/-- Splitting loses no character but the separator. -/
theorem count_concat_partsFrom
    {separator c : Char}
    (different : c ≠ separator)
    (nesting : Nesting)
    (text : Text) :
    (concat (partsFrom separator nesting text)).count c = text.count c := by
  induction text generalizing nesting with
  | nil =>
      rfl
  | cons first rest inductionHypothesis =>
      rcases partsFrom_cons separator nesting first with continues | ⟨⟨rfl, -⟩, cuts⟩
      · have whole :
            concat (partsFrom separator nesting (first :: rest)) =
              first :: concat (partsFrom separator (nesting.after first) rest) := by
          rw [continues]
          rfl
        rw [whole, List.count_cons, List.count_cons, inductionHypothesis]
      · rw [cuts, List.count_cons_of_ne different.symm]
        exact inductionHypothesis nesting

/-- The parts of a text grow if more text follows. -/
theorem growsTo_splitTopLevel
    (separator : Char)
    (front rest : Text) :
    GrowsTo (splitTopLevel separator front) (splitTopLevel separator (front ++ rest)) :=
  growsTo_partsFrom separator .top front rest

/-- The parts have all characters of their text but the separators. -/
theorem count_concat_splitTopLevel
    {separator c : Char}
    (different : c ≠ separator)
    (text : Text) :
    (concat (splitTopLevel separator text)).count c = text.count c :=
  count_concat_partsFrom different .top text

end ClassicBasic.Text
