import ClassicBasic.Declaration.Line
import ClassicBasic.Proofs.Declaration.Declarator

namespace ClassicBasic

/-!
# Lists of declarators written out and read back

A list of declarators stands in a line that is cut at comments, colons and commas.  Each
declarator hides what it has of them, so the list is one instruction, and it falls into
just the declarators that it was written from.
-/

namespace Declarator

/-! ## Segments of a line -/

/-- Whether a character neither nests nor separates, opens no literal and ends
neither an instruction nor a line. -/
def isInert (c : Char) : Bool :=
  Text.isPlain ',' c && c ≠ Line.dateDelimiter && !Instruction.endsInstruction c && c ≠ '\n'

/-- Whether a text can stand in a declarator: lists, instructions and lines are not cut
in it. -/
structure IsSegment (text : Text) : Prop where
  isPart : Text.IsPart ',' text
  isPassed : Line.IsPassed Instruction.endsInstruction text
  isOneLine : '\n' ∉ text

/-- Two texts that can stand in a declarator can stand there one behind the
other. -/
theorem IsSegment.append
    {text more : Text}
    (isSegment : IsSegment text)
    (moreSegment : IsSegment more) :
    IsSegment (text ++ more) where
  isPart := isSegment.isPart.append moreSegment.isPart
  isPassed := isSegment.isPassed.append moreSegment.isPassed
  isOneLine member :=
    (List.mem_append.mp member).elim isSegment.isOneLine moreSegment.isOneLine

/-- Inert characters can stand in a declarator. -/
theorem isSegment_of_inert
    {text : Text}
    (inert : ∀ c ∈ text, isInert c = true) :
    IsSegment text := by
  simp only [isInert, Bool.and_eq_true, Bool.not_eq_true', decide_eq_true_eq] at inert
  refine ⟨Text.isPart_of_isPlain fun c member => (inert c member).1.1.1, ?_, ?_⟩
  · refine Line.isPassed_of_plain fun c member => ?_
    obtain ⟨⟨⟨plain, noSign⟩, noEnd⟩, -⟩ := inert c member
    simp only [Text.isPlain, Bool.and_eq_true, decide_eq_true_eq] at plain
    exact ⟨plain.1.1.1, noSign, noEnd⟩
  · intro member
    exact (inert '\n' member).2 rfl

/-- A text that is checked to be inert can stand in a declarator. -/
theorem isSegment_of_all
    {text : Text}
    (inert : text.all isInert = true) :
    IsSegment text :=
  isSegment_of_inert (List.all_eq_true.mp inert)

/-- A character of a name is inert. -/
theorem isInert_of_isNameChar
    {c : Char}
    (continues : Phrase.isNameChar c = true) :
    isInert c = true := by
  have differs
      {other : Char}
      (stops : Phrase.isNameChar other = false) :
      c ≠ other := by
    rintro rfl
    rw [stops] at continues
    cases continues
  have noSign : c ≠ Line.dateDelimiter := differs (by decide)
  have noMarker : c ≠ Line.commentMarker := differs (by decide)
  have noSeparator : c ≠ Instruction.separator := differs (by decide)
  have noBreak : c ≠ '\n' := differs (by decide)
  simp [isInert, Parameter.isPlain_of_isNameChar continues, Instruction.endsInstruction,
    noSign, noMarker, noSeparator, noBreak]

/-- A name can stand in a declarator. -/
theorem isSegment_of_isNameChar
    {text : Text}
    (continues : ∀ c ∈ text, Phrase.isNameChar c = true) :
    IsSegment text :=
  isSegment_of_inert fun c member => isInert_of_isNameChar (continues c member)

/-- The number sign at the end of a name is a suffix. -/
theorem isSegment_name
    {name : Text}
    (isName : Phrase.IsSuffixedName name) :
    IsSegment name := by
  rcases isName with plain | ⟨front, suffix, rfl, plain, isSuffix⟩
  · exact isSegment_of_isNameChar plain.isNameChar_of_mem
  · have frontSegment := isSegment_of_isNameChar plain.isNameChar_of_mem
    by_cases isSign : suffix = Line.dateDelimiter
    · rw [isSign]
      refine ⟨frontSegment.isPart.append (by decide), ?_,
        by simp [frontSegment.isOneLine, Line.dateDelimiter]⟩
      refine frontSegment.isPassed.append_sign (by decide) fun before => ?_
      obtain ⟨others, last, rfl⟩ :=
        (List.eq_nil_or_concat' front).resolve_left (by rintro rfl; exact plain)
      have continues := plain.isNameChar_of_mem last (by simp)
      have isVisible := Phrase.isBlank_of_isNameChar continues
      have noOperators :
          Line.dateOperators.all (fun c => !Phrase.isNameChar c) = true := by
        decide
      have noOperator : last ∉ Line.dateOperators := by
        intro member
        have stops := List.all_eq_true.mp noOperators last member
        rw [continues] at stops
        cases stops
      simp [List.foldl_append, Line.visible, isVisible, noOperator]
    · refine frontSegment.append (isSegment_of_inert ?_)
      have inert :
          Phrase.typeSuffixes.all
              (fun suffix => suffix = Line.dateDelimiter || isInert suffix) =
            true := by
        decide
      intro c member
      rw [List.mem_singleton.mp member]
      simpa [isSign] using List.all_eq_true.mp inert suffix isSuffix

/-- A keyword can stand in a declarator, with the blank behind it. -/
theorem isSegment_writtenKeyword
    {word : Text}
    (isSet : Bool)
    (isName : word.all Phrase.isNameChar = true) :
    IsSegment (Phrase.writtenKeyword (Parameter.flagged word isSet)) := by
  cases isSet with
  | false =>
      exact isSegment_of_all rfl
  | true =>
      have blank : IsSegment " " := isSegment_of_all (by decide)
      exact (isSegment_of_isNameChar (List.all_eq_true.mp isName)).append blank

section Written

variable
  {parts : Parts}
  (isWritable : parts.IsWritable)
include isWritable

/-- The bounds of an array can stand in a declarator. -/
theorem isSegment_bounds :
    IsSegment (parts.bounds.getD []) := by
  rw [Parts.bounds]
  cases given : parts.dimensions with
  | none =>
      exact isSegment_of_all rfl
  | some dimensions =>
      have outside := isWritable.isBounds dimensions given
      simp only [List.mem_cons, List.not_mem_nil, or_false, not_or] at outside
      have whole : Text.concat ["(", dimensions, ")"] = '(' :: (dimensions ++ [')']) := by
        simp [Text.concat]
      rw [Option.map_some, Option.getD_some, whole]
      refine ⟨Text.isPart_parenthesized (fun c member => ?_) (by decide), ?_, ?_⟩
      · obtain ⟨noOpening, noClosing, noQuote, -⟩ := outside c member
        exact ⟨noQuote, noOpening, noClosing⟩
      · refine Line.isPassed_of_plain fun c member => ?_
        rcases List.mem_cons.mp member with rfl | inside
        · decide
        · rcases List.mem_append.mp inside with within | isLast
          · obtain ⟨-, -, noQuote, noSign, noSeparator, noMarker, -⟩ := outside c within
            refine ⟨noQuote, noSign, ?_⟩
            simp [Instruction.endsInstruction, Line.commentMarker, Instruction.separator,
              noSeparator, noMarker]
          · rw [List.mem_singleton.mp isLast]
            decide
      · intro member
        rcases List.mem_cons.mp member with isFirst | inside
        · revert isFirst
          decide
        · rcases List.mem_append.mp inside with within | isLast
          · exact (outside '\n' within).2.2.2.2.2.2 rfl
          · revert isLast
            decide

/-- A type with its length can stand in a declarator. -/
theorem isSegment_sized
    {typing : Typing}
    (given : typing ∈ parts.typing) :
    IsSegment typing.sized := by
  have named : IsSegment typing.typeName := by
    refine isSegment_of_inert fun c member => ?_
    rcases (isWritable.isType typing given).mem c member with continues | rfl
    · exact isInert_of_isNameChar continues
    · decide
  refine named.append ?_
  rw [Typing.writtenLength]
  cases sizes : typing.length with
  | none =>
      exact isSegment_of_all rfl
  | some length =>
      have asterisk : IsSegment " * " := isSegment_of_all (by decide)
      exact
        asterisk.append
          (isSegment_of_isNameChar (isWritable.isLength typing given length sizes).2)

/-- A value can stand in a declarator. -/
theorem isSegment_value :
    IsSegment (Phrase.writtenValue parts.value) := by
  cases given : parts.value with
  | none =>
      exact isSegment_of_all rfl
  | some value =>
      obtain ⟨isValue, isPart⟩ := isWritable.isValue value given
      have equals : IsSegment " = " := isSegment_of_all (by decide)
      refine equals.append ⟨isPart, ?_, isValue.2⟩
      refine Line.isPassed_of_bare ?_ fun c member => ?_
      · rw [Text.Nesting.behind_of_closes isPart.1]
        rfl
      · have quiet := isWritable.isQuiet value given c member
        simp only [List.mem_cons, List.not_mem_nil, or_false, not_or] at quiet
        obtain ⟨noSign, noSeparator, noMarker⟩ := quiet
        refine ⟨noSign, ?_⟩
        simp [Instruction.endsInstruction, Line.commentMarker, Instruction.separator,
          noSeparator, noMarker]

/-- A list, an instruction or a line is not cut inside a declarator. -/
theorem isSegment_written :
    IsSegment parts.written := by
  have typed :
      IsSegment (parts.typing.elim [] fun typing => (" As " : Text) ++ typing.written) := by
    cases given : parts.typing with
    | none =>
        exact isSegment_of_all rfl
    | some typing =>
        have keyword : IsSegment " As " := isSegment_of_all (by decide)
        exact
          keyword.append
            ((isSegment_writtenKeyword typing.isNew (by decide)).append
              (isSegment_sized isWritable given))
  exact
    (isSegment_writtenKeyword parts.withEvents (by decide)).append
      ((isSegment_name isWritable.isName).append
        ((isSegment_bounds isWritable).append (typed.append (isSegment_value isWritable))))

/-- A written declarator has no blanks at its ends. -/
theorem isTrimmed_written :
    parts.written.IsTrimmed := by
  refine Phrase.isTrimmed_writtenKeyword (Parameter.areWords_flagged _ (by decide)) ?_
  have isWord := isWord_name isWritable
  have named : (parts.name ++ parts.bounds.getD []).IsTrimmed := by
    have isName := Text.isTrimmed_of_visible isWord.1 isWord.isBlank_eq_false
    rw [Parts.bounds]
    cases parts.dimensions with
    | none =>
        rwa [Option.map_none, Option.getD_none, List.append_nil]
    | some dimensions =>
        have whole :
            Text.concat ["(", dimensions, ")"] = ('(' :: dimensions) ++ [')'] := by
          simp [Text.concat]
        rw [Option.map_some, Option.getD_some, whole]
        exact isName.append _ (by decide)
  have typed :
      (parts.name ++ parts.bounds.getD [] ++
        parts.typing.elim [] fun typing => (" As " : Text) ++ typing.written).IsTrimmed := by
    cases given : parts.typing with
    | none =>
        rwa [Option.elim_none, List.append_nil]
    | some typing =>
        exact
          named.append _
            (isTrimmed_typing (isWritable.isType typing given)
              (isWritable.isLength typing given))
  have valued :=
    Phrase.isTrimmed_append_writtenValue typed fun value given =>
      (isWritable.isValue value given).1
  simpa only [Parts.declared, Parts.ending, List.append_assoc] using valued

/-- A declarator leads with no keyword that a declaration has. -/
theorem leadingWord_written
    {rest : Text}
    (separated : ∀ c ∈ rest.head?, c = ',') :
    Text.leadingWord (parts.written ++ rest) ∉ declarationWords := by
  rw [Parts.written, List.append_assoc,
    Phrase.leadingWord_written (Parameter.areWords_flagged _ (by decide))]
  cases parts.withEvents with
  | true =>
      change ("WithEvents" : Text) ∉ declarationWords
      decide
  | false =>
      have isWord := isWord_name isWritable
      -- Behind the name stands a mark that is attached to it, or a space that ends it.
      have stands :
          ∀ c ∈ (parts.bounds.getD [] ++ (parts.ending ++ rest)).head?,
            c ∈ [' ', '(', ','] := by
        intro c opens
        rw [← List.append_assoc, List.head?_append] at opens
        cases shape : (parts.bounds.getD [] ++ parts.ending).head? with
        | some first =>
            rw [shape] at opens
            cases opens
            rcases head?_bounds_ending parts c shape with rfl | rfl <;>
              decide
        | none =>
            rw [shape] at opens
            rw [separated c opens]
            decide
      change Text.leadingWord (parts.declared ++ rest) ∉ declarationWords
      rw [Parts.declared, List.append_assoc, List.append_assoc]
      by_cases attached :
          ∃ c ∈ (parts.bounds.getD [] ++ (parts.ending ++ rest)).head?, c ≠ ' '
      · -- What is attached to the name is in no keyword.
        obtain ⟨c, opens, notSpace⟩ := attached
        have mark : c ∈ ['(', ','] :=
          (List.mem_cons.mp (stands c opens)).resolve_left notSpace
        have areVisible : Phrase.IsWord ['(', ','] := by
          decide
        have noMarks :
            ∀ word ∈ declarationWords, ['(', ','].all (fun mark => mark ∉ word) = true := by
          decide
        obtain ⟨behind, shape⟩ := List.head?_eq_some_iff.mp opens
        have member :=
          Text.mem_leadingWord_append isWord.2 (areVisible.isBlank_eq_false c mark) behind
        rw [← shape] at member
        intro isKeyword
        have noMark := List.all_eq_true.mp (noMarks _ isKeyword) c mark
        exact of_decide_eq_true noMark member
      · have stops :
            ∀ c ∈ (parts.bounds.getD [] ++ (parts.ending ++ rest)).head?,
              Text.isBlank c = true := by
          intro c opens
          have isSpace : c = ' ' := by
            by_contra different
            exact attached ⟨c, opens, different⟩
          rw [isSpace]
          decide
        rw [Text.leadingWord_append isWord.isBlank_eq_false stops]
        exact isWritable.notKeyword

end Written

/-! ## Lists of declarators -/

/-- A list of declarators as it is written. -/
def writtenList (list : List Parts) : Text :=
  List.intercalate ", " (list.map Parts.written)

/-- The nodes of a list of declarators.  What else is given stands below the last. -/
def trees
    (modifier : Option AccessModifier)
    (keyword : DeclarationKeyword)
    (line : Nat)
    (below : List Node) :
    List Parts → List Node
  | [] => []
  | [last] => [(last.tree modifier keyword line).withChildren below]
  | parts :: others =>
      parts.tree modifier keyword line :: trees modifier keyword line below others

/-- A comma and a space stand between declarators. -/
theorem writtenList_cons_cons
    (parts next : Parts)
    (others : List Parts) :
    writtenList (parts :: next :: others) =
      parts.written ++ (", " ++ writtenList (next :: others)) := by
  rw [writtenList, List.map_cons, List.map_cons, List.intercalate_cons_cons,
    List.append_assoc]
  rfl

/-- One declarator alone is written as it is. -/
theorem writtenList_singleton
    (parts : Parts) :
    writtenList [parts] = parts.written := by
  rw [writtenList, List.map_singleton, List.intercalate_singleton]

/-- Only the last node has something of its line below it. -/
theorem trees_concat
    (modifier : Option AccessModifier)
    (keyword : DeclarationKeyword)
    (line : Nat)
    (below : List Node)
    (front : List Parts)
    (last : Parts) :
    trees modifier keyword line below (front ++ [last]) =
      (front.map fun parts => parts.tree modifier keyword line) ++
        [(last.tree modifier keyword line).withChildren below] := by
  induction front with
  | nil =>
      rfl
  | cons parts others inductionHypothesis =>
      cases others with
      | nil =>
          rfl
      | cons next more =>
          exact congrArg (parts.tree modifier keyword line :: ·) inductionHypothesis

section List

variable
  {list : List Parts}
  (areWritable : ∀ parts ∈ list, parts.IsWritable)
include areWritable

/-- A written list has no blanks at its ends. -/
theorem isTrimmed_writtenList
    (isVisible : list ≠ []) :
    (writtenList list).IsTrimmed := by
  induction list with
  | nil =>
      exact (isVisible rfl).elim
  | cons parts others inductionHypothesis =>
      obtain ⟨here, inOthers⟩ := List.forall_mem_cons.mp areWritable
      cases others with
      | nil =>
          rw [writtenList_singleton]
          exact isTrimmed_written here
      | cons next more =>
          rw [writtenList_cons_cons]
          exact
            (isTrimmed_written here).append _
              (inductionHypothesis inOthers (List.cons_ne_nil _ _))

/-- A list of declarators is one instruction on one line. -/
theorem isPassed_writtenList :
    Line.IsPassed Instruction.endsInstruction (writtenList list) ∧
      '\n' ∉ writtenList list := by
  induction list with
  | nil =>
      exact ⟨Line.isPassed_of_plain (by simp [writtenList]), by simp [writtenList]⟩
  | cons parts others inductionHypothesis =>
      obtain ⟨here, inOthers⟩ := List.forall_mem_cons.mp areWritable
      have isSegment := isSegment_written here
      cases others with
      | nil =>
          rw [writtenList_singleton]
          exact ⟨isSegment.isPassed, isSegment.isOneLine⟩
      | cons next more =>
          obtain ⟨isPassed, isOneLine⟩ := inductionHypothesis inOthers
          have comma : Line.IsPassed Instruction.endsInstruction ", " :=
            Line.isPassed_of_plain
              (List.forall_mem_cons.mpr
                ⟨by decide, List.forall_mem_singleton.mpr (by decide)⟩)
          rw [writtenList_cons_cons]
          refine ⟨isSegment.isPassed.append (comma.append isPassed), fun member => ?_⟩
          rcases List.mem_append.mp member with inFirst | behind
          · exact isSegment.isOneLine inFirst
          · rcases List.mem_append.mp behind with inComma | inRest
            · revert inComma
              decide
            · exact isOneLine inRest

/-- A list of declarators does not lead with a keyword of declarations. -/
theorem leadingWord_writtenList
    (isVisible : list ≠ []) :
    Text.leadingWord (writtenList list) ∉ declarationWords := by
  obtain ⟨parts, others, rfl⟩ := List.exists_cons_of_ne_nil isVisible
  have here := areWritable parts List.mem_cons_self
  cases others with
  | nil =>
      have stops : ∀ c ∈ ([] : Text).head?, c = ',' := by
        rintro c ⟨⟩
      have leads := leadingWord_written here stops
      rwa [List.append_nil, ← writtenList_singleton] at leads
  | cons next more =>
      rw [writtenList_cons_cons]
      refine leadingWord_written here ?_
      rintro c ⟨⟩
      rfl

/-- Every declarator of a list is read, and nothing else is. -/
theorem declarators_writtenList :
    DeclaringInstruction.declarators (writtenList list) = list.map Parts.declarator := by
  have areSegments :
      Parameter.segments (writtenList list) = list.map Parts.written :=
    Parameter.segments_intercalate
      (List.forall_mem_map.mpr fun parts member => isTrimmed_written (areWritable parts member))
      (List.forall_mem_map.mpr fun parts member =>
        (isSegment_written (areWritable parts member)).isPart)
  have each :
      ∀ parts ∈ list, (read? ∘ Parts.written) parts = some parts.declarator :=
    fun parts member => read?_written (areWritable parts member)
  change (Parameter.segments (writtenList list)).filterMap read? = _
  rw [areSegments, List.filterMap_map, List.filterMap_congr each]
  exact congrFun List.filterMap_eq_map list

/-- A line that declares a list finishes with its nodes, the comment below the last. -/
theorem finish_declarators
    (modifier : Option AccessModifier)
    (keyword : DeclarationKeyword)
    (line : Nat)
    (comment : Option Text)
    (isVisible : list ≠ []) :
    DeclarationLine.finish
        ⟨line, comment,
          ((list.map Parts.declarator).map fun declarator =>
            declarator.node modifier keyword line).reverse⟩ =
      trees modifier keyword line
        (comment.elim [] fun text => [Node.leaf .comment text line]) list := by
  have nodes :
      ((list.map Parts.declarator).map fun declarator =>
          declarator.node modifier keyword line) =
        list.map fun parts => parts.tree modifier keyword line := by
    rw [List.map_map]
    exact
      List.map_congr_left fun parts member =>
        node_eq_tree (areWritable parts member) modifier keyword line
  obtain ⟨front, last, rfl⟩ := (List.eq_nil_or_concat' list).resolve_left isVisible
  rw [nodes, trees_concat, List.map_append, List.reverse_append, List.map_singleton,
    List.reverse_singleton, List.singleton_append]
  cases comment with
  | none =>
      have alone :
          (last.tree modifier keyword line).withChildren [] =
            last.tree modifier keyword line := by
        rw [Node.withChildren, List.append_nil]
        rfl
      simp [DeclarationLine.finish, alone]
  | some text =>
      have declares : (last.tree modifier keyword line).kind = .declaration := rfl
      simp [DeclarationLine.finish, declares]

end List

end Declarator

end ClassicBasic
