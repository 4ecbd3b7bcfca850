import ClassicBasic.Proofs.Parameter
import ClassicBasic.Proofs.Phrase.Written

namespace ClassicBasic

/-!
# Parameter lists written out and read back

A parameter is written as its keywords, its name, its bounds, its type and its
default value, and a list of them with commas in between.  A keyword may also be a
name, so names that are keywords are left out here.  Then the first word that is no
keyword is the name, and whatever is optional behind it opens in a way of its own.
-/

/-- The keyword of a passing mode, if one is written. -/
def PassingMode.keyword? : PassingMode → Option Text
  | .unspecified => none
  | .byReference => some "ByRef"
  | .byValue => some "ByVal"

namespace Parameter

/-- The words that can lead a parameter. -/
def keywords : List Text :=
  ["Optional", "ByRef", "ByVal", "ParamArray"]

/-- What the parts of a parameter are like that can be written. -/
structure IsWritable (parameter : Parameter) : Prop where
  isName : Phrase.IsSuffixedName parameter.name
  notKeyword : parameter.name ∉ keywords
  isType : ∀ typeName ∈ parameter.typeName, Phrase.IsTypeName typeName
  /-- A default value is balanced, and no comma stands in it outside parentheses and
  string literals. -/
  isDefault :
    ∀ value ∈ parameter.defaultValue, Phrase.IsValue value ∧ Text.IsPart ',' value

/-- A keyword that is written where a flag is set. -/
def flagged (word : Text) (isSet : Bool) : Option Text :=
  if isSet then some word else none

/-- The bounds of an array. -/
def writtenBounds (hasBounds : Bool) : Text :=
  if hasBounds then "()" else ""

/-- What is written behind the bounds of a parameter. -/
def ending (parameter : Parameter) : Text :=
  Phrase.writtenType parameter.typeName ++ Phrase.writtenValue parameter.defaultValue

/-- A parameter from its name on. -/
def declared (parameter : Parameter) : Text :=
  parameter.name ++ (writtenBounds parameter.hasBounds ++ parameter.ending)

/-- A parameter from the keyword of a parameter array on. -/
def collected (parameter : Parameter) : Text :=
  Phrase.writtenKeyword (flagged "ParamArray" parameter.isParamArray) ++ parameter.declared

/-- A parameter from its passing mode on. -/
def passed (parameter : Parameter) : Text :=
  Phrase.writtenKeyword parameter.passing.keyword? ++ parameter.collected

/-- A parameter as it is written. -/
def written (parameter : Parameter) : Text :=
  Phrase.writtenKeyword (flagged "Optional" parameter.isOptional) ++ parameter.passed

/-- A list of parameters as it is written. -/
def writtenList (parameters : List Parameter) : Text :=
  List.intercalate ", " (parameters.map written)

/-- The node of a parameter with all that is below it: its identifier, and below that
the bounds of an array and the type. -/
def tree (parameter : Parameter) (line : Nat) : Node :=
  let bounds : List Node :=
    if parameter.hasBounds || parameter.isParamArray then [⟨"()", line, .arraySpec, []⟩]
    else []
  let types : List Node :=
    match parameter.typeName with
    | some typeName => [⟨typeName, line, .typeReference, []⟩]
    | none => []
  let identifier : Node := ⟨parameter.name, line, .identifier, bounds ++ types⟩
  ⟨parameter.name, line,
    .parameter parameter.passing parameter.isOptional parameter.isParamArray
      parameter.defaultValue,
    [identifier]⟩

/-! ## Keywords -/

/-- The keywords of parameters are words. -/
theorem isWord_of_mem_keywords :
    ∀ word ∈ keywords, Phrase.IsWord word := by
  decide

section Flags

variable
  {word : Text}
  (isSet : Bool)

/-- A flag is written with a keyword, or not at all. -/
theorem mem_keywords_of_mem_flagged
    (isKeyword : word ∈ keywords) :
    ∀ written ∈ flagged word isSet, written ∈ keywords := by
  cases isSet with
  | true =>
      rintro written ⟨⟩
      exact isKeyword
  | false =>
      rintro written ⟨⟩

/-- A flag is written with a word, or not at all. -/
theorem areWords_flagged
    (isWord : Phrase.IsWord word) :
    ∀ written ∈ flagged word isSet, Phrase.IsWord written := by
  cases isSet with
  | true =>
      rintro written ⟨⟩
      exact isWord
  | false =>
      rintro written ⟨⟩

/-- A flag is written with the keyword that it is read by, or not at all. -/
theorem isKnown_flagged :
    ∀ written ∈ flagged word isSet, (Phrase.word? word written).isSome = true := by
  cases isSet with
  | true =>
      rintro written ⟨⟩
      exact congrArg Option.isSome (if_pos rfl)
  | false =>
      rintro written ⟨⟩

/-- A keyword that is written for a flag is read as the flag. -/
theorem isSome_flagged :
    ((flagged word isSet).bind (Phrase.word? word)).isSome = isSet := by
  cases isSet with
  | true =>
      exact congrArg Option.isSome (if_pos rfl)
  | false =>
      rfl

end Flags

section Modes

variable (mode : PassingMode)

/-- A passing mode is written with a keyword, or not at all. -/
theorem mem_keywords_of_mem_keyword? :
    ∀ word ∈ mode.keyword?, word ∈ keywords := by
  cases mode <;>
    rintro word ⟨⟩ <;>
      decide

/-- A passing mode is written with a word, or not at all. -/
theorem areWords_keyword? :
    ∀ word ∈ mode.keyword?, Phrase.IsWord word :=
  fun word member => isWord_of_mem_keywords word (mem_keywords_of_mem_keyword? mode word member)

/-- A passing mode is written with a keyword that it is read by, or not at all. -/
theorem isKnown_keyword? :
    ∀ word ∈ mode.keyword?, (passing? word).isSome = true := by
  cases mode <;>
    rintro word ⟨⟩ <;>
      rfl

/-- A keyword that is written for a passing mode is read as the mode. -/
theorem getD_keyword? :
    (mode.keyword?.bind passing?).getD .unspecified = mode := by
  cases mode <;>
    rfl

end Modes

/-- No keyword of parameters is recognised in any other word. -/
theorem unknown_of_not_mem_keywords
    {word : Text}
    (notKeyword : word ∉ keywords) :
    Phrase.word? "Optional" word = none ∧
      passing? word = none ∧ Phrase.word? "ParamArray" word = none := by
  simp only [keywords, List.mem_cons, List.not_mem_nil, or_false, not_or] at notKeyword
  obtain ⟨notOptional, notByRef, notByVal, notParamArray⟩ := notKeyword
  simp only [Phrase.word?, passing?, if_neg notOptional, if_neg notByRef, if_neg notByVal,
    if_neg notParamArray, and_self]

/-! ## What parameters open with -/

/-- What follows the name and the bounds begins with a space. -/
theorem head?_ending
    (parameter : Parameter) :
    ∀ c ∈ parameter.ending.head?, c = ' ' := by
  rw [ending]
  cases parameter.typeName with
  | some typeName =>
      rintro c ⟨⟩
      rfl
  | none =>
      cases parameter.defaultValue with
      | some value =>
          rintro c ⟨⟩
          rfl
      | none =>
          rintro c ⟨⟩

/-- What follows the name begins with a parenthesis or a space. -/
theorem head?_bounds_ending
    (parameter : Parameter) :
    ∀ c ∈ (writtenBounds parameter.hasBounds ++ parameter.ending).head?,
      c = '(' ∨ c = ' ' := by
  cases parameter.hasBounds with
  | true =>
      rintro c ⟨⟩
      exact .inl rfl
  | false =>
      exact fun c opens => .inr (head?_ending parameter c opens)

/-- The parentheses of an array are read if they are written. -/
theorem bounds_written
    (parameter : Parameter) :
    bounds (writtenBounds parameter.hasBounds ++ parameter.ending) =
      (parameter.hasBounds, parameter.ending) := by
  cases parameter.hasBounds with
  | true =>
      rfl
  | false =>
      have noBounds : Text.after? "()" (Text.trimStart parameter.ending) = none := by
        rw [ending]
        cases parameter.typeName with
        | some typeName =>
            rfl
        | none =>
            cases parameter.defaultValue <;>
              rfl
      change bounds parameter.ending = _
      rw [bounds, noBounds]

section Written

variable
  {parameter : Parameter}
  (isWritable : parameter.IsWritable)
include isWritable

/-- The name of a parameter has no blanks. -/
theorem visible_of_mem_name :
    ∀ c ∈ parameter.name, Text.isBlank c = false := by
  have suffixes : Phrase.typeSuffixes.all (fun c => !Text.isBlank c) = true := by
    decide
  intro c member
  rcases isWritable.isName.mem c member with continues | isSuffix
  · exact Phrase.isBlank_of_isNameChar continues
  · simpa using List.all_eq_true.mp suffixes c isSuffix

/-- From its name on, a parameter leads with no keyword. -/
theorem leadingWord_declared :
    Text.leadingWord parameter.declared ∉ keywords := by
  have stops : ∀ c ∈ parameter.ending.head?, Text.isBlank c = true := by
    intro c opens
    rw [head?_ending parameter c opens]
    decide
  have bounds : (writtenBounds parameter.hasBounds).all Text.isVisible = true := by
    cases parameter.hasBounds <;>
      decide
  have visible :
      ∀ c ∈ parameter.name ++ writtenBounds parameter.hasBounds, Text.isBlank c = false := by
    intro c member
    rcases List.mem_append.mp member with inName | inBounds
    · exact visible_of_mem_name isWritable c inName
    · simpa [Text.isVisible] using List.all_eq_true.mp bounds c inBounds
  rw [declared, ← List.append_assoc, Text.leadingWord_append visible stops]
  cases parameter.hasBounds with
  | false =>
      rw [writtenBounds, if_neg Bool.false_ne_true, String.toList_empty, List.append_nil]
      exact isWritable.notKeyword
  | true =>
      -- The bounds belong to the word, and no keyword has a parenthesis.
      have noBounds : keywords.all (fun word => !word.contains '(') = true := by
        decide
      intro member
      have none := List.all_eq_true.mp noBounds _ member
      simp [writtenBounds] at none

/-- Neither an earlier flag nor a passing mode is read behind these. -/
theorem unknown_collected :
    Phrase.word? "Optional" (Text.leadingWord parameter.collected) = none ∧
      passing? (Text.leadingWord parameter.collected) = none := by
  rw [collected, Phrase.leadingWord_written (areWords_flagged _ (by decide))]
  cases parameter.isParamArray with
  | true =>
      rw [flagged, if_pos rfl, Option.getD_some]
      decide
  | false =>
      have unknown := unknown_of_not_mem_keywords (leadingWord_declared isWritable)
      exact ⟨unknown.1, unknown.2.1⟩

/-- No earlier flag is read behind it. -/
theorem unknown_passed :
    Phrase.word? "Optional" (Text.leadingWord parameter.passed) = none := by
  rw [passed, Phrase.leadingWord_written (areWords_keyword? parameter.passing)]
  cases parameter.passing with
  | unspecified =>
      exact (unknown_collected isWritable).1
  | byReference | byValue =>
      rw [PassingMode.keyword?, Option.getD_some]
      decide

/-- The parts of a parameter are trimmed from any keyword on. -/
theorem isTrimmed_declared :
    parameter.declared.IsTrimmed := by
  have isTrimmed :=
    Text.isTrimmed_of_visible isWritable.isName.ne_nil (visible_of_mem_name isWritable)
  have withBounds : (parameter.name ++ writtenBounds parameter.hasBounds).IsTrimmed := by
    cases parameter.hasBounds with
    | false =>
        rwa [writtenBounds, if_neg Bool.false_ne_true, String.toList_empty, List.append_nil]
    | true =>
        exact isTrimmed.append [] (by decide)
  rw [declared, ending, ← List.append_assoc, ← List.append_assoc]
  exact
    Phrase.isTrimmed_append_writtenValue
      (Phrase.isTrimmed_append_writtenType withBounds isWritable.isType)
      fun value isDefault => (isWritable.isDefault value isDefault).1

/-- Behind its passing mode a parameter has no blanks at its ends. -/
theorem isTrimmed_collected :
    parameter.collected.IsTrimmed :=
  Phrase.isTrimmed_writtenKeyword
    (areWords_flagged _ (by decide))
    (isTrimmed_declared isWritable)

/-- Behind its first flag a parameter has no blanks at its ends. -/
theorem isTrimmed_passed :
    parameter.passed.IsTrimmed :=
  Phrase.isTrimmed_writtenKeyword
    (areWords_keyword? parameter.passing)
    (isTrimmed_collected isWritable)

/-- A written parameter has no blanks at its ends. -/
theorem isTrimmed_written :
    parameter.written.IsTrimmed :=
  Phrase.isTrimmed_writtenKeyword
    (areWords_flagged _ (by decide))
    (isTrimmed_passed isWritable)

/-! ## Reading -/

/-- The type is read from what follows the name, and the default value is left. -/
theorem typeClause_ending :
    typeClause parameter.ending =
      (parameter.typeName, Phrase.writtenValue parameter.defaultValue) := by
  rw [ending]
  cases isType : parameter.typeName with
  | some typeName =>
      have isTypeName := isWritable.isType typeName isType
      have stops :
          ∀ c ∈ (Phrase.writtenValue parameter.defaultValue).head?,
            Phrase.isNameChar c = false ∧ c ≠ '.' := by
        cases parameter.defaultValue with
        | none =>
            rintro c ⟨⟩
        | some value =>
            rintro c ⟨⟩
            decide
      rw [Phrase.writtenType, Option.elim_some, List.append_assoc, typeClause,
        Phrase.afterAs?_written isTypeName.isTrimmed, Option.bind_some,
        Phrase.typeName?_append isTypeName stops]
  | none =>
      cases parameter.defaultValue <;>
        rfl

/-- Without its keywords a parameter is read in full. -/
theorem readNamed?_declared :
    readNamed? parameter.isOptional parameter.passing parameter.isParamArray
        parameter.declared =
      some parameter := by
  have stops :
      ∀ c ∈ (writtenBounds parameter.hasBounds ++ parameter.ending).head?,
        Phrase.isNameChar c = false ∧ c ∉ Phrase.typeSuffixes := by
    intro c opens
    rcases head?_bounds_ending parameter c opens with rfl | rfl <;>
      decide
  have areValues := fun value isDefault => (isWritable.isDefault value isDefault).1
  simp only [readNamed?, declared, Phrase.suffixedName?_append isWritable.isName stops,
    bounds_written, typeClause_ending isWritable, Phrase.finalValue?_written areValues,
    Option.bind_eq_bind, Option.bind_some]

/-- What follows the passing mode is read as the parameter. -/
theorem readArray_collected :
    Phrase.optionally (Phrase.word? "ParamArray") parameter.collected
        (fun isParamArray text =>
          readNamed? parameter.isOptional parameter.passing isParamArray.isSome text) =
      some parameter := by
  refine
    Phrase.optionally_written
      (areWords_flagged _ (by decide))
      (isKnown_flagged parameter.isParamArray)
      (isTrimmed_declared isWritable).trimStart_eq
      (unknown_of_not_mem_keywords (leadingWord_declared isWritable)).2.2 ?_
  rw [isSome_flagged]
  exact readNamed?_declared isWritable

/-- What follows the first flag is read as the parameter. -/
theorem readPassing_passed :
    Phrase.optionally passing? parameter.passed
        (fun passing text =>
          Phrase.optionally (Phrase.word? "ParamArray") text fun isParamArray text =>
            readNamed? parameter.isOptional (passing.getD .unspecified)
              isParamArray.isSome text) =
      some parameter := by
  refine
    Phrase.optionally_written
      (areWords_keyword? parameter.passing)
      (isKnown_keyword? parameter.passing)
      (isTrimmed_collected isWritable).trimStart_eq
      (unknown_collected isWritable).2 ?_
  rw [getD_keyword?]
  exact readArray_collected isWritable

/-- A parameter that is written is read back. -/
theorem read?_written :
    read? parameter.written = some parameter := by
  refine
    Phrase.optionally_written
      (areWords_flagged _ (by decide))
      (isKnown_flagged parameter.isOptional)
      (isTrimmed_passed isWritable).trimStart_eq
      (unknown_passed isWritable) ?_
  rw [isSome_flagged]
  exact readPassing_passed isWritable

end Written

/-! ## Lists -/

/-- A list of parameters is not split at a keyword. -/
theorem isPart_writtenKeyword
    {keyword : Option Text}
    (isKeyword : ∀ word ∈ keyword, word ∈ keywords) :
    Text.IsPart ',' (Phrase.writtenKeyword keyword) := by
  have plain : keywords.all (fun word => (word ++ [' ']).all (Text.isPlain ',')) = true := by
    decide
  cases keyword with
  | none =>
      exact ⟨rfl, rfl⟩
  | some word =>
      have isPlain := List.all_eq_true.mp plain word (isKeyword word rfl)
      exact Text.isPart_of_isPlain (List.all_eq_true.mp isPlain)

/-- A character of a name neither nests nor separates. -/
theorem isPlain_of_isNameChar
    {c : Char}
    (continues : Phrase.isNameChar c = true) :
    Text.isPlain ',' c = true := by
  have differs
      {other : Char}
      (stops : Phrase.isNameChar other = false) :
      c ≠ other := by
    rintro rfl
    rw [stops] at continues
    cases continues
  have noDelimiter : c ≠ Text.stringDelimiter := differs (by decide)
  have noOpening : c ≠ '(' := differs (by decide)
  have noClosing : c ≠ ')' := differs (by decide)
  have noSeparator : c ≠ ',' := differs (by decide)
  simp [Text.isPlain, noDelimiter, noOpening, noClosing, noSeparator]

/-- A list of parameters is not split between a name and its default value. -/
theorem isPart_declared
    {parameter : Parameter}
    (isWritable : parameter.IsWritable) :
    Text.IsPart ',' parameter.declared := by
  have suffixes : Phrase.typeSuffixes.all (Text.isPlain ',') = true := by
    decide
  have name : Text.IsPart ',' parameter.name := by
    refine Text.isPart_of_isPlain fun c member => ?_
    rcases isWritable.isName.mem c member with continues | isSuffix
    · exact isPlain_of_isNameChar continues
    · exact List.all_eq_true.mp suffixes c isSuffix
  have typed : Text.IsPart ',' (Phrase.writtenType parameter.typeName) := by
    cases isType : parameter.typeName with
    | none =>
        exact ⟨rfl, rfl⟩
    | some typeName =>
        have keyword : Text.IsPart ',' " As " := by
          decide
        refine keyword.append (Text.isPart_of_isPlain fun c member => ?_)
        rcases (isWritable.isType typeName isType).mem c member with continues | rfl
        · exact isPlain_of_isNameChar continues
        · decide
  have valued : Text.IsPart ',' (Phrase.writtenValue parameter.defaultValue) := by
    cases isDefault : parameter.defaultValue with
    | none =>
        exact ⟨rfl, rfl⟩
    | some value =>
        have equals : Text.IsPart ',' " = " := by
          decide
        exact equals.append (isWritable.isDefault value isDefault).2
  have bounds : ∀ hasBounds, Text.IsPart ',' (writtenBounds hasBounds) := by
    decide
  exact name.append ((bounds parameter.hasBounds).append (typed.append valued))

/-- A parameter can be a part of a list. -/
theorem isPart_written
    {parameter : Parameter}
    (isWritable : parameter.IsWritable) :
    Text.IsPart ',' parameter.written :=
  (isPart_writtenKeyword (mem_keywords_of_mem_flagged _ (by decide))).append
    ((isPart_writtenKeyword (mem_keywords_of_mem_keyword? parameter.passing)).append
      ((isPart_writtenKeyword (mem_keywords_of_mem_flagged _ (by decide))).append
        (isPart_declared isWritable)))

/-- The segment that a list opens with is the same behind a blank. -/
theorem segments_cons_space
    (text : Text) :
    segments (' ' :: text) = segments text := by
  have opens :
      Text.partsFrom ',' .top (' ' :: text) =
        (Text.partsFrom ',' .top text).modifyHead (' ' :: ·) :=
    Text.partsFrom_cons_of_hidden (by decide) text
  change segmentsOf (Text.partsFrom ',' .top (' ' :: text)) =
    segmentsOf (Text.partsFrom ',' .top text)
  rw [opens]
  change segmentsOf (List.modifyHead _ (_ :: _)) = segmentsOf (_ :: _)
  rw [List.modifyHead_cons, segmentsOf_cons, segmentsOf_cons,
    Text.trim_cons_blank (by decide)]

/-- The segments of a list are the parts that it was written from. -/
theorem segments_intercalate
    {parts : List Text}
    (areTrimmed : ∀ part ∈ parts, part.IsTrimmed)
    (areParts : ∀ part ∈ parts, Text.IsPart ',' part) :
    segments (List.intercalate ", " parts) = parts := by
  induction parts with
  | nil =>
      rfl
  | cons part others inductionHypothesis =>
      obtain ⟨hereTrimmed, othersTrimmed⟩ := List.forall_mem_cons.mp areTrimmed
      obtain ⟨herePart, othersPart⟩ := List.forall_mem_cons.mp areParts
      have behind := inductionHypothesis othersTrimmed othersPart
      -- A comma is written only if another part follows.
      cases others with
      | nil =>
          change segmentsOf (Text.splitTopLevel ',' _) = _
          rw [List.intercalate_singleton, Text.splitTopLevel_of_isPart herePart,
            segmentsOf_cons, hereTrimmed.2, if_neg hereTrimmed.1]
          rfl
      | cons next more =>
          have cut :
              List.intercalate ", ".toList (part :: next :: more) =
                part ++ ',' :: ' ' :: List.intercalate ", ".toList (next :: more) := by
            rw [List.intercalate_cons_cons, List.append_assoc]
            rfl
          change segmentsOf (Text.splitTopLevel ',' _) = _
          rw [cut, Text.splitTopLevel_append_cons herePart (by decide), segmentsOf_cons,
            hereTrimmed.2, if_neg hereTrimmed.1]
          change part :: segments (' ' :: _) = _
          rw [segments_cons_space, behind]

/-- The node of a parameter is the tree that its parts say. -/
theorem node_eq_tree
    {parameter : Parameter}
    (isWritable : parameter.IsWritable)
    (line : Nat) :
    parameter.node line = parameter.tree line := by
  have stays :
      parameter.typeName.filter (fun typeName => !typeName.isEmpty) = parameter.typeName :=
    Text.filter_of_isTrimmed fun typeName given =>
      (isWritable.isType typeName given).isTrimmed
  unfold node tree Node.identifier
  dsimp only
  rw [stays, Bool.or_comm parameter.isParamArray]
  cases parameter.hasBounds || parameter.isParamArray <;>
    cases parameter.typeName <;>
      rfl

/-- Reading a list of parameters gives back what it was written from: one node for
each parameter, in their order and with all of their parts. -/
theorem nodes_writtenList
    {parameters : List Parameter}
    (areWritable : ∀ parameter ∈ parameters, parameter.IsWritable)
    (line : Nat) :
    nodes (writtenList parameters) line =
      parameters.map fun parameter => parameter.tree line := by
  have areSegments : segments (writtenList parameters) = parameters.map written :=
    segments_intercalate
      (List.forall_mem_map.mpr fun parameter member =>
        isTrimmed_written (areWritable parameter member))
      (List.forall_mem_map.mpr fun parameter member =>
        isPart_written (areWritable parameter member))
  have areRead : readAll (writtenList parameters) = parameters := by
    have each : ∀ parameter ∈ parameters, (read? ∘ written) parameter = some parameter :=
      fun parameter member => read?_written (areWritable parameter member)
    rw [readAll, areSegments, List.filterMap_map, List.filterMap_congr each,
      List.filterMap_some]
  rw [nodes, areRead]
  exact
    List.map_congr_left fun parameter member =>
      node_eq_tree (areWritable parameter member) line

/-- A default may hold whatever separates parameters and their parts elsewhere. -/
theorem nodes_writtenList_defaults :
    let first : Parameter :=
      ⟨true, .byValue, false, "ByRefs$", false, some "ADODB.Field",
        some "\", As (\" & f(1, 2)"⟩
    let second : Parameter :=
      ⟨false, .unspecified, true, "a", false, some "Any", none⟩
    (∀ parameter ∈ [first, second], parameter.IsWritable) ∧
      writtenList [first, second] =
        "Optional ByVal ByRefs$ As ADODB.Field = \", As (\" & f(1, 2), ParamArray a As Any" ∧
      nodes (writtenList [first, second]) 7 = [first.tree 7, second.tree 7] := by
  intro first second
  have firstWritable : first.IsWritable := by
    refine ⟨.inr ⟨"ByRefs", '$', rfl, by decide, by decide⟩, by decide, ?_, by decide⟩
    rintro typeName ⟨⟩
    exact .inr ⟨"ADODB", "Field", rfl, by decide, by decide⟩
  have secondWritable : second.IsWritable := by
    refine ⟨.inl (by decide), by decide, ?_, by decide⟩
    rintro typeName ⟨⟩
    exact .inl (by decide)
  have areWritable : ∀ parameter ∈ [first, second], parameter.IsWritable := by
    simp [firstWritable, secondWritable]
  exact ⟨areWritable, by decide, nodes_writtenList areWritable 7⟩

end Parameter

end ClassicBasic
