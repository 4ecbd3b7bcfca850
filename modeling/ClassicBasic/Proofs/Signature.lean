import ClassicBasic.Proofs.Node.Shape
import ClassicBasic.Proofs.Parameter
import ClassicBasic.Signature

namespace ClassicBasic

open Node

/-!
# Signatures and their parameter lists

A signature is read to the first parenthesis that closes its list, in a literal
or not, and no parenthesis may open in the list but in an empty pair.  The list
is then cut with regard to literals and pairs.  The two agree on exactly the
lists whose only parentheses are empty pairs.
-/

/-! ## Headings -/

namespace Heading

/-- Whether all parentheses of a text stand in empty pairs. -/
inductive OnlyEmptyPairs : Text → Prop where
  | nil :
      OnlyEmptyPairs []
  | pair
      {rest : Text}
      (behind : OnlyEmptyPairs rest) :
      OnlyEmptyPairs ('(' :: ')' :: rest)
  | cons
      {c : Char}
      {rest : Text}
      (noOpening : c ≠ '(')
      (noClosing : c ≠ ')')
      (behind : OnlyEmptyPairs rest) :
      OnlyEmptyPairs (c :: rest)

/-- A parameter list is read to the first parenthesis that closes it. -/
theorem parameterList?_eq_some_iff
    {text list rest : Text} :
    parameterList? text = some (list, rest) ↔
      text = list ++ ')' :: rest ∧ OnlyEmptyPairs list := by
  constructor
  · intro read
    -- The cases are those of the reader: the end, its empty pairs and all other
    -- characters.
    fun_induction parameterList? text generalizing list with
    | case1 =>
        cases read
    | case2 behind =>
        cases read
        exact ⟨rfl, .nil⟩
    | case3 behind inductionHypothesis =>
        obtain ⟨⟨inner, others⟩, readsOn, same⟩ := Option.map_eq_some_iff.mp read
        cases same
        obtain ⟨rfl, isList⟩ := inductionHypothesis readsOn
        exact ⟨rfl, .pair isList⟩
    | case4 =>
        cases read
    | case5 c behind noClosing noPair noOpening inductionHypothesis =>
        obtain ⟨⟨inner, others⟩, readsOn, same⟩ := Option.map_eq_some_iff.mp read
        cases same
        obtain ⟨rfl, isList⟩ := inductionHypothesis readsOn
        exact ⟨rfl, .cons noOpening noClosing isList⟩
  · rintro ⟨rfl, isList⟩
    induction isList with
    | nil =>
        rfl
    | pair behind inductionHypothesis =>
        simp [parameterList?, inductionHypothesis]
    | cons noOpening noClosing behind inductionHypothesis =>
        simp [parameterList?, noOpening, inductionHypothesis]

/-- Behind a list with empty pairs only no parenthesis is open. -/
theorem OnlyEmptyPairs.depth_behind
    {list : Text}
    (isList : OnlyEmptyPairs list)
    {nesting : Text.Nesting}
    (flat : nesting.depth = 0) :
    (nesting.behind list).depth = 0 := by
  induction isList generalizing nesting with
  | nil =>
      exact flat
  | pair behind inductionHypothesis =>
      refine inductionHypothesis ?_
      cases within : nesting.inString <;>
        simp [Text.Nesting.after, Text.stringDelimiter, within, flat]
  | @cons c rest noOpening noClosing behind inductionHypothesis =>
      refine inductionHypothesis ?_
      unfold Text.Nesting.after
      split_ifs
      · exact flat
      · exact flat
      · exact flat

/-- A list that is cut short in a balanced text is cut inside a literal, and the
quote that closes it is lost. -/
theorem OnlyEmptyPairs.delimiter_mem
    {list rest : Text}
    (isList : OnlyEmptyPairs list)
    (balanced : Text.IsBalanced (list ++ ')' :: rest)) :
    Text.stringDelimiter ∈ ')' :: rest := by
  by_contra bare
  have within : (Text.Nesting.top.behind list).inString = true :=
    Text.Nesting.inString_of_closes (isList.depth_behind rfl)
      (Text.Nesting.closes_behind balanced)
  have outside : (Text.Nesting.top.behind (list ++ ')' :: rest)).inString = false :=
    congrArg Text.Nesting.inString (Text.Nesting.behind_of_closes balanced)
  rw [Text.Nesting.behind, List.foldl_append] at outside
  have still := Text.Nesting.inString_behind bare (Text.Nesting.top.behind list)
  exact Bool.false_ne_true (outside.symm.trans (still.trans within))

/-- A heading with a list is read behind its name. -/
theorem read?_of_name
    {name : Text}
    (isName : Phrase.IsName name)
    (inside : Text) :
    read? (name ++ '(' :: inside) =
      (parameterList? inside).bind fun (list, rest) =>
        (returnType? rest).map fun returnType => ⟨name, some list, returnType⟩ := by
  have named :
      Phrase.name? (name ++ '(' :: inside) = some (name, '(' :: inside) :=
    Phrase.nameFrom?_eq_some_iff.mpr
      ⟨rfl, isName, fun c opens => by cases opens; decide⟩
  have opens : Text.after? "(" (Text.trimStart ('(' :: inside)) = some inside :=
    Text.after?_eq_some_iff.mpr rfl
  simp only [read?, named, opens, Option.bind_eq_bind, Option.bind_some,
    Option.map_eq_bind]
  rfl

end Heading

/-! ## Signatures -/

namespace Signature

/-- The keyword of an accessor has no parenthesis. -/
theorem not_mem_of_accessor
    {word : Text}
    {accessor : Accessor}
    (recognised : Accessor.ofKeyword? word = some accessor) :
    '(' ∉ word := by
  have spelled : accessor.keyword = word := by
    simpa using List.find?_some recognised
  rw [← spelled]
  cases accessor <;>
    decide

/-- A word that a parenthesis is attached to is no accessor. -/
theorem accessed?_of_name
    {name : Text}
    (isName : Phrase.IsName name)
    (inside : Text) :
    accessed? (name ++ '(' :: inside) =
      (Heading.read? (name ++ '(' :: inside)).map fun heading => (none, heading) := by
  have isWord : name.all Text.isVisible = true := by
    rw [List.all_eq_true]
    intro c member
    simp [Text.isVisible, Phrase.isBlank_of_isNameChar (isName.isNameChar_of_mem c member)]
  have attached : '(' ∈ Text.leadingWord (name ++ '(' :: inside) :=
    Text.mem_leadingWord_append isWord (by decide) inside
  have noAccessor :
      Phrase.keyword? Accessor.ofKeyword? (name ++ '(' :: inside) = none := by
    refine Phrase.keyword?_eq_none (Option.eq_none_iff_forall_ne_some.mpr ?_)
    exact fun accessor recognised => not_mem_of_accessor recognised attached
  simp only [accessed?, Phrase.optionally, noAccessor, Option.bind_none]
  rfl

/-- The line that opens a sub with a list of parameters. -/
def subSource (name list : Text) : Text :=
  Text.concat ["Sub ", name, "(", list, ")"]

/-- The line of a sub as its keyword, its name and its list in parentheses. -/
theorem subSource_eq
    (name list : Text) :
    subSource name list =
      ("Sub" : Text) ++ ' ' :: (name ++ '(' :: (list ++ [')'])) := by
  simp [subSource, Text.concat]

/-- The signature of a sub is its heading behind the keyword. -/
theorem read?_subSource
    {name : Text}
    (isName : Phrase.IsName name)
    (list : Text) :
    read? (subSource name list) =
      (Heading.read? (name ++ '(' :: (list ++ [')']))).map fun heading =>
        ⟨none, false, .method .sub, heading⟩ := by
  have isWord : ("Sub" : Text).all Text.isVisible = true := by
    decide
  have noModifier :
      leading modifier? (subSource name list) = (none, subSource name list) := by
    rw [leading, subSource_eq, Phrase.keyword?_of_word _ isWord isName]
    rfl
  have noStatic :
      leading (Phrase.word? "Static") (subSource name list) =
        (none, subSource name list) := by
    rw [leading, subSource_eq, Phrase.keyword?_of_word _ isWord isName]
    rfl
  have isSub :
      Phrase.keyword? procedure? (subSource name list) =
        some (some .sub, name ++ '(' :: (list ++ [')'])) := by
    rw [subSource_eq, Phrase.keyword?_of_word _ isWord isName]
    rfl
  simp only [read?, noModifier, noStatic, isSub, accessed?_of_name isName,
    Option.bind_eq_bind, Option.bind_some, Option.map_eq_bind, Option.bind_assoc]
  rfl

/-- A sub with a list is read exactly if its list ends at the first parenthesis
that closes it and only a return type follows. -/
theorem read?_subSource_eq_some_iff
    {name list : Text}
    (isName : Phrase.IsName name)
    {signature : Signature} :
    read? (subSource name list) = some signature ↔
      ∃ inner rest returnType,
        list ++ [')'] = inner ++ ')' :: rest ∧
          Heading.OnlyEmptyPairs inner ∧
            Heading.returnType? rest = some returnType ∧
              signature =
                ⟨none, false, .method .sub, ⟨name, some inner, returnType⟩⟩ := by
  rw [read?_subSource isName, Heading.read?_of_name isName]
  constructor
  · intro read
    obtain ⟨heading, reads, rfl⟩ := Option.map_eq_some_iff.mp read
    obtain ⟨⟨inner, rest⟩, lists, behind⟩ := Option.bind_eq_some_iff.mp reads
    obtain ⟨returnType, returns, rfl⟩ := Option.map_eq_some_iff.mp behind
    obtain ⟨whole, isList⟩ := Heading.parameterList?_eq_some_iff.mp lists
    exact ⟨inner, rest, returnType, whole, isList, returns, rfl⟩
  · rintro ⟨inner, rest, returnType, whole, isList, returns, rfl⟩
    have lists := Heading.parameterList?_eq_some_iff.mpr ⟨whole, isList⟩
    simp only [lists, returns, Option.bind_some, Option.map_some]

/-- The identifier of a signature has its name and no more than its type below. -/
theorem isIdentifier_identifier
    (signature : Signature)
    (line : Nat) :
    IsIdentifier signature.heading.name (signature.identifier line) := by
  unfold Signature.identifier
  dsimp only
  split <;>
    exact Node.isIdentifier_identifier _ _ _ _ _ (.inl rfl)

/-- The parameters of a signature are those of its list. -/
theorem childrenOfKind_node
    {signature : Signature}
    {list : Text}
    (lists : signature.heading.parameters = some list)
    (line : Nat) :
    (signature.node line).childrenOfKind .parameter = Parameter.nodes list line := by
  have noIdentifier : (signature.identifier line).kind ≠ .parameter := by
    rw [(signature.isIdentifier_identifier line).kind_eq]
    decide
  have areParameters :
      ∀ node ∈ Parameter.nodes list line, decide (node.kind = .parameter) = true :=
    fun node member => decide_eq_true (isParameter_of_mem_nodes member).kind_eq
  simp only [childrenOfKind, Signature.node, lists, Option.elim_some]
  rw [List.filter_cons_of_neg (by simpa using noIdentifier),
    List.filter_eq_self.mpr areParameters]

/-- If every segment of a balanced list is a parameter, then a sub with that list
is a signature with just these parameters exactly if the only parentheses of the
list, in literals or not, are empty pairs. -/
theorem reads_parameters_iff
    {name list : Text}
    (isName : Phrase.IsName name)
    (balanced : Text.IsBalanced list)
    (whole : Parameter.skipped list = [])
    (line : Nat) :
    (∃ signature,
        read? (subSource name list) = some signature ∧
          (signature.node line).childrenOfKind .parameter =
            Parameter.nodes list line) ↔
      Heading.OnlyEmptyPairs list := by
  constructor
  · rintro ⟨signature, read, same⟩
    obtain ⟨inner, rest, returnType, split, isList, -, rfl⟩ :=
      (read?_subSource_eq_some_iff isName).mp read
    rw [childrenOfKind_node rfl] at same
    rcases List.eq_nil_or_concat rest with rfl | ⟨behind, last, rfl⟩
    · obtain ⟨rfl, -⟩ := List.append_inj' split rfl
      exact isList
    · rw [List.concat_eq_append, ← List.cons_append, ← List.append_assoc] at split
      obtain ⟨rfl, -⟩ := List.append_inj' split rfl
      have bare : Text.stringDelimiter ∉ ')' :: behind :=
        List.count_eq_zero.mp (Parameter.quotes_eq_zero_of_nodes_eq whole same)
      exact (bare (isList.delimiter_mem balanced)).elim
  · intro isList
    have read :=
      (read?_subSource_eq_some_iff isName).mpr
        ⟨list, [], none, rfl, isList, rfl, rfl⟩
    exact ⟨_, read, childrenOfKind_node rfl line⟩

/-- Empty pairs behind an array, and a comma in a literal, are no obstacle. -/
theorem reads_parameters_iff_array :
    let list : Text := "ByVal a() As Long, Optional b = \"x, y\""
    Phrase.IsName "Log" ∧
      Text.IsBalanced list ∧
        Parameter.skipped list = [] ∧
          ∃ signature,
            read? (subSource "Log" list) = some signature ∧
              (signature.node 3).childrenOfKind .parameter =
                Parameter.nodes list 3 := by
  intro list
  have isName : Phrase.IsName "Log" := by
    decide
  have balanced : Text.IsBalanced list := by
    decide
  have whole : Parameter.skipped list = [] := by
    decide +kernel
  have lists : Heading.parameterList? (list ++ [')']) = some (list, []) := by
    decide
  have pairs := (Heading.parameterList?_eq_some_iff.mp lists).2
  exact
    ⟨isName, balanced, whole, (reads_parameters_iff isName balanced whole 3).mpr pairs⟩

/-- A pair of parentheses that is not empty keeps a sub from being one, although it
stands in the literal of a default value. -/
theorem opensMember_literal_default :
    let list : Text := "Optional prefix As String = \"(none)\""
    Phrase.IsName "Log" ∧
      Text.IsBalanced list ∧
        Parameter.skipped list = [] ∧
          opensMember (subSource "Log" list) = false := by
  refine ⟨?_, ?_, ?_, ?_⟩ <;>
    decide +kernel

/-- A parenthesis that closes in a literal ends the list. -/
example :
    (read? (subSource "S" "Optional x = \") As Long\"")).map (·.heading) =
      some ⟨"S", some "Optional x = \"", some "Long\")"⟩ := by
  decide +kernel

end Signature

end ClassicBasic
