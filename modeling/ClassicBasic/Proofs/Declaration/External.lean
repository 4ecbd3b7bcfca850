import ClassicBasic.Declaration.External
import ClassicBasic.Proofs.Keyword
import ClassicBasic.Proofs.Parameter.Rendering

namespace ClassicBasic

/-!
# `Declare` statements written out and read back

The strings of a statement end at their first quote, and its parameter list reaches to
the last parenthesis that closes.  Neither a type nor `As` has one, so a list with
parentheses of any shape is read back as it was written.
-/

namespace ExternalDeclaration

/-- What the parts of a statement are like that can be written. -/
structure IsWritable (statement : ExternalDeclaration) : Prop where
  isModifier :
    ∀ modifier ∈ statement.modifier, modifier = .public ∨ modifier = .private
  isName : Phrase.IsName statement.name
  isLibrary : '"' ∉ statement.procedure.library
  isAlias : ∀ aliasName ∈ statement.procedure.aliasName, '"' ∉ aliasName
  /-- Of a parameter list nothing is required but that it is one line. -/
  isList : ∀ list ∈ statement.parameters, '\n' ∉ list
  isType : ∀ typeName ∈ statement.returnType, Phrase.IsTypeName typeName

/-- A keyword with the string behind it. -/
def writtenString (keyword string : Text) : Text :=
  Text.concat [" ", keyword, " \"", string, "\""]

/-- The alias of a procedure. -/
def writtenAlias (aliasName : Option Text) : Text :=
  aliasName.elim [] (writtenString "Alias")

/-- A parameter list in its parentheses. -/
def writtenParameters (parameters : Option Text) : Text :=
  parameters.elim [] fun list => Text.concat [" (", list, ")"]

/-- What is written behind the strings of a statement. -/
def ending (statement : ExternalDeclaration) : Text :=
  writtenParameters statement.parameters ++ Phrase.writtenType statement.returnType

/-- A statement from its name on. -/
def named (statement : ExternalDeclaration) : Text :=
  statement.name ++
    (writtenString "Lib" statement.procedure.library ++
      (writtenAlias statement.procedure.aliasName ++ statement.ending))

/-- A statement from its kind of procedure on. -/
def ofKind (statement : ExternalDeclaration) : Text :=
  Phrase.writtenKeyword (some statement.procedure.kind.keyword) ++ statement.named

/-- A statement behind `Declare`, which may tell that it is safe for all pointers. -/
def marked (isPtrSafe : Bool) (statement : ExternalDeclaration) : Text :=
  Phrase.writtenKeyword (Parameter.flagged "PtrSafe" isPtrSafe) ++ statement.ofKind

/-- A statement without its modifier. -/
def unmodified (isPtrSafe : Bool) (statement : ExternalDeclaration) : Text :=
  Phrase.writtenKeyword (some "Declare") ++ statement.marked isPtrSafe

/-- A statement as it is written. -/
def written (isPtrSafe : Bool) (statement : ExternalDeclaration) : Text :=
  Phrase.writtenKeyword (statement.modifier.map AccessModifier.keyword) ++
    statement.unmodified isPtrSafe

/-- The node of a statement with all that is below it: its identifier, below that its
type, and then its parameters. -/
def tree (statement : ExternalDeclaration) (line : Nat) : Node :=
  let types : List Node :=
    match statement.returnType with
    | some typeName => [⟨typeName, line, .typeReference, []⟩]
    | none => []
  let identifier : Node := ⟨statement.name, line, .identifier, types⟩
  let parameters : List Node :=
    match statement.parameters with
    | some list => Parameter.nodes list line
    | none => []
  ⟨statement.name, line,
    .declaration statement.modifier .declare none false (some statement.procedure),
    identifier :: parameters⟩

/-! ## Strings -/

/-- A string behind its keyword is read back up to its quote. -/
theorem stringAfter?_written
    {keyword string : Text}
    (isWord : Phrase.IsWord keyword)
    (noQuote : '"' ∉ string)
    (rest : Text) :
    stringAfter? keyword (writtenString keyword string ++ rest) = some (string, rest) := by
  have whole :
      writtenString keyword string ++ rest =
        ' ' :: (keyword ++ ' ' :: '"' :: (string ++ '"' :: rest)) := by
    simp [writtenString, Text.concat]
  have opens :
      Text.after? keyword (keyword ++ ' ' :: '"' :: (string ++ '"' :: rest)) =
        some (' ' :: '"' :: (string ++ '"' :: rest)) :=
    Text.after?_eq_some_iff.mpr rfl
  have quote :
      Text.trimStart ('"' :: (string ++ '"' :: rest)) = '"' :: (string ++ '"' :: rest) :=
    Text.trimStart_cons_visible (by decide) _
  have inside :
      Text.after? "\"" ('"' :: (string ++ '"' :: rest)) = some (string ++ '"' :: rest) :=
    Text.after?_eq_some_iff.mpr rfl
  obtain ⟨run, behind⟩ := Text.span_of_not_mem noQuote rest
  rw [whole]
  simp only [stringAfter?, Text.afterBlanks?_space, isWord.trimStart_append, opens, quote, inside,
    Option.bind_eq_bind, Option.bind_some, run, behind]

/-! ## Lists and types -/

/-- No parenthesis stands in a return type. -/
theorem not_mem_writtenType
    {typeName : Option Text}
    (isType : ∀ name ∈ typeName, Phrase.IsTypeName name) :
    ')' ∉ Phrase.writtenType typeName := by
  cases typeName with
  | none =>
      exact List.not_mem_nil
  | some name =>
      intro member
      rcases List.mem_append.mp member with inKeyword | inName
      · revert inKeyword
        decide
      · exact (isType name rfl).not_mem (by decide) (by decide) inName

/-- A return type is read back if it is written. -/
theorem returnType?_written
    {typeName : Option Text}
    (isType : ∀ name ∈ typeName, Phrase.IsTypeName name) :
    returnType? (Phrase.writtenType typeName) = some typeName := by
  cases typeName with
  | none =>
      rfl
  | some name =>
      have isTypeName := isType name rfl
      have shape : Phrase.writtenType (some name) = ' ' :: 'A' :: 's' :: ' ' :: name := rfl
      have behind : Phrase.afterAs? (' ' :: 'A' :: 's' :: ' ' :: (name ++ [])) = _ :=
        Phrase.afterAs?_written isTypeName.isTrimmed []
      have named : Phrase.typeName? (name ++ []) = _ :=
        Phrase.typeName?_append isTypeName (by simp)
      rw [List.append_nil] at behind named
      simp [shape, returnType?, behind, named]

/-- A text is cut behind the parenthesis that nothing behind it closes. -/
theorem cutAtLastClosing?_append
    {list rest : Text}
    (last : ')' ∉ rest) :
    cutAtLastClosing? (list ++ ')' :: rest) = some (list, rest) := by
  have backwards : (list ++ ')' :: rest).reverse = rest.reverse ++ ')' :: list.reverse := by
    simp
  obtain ⟨run, behind⟩ :=
    Text.span_of_not_mem (fun member => last (List.mem_reverse.mp member)) list.reverse
  simp only [cutAtLastClosing?, backwards, run, behind, List.reverse_reverse]

/-- A list in parentheses is read up to the last of them, and the type is read behind
it. -/
theorem parametersAndType?_ending
    {statement : ExternalDeclaration}
    (isWritable : statement.IsWritable) :
    parametersAndType? statement.ending =
      some (statement.parameters, statement.returnType) := by
  have returns := returnType?_written isWritable.isType
  rw [ending]
  cases isList : statement.parameters with
  | some list =>
      have whole :
          writtenParameters (some list) ++ Phrase.writtenType statement.returnType =
            ' ' :: '(' :: (list ++ ')' :: Phrase.writtenType statement.returnType) := by
        simp [writtenParameters, Text.concat]
      -- The list ends at the last parenthesis of the line, as no type has one.
      have cut :
          cutAtLastClosing? (list ++ ')' :: Phrase.writtenType statement.returnType) = _ :=
        cutAtLastClosing?_append (not_mem_writtenType isWritable.isType)
      have opens :
          Text.trimStart
              (' ' :: '(' :: (list ++ ')' :: Phrase.writtenType statement.returnType)) =
            '(' :: (list ++ ')' :: Phrase.writtenType statement.returnType) :=
        rfl
      simp [whole, parametersAndType?, opens, cut, returns, isWritable.isList list isList]
  | none =>
      change parametersAndType? (Phrase.writtenType statement.returnType) = _
      cases isType : statement.returnType with
      | none =>
          rfl
      | some typeName =>
          have shape :
              Phrase.writtenType (some typeName) = ' ' :: 'A' :: 's' :: ' ' :: typeName :=
            rfl
          have opens :
              Text.trimStart (' ' :: 'A' :: 's' :: ' ' :: typeName) =
                'A' :: 's' :: ' ' :: typeName :=
            rfl
          rw [isType, shape] at returns
          simp [shape, parametersAndType?, opens, returns]

/-! ## Statements -/

/-- What follows the strings of a statement is no alias. -/
theorem stringAfter?_ending
    (statement : ExternalDeclaration) :
    stringAfter? "Alias" statement.ending = none := by
  rw [ending]
  cases statement.parameters with
  | some list =>
      rfl
  | none =>
      cases statement.returnType <;>
        rfl

section Written

variable
  {statement : ExternalDeclaration}
  (isWritable : statement.IsWritable)
include isWritable

/-- Behind the library the alias is read if there is one. -/
theorem stringAfter?_alias :
    stringAfter? "Alias"
        (writtenAlias statement.procedure.aliasName ++ statement.ending) =
      statement.procedure.aliasName.map fun aliasName => (aliasName, statement.ending) := by
  cases isAlias : statement.procedure.aliasName with
  | some aliasName =>
      exact stringAfter?_written (by decide) (isWritable.isAlias aliasName isAlias) _
  | none =>
      exact stringAfter?_ending statement

/-- No blank stands in front of the name. -/
theorem trimStart_named :
    Text.trimStart statement.named = statement.named :=
  isWritable.isName.trimStart_append _

/-- No blank stands in front of the kind. -/
theorem trimStart_ofKind :
    Text.trimStart statement.ofKind = statement.ofKind := by
  refine Phrase.trimStart_writtenKeyword ?_ (trimStart_named isWritable)
  rintro word ⟨⟩
  exact statement.procedure.kind.isWord_keyword

/-- No blank stands in front of the mark for pointers, nor of the kind without
it. -/
theorem trimStart_marked
    (isPtrSafe : Bool) :
    Text.trimStart (statement.marked isPtrSafe) = statement.marked isPtrSafe :=
  Phrase.trimStart_writtenKeyword
    (Parameter.areWords_flagged isPtrSafe (by decide))
    (trimStart_ofKind isWritable)

/-- No blank stands in front of the keyword of the declaration. -/
theorem trimStart_unmodified
    (isPtrSafe : Bool) :
    Text.trimStart (statement.unmodified isPtrSafe) = statement.unmodified isPtrSafe := by
  refine Phrase.trimStart_writtenKeyword ?_ (trimStart_marked isWritable isPtrSafe)
  rintro word ⟨⟩
  decide

/-- The mark for pointers is read over, and nothing else is taken for it. -/
theorem behind_marked
    (isPtrSafe : Bool) :
    (Phrase.keyword? (Phrase.word? "PtrSafe") (statement.marked isPtrSafe)).elim
        (statement.marked isPtrSafe) (·.2) =
      statement.ofKind := by
  cases isPtrSafe with
  | true =>
      have read :
          Phrase.keyword? (Phrase.word? "PtrSafe") (statement.marked true) =
            (Phrase.word? "PtrSafe" "PtrSafe").map fun found => (found, statement.ofKind) :=
        Phrase.keyword?_written (by decide) _ (trimStart_ofKind isWritable)
      rw [read]
      rfl
  | false =>
      have isKind : Text.leadingWord statement.ofKind = statement.procedure.kind.keyword := by
        rw [ofKind, Phrase.leadingWord_written]
        · rfl
        · rintro word ⟨⟩
          exact statement.procedure.kind.isWord_keyword
      have unknown : Phrase.word? "PtrSafe" (Text.leadingWord statement.ofKind) = none := by
        rw [isKind]
        cases statement.procedure.kind <;>
          decide
      change (Phrase.keyword? (Phrase.word? "PtrSafe") statement.ofKind).elim
        statement.ofKind (·.2) = _
      rw [Phrase.keyword?_eq_none unknown]
      rfl

/-- What follows the access modifier is read as the declaration. -/
theorem readUnmodified?_unmodified
    (isPtrSafe : Bool) :
    readUnmodified? statement.modifier (statement.unmodified isPtrSafe) =
      some statement := by
  have declare :
      Phrase.keyword? (Phrase.word? "Declare") (statement.unmodified isPtrSafe) =
        some ((), statement.marked isPtrSafe) :=
    Phrase.keyword?_written (by decide) _ (trimStart_marked isWritable isPtrSafe)
  have kind :
      Phrase.keyword? MethodKind.ofKeyword? statement.ofKind =
        some (statement.procedure.kind, statement.named) := by
    rw [ofKind,
      Phrase.keyword?_written statement.procedure.kind.isWord_keyword _
        (trimStart_named isWritable),
      MethodKind.ofKeyword?_keyword]
    rfl
  have name :
      Phrase.name? statement.named =
        some
          (statement.name,
            writtenString "Lib" statement.procedure.library ++
              (writtenAlias statement.procedure.aliasName ++ statement.ending)) := by
    refine Phrase.nameFrom?_eq_some_iff.mpr ⟨rfl, isWritable.isName, ?_⟩
    rintro c ⟨⟩
    decide
  have library :
      stringAfter? "Lib"
          (writtenString "Lib" statement.procedure.library ++
            (writtenAlias statement.procedure.aliasName ++ statement.ending)) = _ :=
    stringAfter?_written (by decide) isWritable.isLibrary _
  have aliasName := stringAfter?_alias isWritable
  have ending := parametersAndType?_ending isWritable
  simp only [readUnmodified?, declare, behind_marked isWritable, kind, name, library,
    aliasName, Option.bind_eq_bind, Option.bind_some]
  cases isAlias : statement.procedure.aliasName with
  | none =>
      change (parametersAndType? statement.ending).bind _ = _
      simp only [Option.map_none, ending, Option.bind_some]
      rw [← isAlias]
  | some given =>
      simp only [Option.map_some, ending, Option.bind_some]
      rw [← isAlias]

/-- A statement that is written is read back. -/
theorem read?_written
    (isPtrSafe : Bool) :
    read? (statement.written isPtrSafe) = some statement := by
  have reads := readUnmodified?_unmodified isWritable isPtrSafe
  rw [written]
  cases isModifier : statement.modifier with
  | some modifier =>
      have known : modifier? modifier.keyword = some modifier := by
        rcases isWritable.isModifier modifier isModifier with rfl | rfl <;>
          decide
      rw [isModifier] at reads
      rw [Option.map_some, read?,
        Phrase.keyword?_written modifier.isWord_keyword _
          (trimStart_unmodified isWritable isPtrSafe),
        known]
      exact reads
  | none =>
      have leads : Text.leadingWord (statement.unmodified isPtrSafe) = "Declare" := by
        rw [unmodified, Phrase.leadingWord_written]
        · rfl
        · rintro word ⟨⟩
          decide
      have unknown :
          modifier? (Text.leadingWord (statement.unmodified isPtrSafe)) = none := by
        rw [leads]
        decide
      rw [isModifier] at reads
      change read? (statement.unmodified isPtrSafe) = _
      rw [read?, Phrase.keyword?_eq_none unknown]
      exact reads

/-- The node of an external procedure is the tree that its parts say. -/
theorem node_eq_tree
    (line : Nat) :
    statement.node line = statement.tree line := by
  have stays :
      statement.returnType.filter (fun typeName => !typeName.isEmpty) =
        statement.returnType :=
    Text.filter_of_isTrimmed fun typeName given =>
      (isWritable.isType typeName given).isTrimmed
  unfold node tree Node.identifier
  dsimp only
  rw [stays]
  cases statement.returnType <;>
    cases statement.parameters <;>
      rfl

end Written

/-- A `Declare` statement that is written is read back as one declaration, with its
modifier, its procedure and its type, and with the parameters of its whole list. -/
theorem map_node_read?_written
    {statement : ExternalDeclaration}
    (isWritable : statement.IsWritable)
    (isPtrSafe : Bool)
    (line : Nat) :
    (read? (statement.written isPtrSafe)).map (fun read => read.node line) =
      some (statement.tree line) := by
  rw [read?_written isWritable, Option.map_some, node_eq_tree isWritable]

/-- A list may close parentheses it never opened and may look like the end of the
statement. -/
theorem map_node_read?_written_callback :
    let statement : ExternalDeclaration :=
      ⟨some .private, "SetHook", ⟨.function, "user32) As", some "Lib (A"⟩,
        some "ByVal hook As Long) As Long, ByRef (state", some "Api.Handle"⟩
    statement.IsWritable ∧
      statement.written true =
        "Private Declare PtrSafe Function SetHook Lib \"user32) As\" Alias \"Lib (A\" (ByVal hook As Long) As Long, ByRef (state) As Api.Handle" ∧
      (read? (statement.written true)).map (fun read => read.node 7) =
        some (statement.tree 7) := by
  intro statement
  have isWritable : statement.IsWritable :=
    { isModifier := by decide
      isName := by
        decide
      isLibrary := by decide
      isAlias := by decide
      isList := by decide
      isType := by
        rintro typeName ⟨⟩
        exact .inr ⟨"Api", "Handle", rfl, by decide, by decide⟩ }
  exact ⟨isWritable, by decide +kernel, map_node_read?_written isWritable true 7⟩

end ExternalDeclaration

end ClassicBasic
