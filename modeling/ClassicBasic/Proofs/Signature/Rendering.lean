import ClassicBasic.Proofs.Keyword
import ClassicBasic.Proofs.Parameter.Rendering
import ClassicBasic.Proofs.Signature

namespace ClassicBasic

/-!
# Signatures written out and read back

Every word may be the name of a procedure, also `Get`, `As` and `Sub`.  The keywords in
front of the name stand in a fixed order, so only the accessor competes with it: a
method named `Get` reads at first like an accessor with the method `As` behind it, and
what is left of its type is then no end of a signature.
-/

/-! ## Headings -/

namespace Heading

/-- A return type is read to the end. -/
theorem returnType?_written
    {typeName : Option Text}
    (isValue : ∀ name ∈ typeName, Phrase.IsValue name) :
    returnType? (Phrase.writtenType typeName) = some typeName := by
  cases typeName with
  | none =>
      rfl
  | some name =>
      obtain ⟨isTrimmed, noBreak⟩ := isValue name rfl
      obtain ⟨c, behind, rfl⟩ := List.exists_cons_of_ne_nil isTrimmed.1
      have starts : Text.trimStart (' ' :: c :: behind) = c :: behind := by
        change Text.trimStart (c :: behind) = _
        exact isTrimmed.trimStart_eq
      have ends : Text.trimEnd (c :: behind) = c :: behind := by
        have whole := isTrimmed.2
        rwa [Text.trim, isTrimmed.trimStart_eq] at whole
      have opens : Text.afterBlanks? (' ' :: 'A' :: 's' :: ' ' :: c :: behind) =
          some ('A' :: 's' :: ' ' :: c :: behind) :=
        rfl
      have keyword :
          Text.after? "As" ('A' :: 's' :: ' ' :: c :: behind) = some (' ' :: c :: behind) :=
        rfl
      have blanks : ((' ' :: c :: behind).takeWhile Text.isBlank).isEmpty = false := rfl
      have written : writtenType? (' ' :: c :: behind) = some (c :: behind) := by
        simp only [writtenType?, starts, blanks, ends, Bool.false_or]
        rw [if_neg (by simpa using noBreak)]
      change returnType? (' ' :: 'A' :: 's' :: ' ' :: c :: behind) = _
      simp only [returnType?, opens, keyword, written, Option.bind_eq_bind, Option.bind_some]
      rfl

/-- What is written behind the name of a procedure. -/
def ending (heading : Heading) : Text :=
  (heading.parameters.elim [] fun list => Text.concat ["(", list, ")"]) ++
    Phrase.writtenType heading.returnType

/-- A heading as it is written. -/
def written (heading : Heading) : Text :=
  heading.name ++ heading.ending

/-- What the parts of a heading are like that can be written.  The name may be any
keyword. -/
structure IsWritable (heading : Heading) : Prop where
  isName : Phrase.IsName heading.name
  isList : ∀ list ∈ heading.parameters, OnlyEmptyPairs list
  isType : ∀ typeName ∈ heading.returnType, Phrase.IsWord typeName
  /-- A type that opened with a parenthesis could be taken for a list. -/
  isNoList : ∀ typeName ∈ heading.returnType, typeName.head? ≠ some '('

/-- A type has to be set off from `As`. -/
theorem writtenType?_of_visible
    {text : Text}
    (visible : ∀ c ∈ text, Text.isBlank c = false) :
    writtenType? text = none := by
  have blanks : text.takeWhile Text.isBlank = [] := by
    cases text with
    | nil =>
        rfl
    | cons c behind =>
        simp [visible c List.mem_cons_self]
  simp only [writtenType?, blanks]
  split <;>
    rfl

/-- `As` is no name of a procedure in front of a type: what would be left is neither a
list nor another `As` with a type. -/
theorem read?_as
    {typeName : Text}
    (isWord : Phrase.IsWord typeName)
    (isNoList : typeName.head? ≠ some '(') :
    read? (("As" : Text) ++ ' ' :: typeName) = none := by
  have named :
      Phrase.name? (("As" : Text) ++ ' ' :: typeName) =
        some (("As" : Text), ' ' :: typeName) := by
    refine Phrase.nameFrom?_eq_some_iff.mpr ⟨rfl, by decide, ?_⟩
    rintro c ⟨⟩
    decide
  have starts : Text.trimStart (' ' :: typeName) = typeName :=
    (Text.isTrimmed_of_visible isWord.1 isWord.isBlank_eq_false).trimStart_eq
  have noList : Text.after? "(" typeName = none := by
    cases opens : Text.after? "(" typeName with
    | none =>
        rfl
    | some inside =>
        rw [Text.after?_eq_some_iff.mp opens] at isNoList
        exact (isNoList rfl).elim
  have isVisible : typeName.isEmpty = false :=
    List.isEmpty_eq_false_iff.mpr isWord.1
  have noType : returnType? (' ' :: typeName) = none := by
    have opens : Text.afterBlanks? (' ' :: typeName) = some typeName :=
      congrArg some starts
    -- The type may itself begin like the keyword, and then no blank stands behind that.
    cases again : Text.after? "As" typeName with
    | none =>
        simp only [returnType?, opens, again, List.isEmpty_cons, Option.bind_eq_bind,
          Option.bind_some, Option.bind_none]
        rfl
    | some rest =>
        have unset : writtenType? rest = none := by
          refine writtenType?_of_visible fun c member => isWord.isBlank_eq_false c ?_
          rw [Text.after?_eq_some_iff.mp again]
          exact List.mem_append_right _ member
        simp only [returnType?, opens, again, unset, List.isEmpty_cons, Option.bind_eq_bind,
          Option.bind_some, Option.bind_none]
        rfl
  simp only [read?, named, starts, noList, isVisible, Bool.false_eq_true, if_false, noType,
    Option.bind_eq_bind, Option.bind_some, Option.bind_none]

section Written

variable
  {heading : Heading}
  (isWritable : heading.IsWritable)
include isWritable

/-- A return type can be written as a value. -/
theorem isValue_returnType :
    ∀ typeName ∈ heading.returnType, Phrase.IsValue typeName := by
  intro typeName member
  have isWord := isWritable.isType typeName member
  refine ⟨Text.isTrimmed_of_visible isWord.1 isWord.isBlank_eq_false, fun isBreak => ?_⟩
  have isBlank := isWord.isBlank_eq_false '\n' isBreak
  revert isBlank
  decide

/-- A heading that can be written is read back. -/
theorem read?_written :
    read? heading.written = some heading := by
  have returns := returnType?_written (isValue_returnType isWritable)
  cases lists : heading.parameters with
  | some list =>
      have read :
          parameterList? (list ++ ')' :: Phrase.writtenType heading.returnType) =
            some (list, Phrase.writtenType heading.returnType) :=
        parameterList?_eq_some_iff.mpr ⟨rfl, isWritable.isList list lists⟩
      have shape :
          heading.written =
            heading.name ++ '(' :: (list ++ ')' :: Phrase.writtenType heading.returnType) := by
        simp [written, ending, lists, Text.concat]
      rw [shape, read?_of_name isWritable.isName, read, Option.bind_some]
      dsimp only
      rw [returns, Option.map_some, ← lists]
  | none =>
      have shape : heading.written = heading.name ++ Phrase.writtenType heading.returnType := by
        simp [written, ending, lists]
      have named :
          Phrase.name? heading.written =
            some (heading.name, Phrase.writtenType heading.returnType) := by
        refine Phrase.nameFrom?_eq_some_iff.mpr ⟨shape, isWritable.isName, ?_⟩
        cases heading.returnType <;>
          rintro c ⟨⟩
        decide
      have noList :
          Text.after? "(" (Text.trimStart (Phrase.writtenType heading.returnType)) = none := by
        cases heading.returnType <;>
          rfl
      -- What is left is nothing, or it begins with the space in front of a type.
      have stays :
          (if (Text.trimStart (Phrase.writtenType heading.returnType)).isEmpty then []
            else Phrase.writtenType heading.returnType) =
          Phrase.writtenType heading.returnType := by
        cases heading.returnType <;>
          rfl
      simp only [read?, named, noList, stays, returns, Option.bind_eq_bind, Option.bind_some]
      rw [← lists]

/-- A name is no accessor, whatever it is: what follows it is no heading. -/
theorem accessed?_written :
    Signature.accessed? heading.written = some (none, heading) := by
  have read := read?_written isWritable
  cases lists : heading.parameters with
  | some list =>
      have shape :
          heading.written =
            heading.name ++ '(' :: (list ++ ')' :: Phrase.writtenType heading.returnType) := by
        simp [written, ending, lists, Text.concat]
      rw [shape] at read ⊢
      rw [Signature.accessed?_of_name isWritable.isName, read, Option.map_some]
  | none =>
      have shape : heading.written = heading.name ++ Phrase.writtenType heading.returnType := by
        simp [written, ending, lists]
      rw [Signature.accessed?, Phrase.optionally_of_fails, read, Option.map_some]
      -- If the name is an accessor, a type behind it is no heading, and the name is
      -- read after all.
      intro accessor rest keyword
      have isVisible : heading.name.all Text.isVisible = true := by
        refine List.all_eq_true.mpr fun c member => ?_
        have continues := isWritable.isName.isNameChar_of_mem c member
        simp [Text.isVisible, Phrase.isBlank_of_isNameChar continues]
      cases returns : heading.returnType with
      | none =>
          have whole : heading.written = heading.name := by
            rw [shape, returns, Phrase.writtenType, Option.elim_none, List.append_nil]
          rw [whole, Phrase.keyword?_of_nothing _ isVisible] at keyword
          cases keyword
      | some typeName =>
          have isWord := isWritable.isType typeName returns
          have whole :
              heading.written = heading.name ++ ' ' :: (("As" : Text) ++ ' ' :: typeName) := by
            rw [shape, returns]
            rfl
          rw [whole, Phrase.keyword?_append _ isVisible rfl] at keyword
          obtain ⟨found, -, same⟩ := Option.map_eq_some_iff.mp keyword
          cases same
          rw [read?_as isWord (isWritable.isNoList typeName returns)]
          rfl

end Written

end Heading

/-! ## Signatures -/

namespace Procedure

/-- The keyword of a procedure. -/
def keyword : Procedure → Text
  | .property _ => "Property"
  | .method kind => kind.keyword

/-- The accessor of a procedure, which only one of a property has. -/
def accessor? : Procedure → Option Accessor
  | .property accessor => some accessor
  | .method _ => none

/-- The keyword of a procedure is a word. -/
theorem isWord_keyword
    (procedure : Procedure) :
    Phrase.IsWord procedure.keyword := by
  rcases procedure with accessor | _ | _ <;>
    exact ⟨List.cons_ne_nil _ _, rfl⟩

end Procedure

namespace Signature

/-- A return type: that of a value, or that of the elements of an array. -/
structure ReturnType where
  typeName : Text
  isArray : Bool
  deriving Repr, DecidableEq

/-- A return type as it is written. -/
def ReturnType.written (returnType : ReturnType) : Text :=
  returnType.typeName ++ Parameter.writtenBounds returnType.isArray

/-- What the parts of a signature are like that can be written. -/
structure IsWritable (signature : Signature) (returnType : Option ReturnType) : Prop where
  isModifier : ∀ modifier ∈ signature.modifier, modifier ∈ modifiers
  isName : Phrase.IsName signature.heading.name
  isList : ∀ list ∈ signature.heading.parameters, Heading.OnlyEmptyPairs list
  isReturned : signature.heading.returnType = returnType.map ReturnType.written
  isType : ∀ returned ∈ returnType, Phrase.IsTypeName returned.typeName

/-- A signature from its accessor on. -/
def accessed (signature : Signature) : Text :=
  Phrase.writtenKeyword (signature.procedure.accessor?.map Accessor.keyword) ++
    signature.heading.written

/-- A signature from the keyword of its procedure on. -/
def ofKind (signature : Signature) : Text :=
  Phrase.writtenKeyword (some signature.procedure.keyword) ++ signature.accessed

/-- A signature without its modifier. -/
def unmodified (signature : Signature) : Text :=
  Phrase.writtenKeyword (Parameter.flagged "Static" signature.isStatic) ++ signature.ofKind

/-- A signature as it is written. -/
def written (signature : Signature) : Text :=
  Phrase.writtenKeyword (signature.modifier.map AccessModifier.keyword) ++
    signature.unmodified

/-- The node of a signature with all that is below it: its identifier, below that the
bounds of an array and the type, and then its parameters. -/
def tree (signature : Signature) (returnType : Option ReturnType) (line : Nat) : Node :=
  let payload : Payload :=
    match signature.procedure with
    | .property accessor => .property signature.modifier signature.isStatic accessor
    | .method kind => .method signature.modifier signature.isStatic kind
  let bounds : List Node :=
    if returnType.any ReturnType.isArray then [⟨"()", line, .arraySpec, []⟩] else []
  let types : List Node :=
    match returnType with
    | some returned => [⟨returned.typeName, line, .typeReference, []⟩]
    | none => []
  let identifier : Node := ⟨signature.heading.name, line, .identifier, bounds ++ types⟩
  let parameters : List Node :=
    match signature.heading.parameters with
    | some list => Parameter.nodes list line
    | none => []
  ⟨signature.heading.name, line, payload, identifier :: parameters⟩

/-! ### Leading keywords -/

/-- A leading keyword that is written is read, and one that is not is not, provided
that what follows leads with another word. -/
theorem leading_written
    {recognise : Text → Option α}
    {keyword : Option Text}
    {rest : Text}
    (areWords : ∀ word ∈ keyword, Phrase.IsWord word)
    (areKnown : ∀ word ∈ keyword, (recognise word).isSome = true)
    (starts : Text.trimStart rest = rest)
    (unknown : recognise (Text.leadingWord rest) = none) :
    leading recognise (Phrase.writtenKeyword keyword ++ rest) =
      (keyword.bind recognise, rest) := by
  cases keyword with
  | none =>
      change leading recognise rest = _
      rw [leading, Phrase.keyword?_eq_none unknown]
      rfl
  | some word =>
      obtain ⟨found, known⟩ := Option.isSome_iff_exists.mp (areKnown word rfl)
      rw [leading, Phrase.keyword?_written (areWords word rfl) recognise starts,
        Option.bind_some, known]
      rfl

/-- A modifier that may lead a signature is recognised by its keyword. -/
theorem modifier?_keyword
    {modifier : AccessModifier}
    (leads : modifier ∈ modifiers) :
    modifier? modifier.keyword = some modifier := by
  simp only [modifier?, modifier.ofKeyword?_keyword, Option.filter]
  rw [if_pos (List.contains_iff_mem.mpr leads)]

/-- Of the keywords of procedures only those of methods tell the kind of a
method. -/
theorem procedure?_keyword
    (procedure : Procedure) :
    procedure? procedure.keyword =
      some (match procedure with
        | .property _ => none
        | .method kind => some kind) := by
  rcases procedure with accessor | _ | _
  · rfl
  · rfl
  · rfl

/-- A return type is written as one word, with its parentheses. -/
theorem ReturnType.isWord_written
    (returned : ReturnType)
    (isType : Phrase.IsTypeName returned.typeName) :
    Phrase.IsWord returned.written := by
  have bounds : (Parameter.writtenBounds returned.isArray).all Text.isVisible = true := by
    cases returned.isArray <;>
      decide
  refine ⟨by simp [written, isType.isTrimmed.1], ?_⟩
  rw [written, List.all_append, bounds, Bool.and_true, isType.isWord.2]

/-- A return type does not begin with a parenthesis. -/
theorem ReturnType.head?_written
    (returned : ReturnType)
    (isType : Phrase.IsTypeName returned.typeName) :
    returned.written.head? ≠ some '(' := by
  obtain ⟨c, behind, shape⟩ := List.exists_cons_of_ne_nil isType.isTrimmed.1
  rw [written, shape]
  rintro ⟨⟩
  exact isType.not_mem (by decide) (by decide) (shape ▸ List.mem_cons_self)

section Written

variable
  {signature : Signature}
  {returnType : Option ReturnType}
  (isWritable : IsWritable signature returnType)
include isWritable

/-- A signature that can be written has a heading that can. -/
theorem isWritable_heading :
    signature.heading.IsWritable := by
  refine ⟨isWritable.isName, isWritable.isList, ?_, ?_⟩
  all_goals
    intro typeName member
    rw [isWritable.isReturned] at member
    obtain ⟨returned, given, rfl⟩ := Option.map_eq_some_iff.mp member
  · exact returned.isWord_written (isWritable.isType returned given)
  · exact returned.head?_written (isWritable.isType returned given)

/-- No blank stands in front of the heading. -/
theorem trimStart_heading :
    Text.trimStart signature.heading.written = signature.heading.written :=
  isWritable.isName.trimStart_append _

/-- No blank stands in front of the accessor. -/
theorem trimStart_accessed :
    Text.trimStart signature.accessed = signature.accessed := by
  refine Phrase.trimStart_writtenKeyword ?_ (trimStart_heading isWritable)
  intro word member
  obtain ⟨accessor, -, rfl⟩ := Option.map_eq_some_iff.mp member
  exact accessor.isWord_keyword

/-- No blank stands in front of the keyword of the procedure. -/
theorem trimStart_ofKind :
    Text.trimStart signature.ofKind = signature.ofKind := by
  refine Phrase.trimStart_writtenKeyword ?_ (trimStart_accessed isWritable)
  rintro word ⟨⟩
  exact signature.procedure.isWord_keyword

/-- No blank stands in front of what follows the access modifier. -/
theorem trimStart_unmodified :
    Text.trimStart signature.unmodified = signature.unmodified :=
  Phrase.trimStart_writtenKeyword
    (Parameter.areWords_flagged signature.isStatic (by decide))
    (trimStart_ofKind isWritable)

/-- An accessor is read if there is one, and no name is taken for one. -/
theorem accessed?_accessed :
    accessed? signature.accessed = some (signature.procedure.accessor?, signature.heading) := by
  have isHeading := isWritable_heading isWritable
  rw [accessed]
  cases signature.procedure.accessor? with
  | some accessor =>
      have keyword :
          Phrase.keyword? Accessor.ofKeyword?
              (Phrase.writtenKeyword (some accessor.keyword) ++ signature.heading.written) =
            some (accessor, signature.heading.written) := by
        rw [Phrase.keyword?_written accessor.isWord_keyword _ (trimStart_heading isWritable),
          accessor.ofKeyword?_keyword]
        rfl
      refine Phrase.optionally_of_keyword keyword ?_
      rw [Heading.read?_written isHeading]
      rfl
  | none =>
      exact Heading.accessed?_written isHeading

/-- A signature that is written is read back. -/
theorem read?_written :
    read? signature.written = some signature := by
  -- Keywords are taken off one by one; where one is missing, the next is not taken for
  -- it.
  have leadsKind :
      Text.leadingWord signature.ofKind = signature.procedure.keyword := by
    rw [ofKind, Phrase.leadingWord_written]
    · rfl
    · rintro word ⟨⟩
      exact signature.procedure.isWord_keyword
  have noStatic : Phrase.word? "Static" (Text.leadingWord signature.ofKind) = none := by
    rw [leadsKind]
    rcases signature.procedure with accessor | _ | _ <;>
      rfl
  have noModifier : modifier? (Text.leadingWord signature.unmodified) = none := by
    rw [unmodified,
      Phrase.leadingWord_written (Parameter.areWords_flagged signature.isStatic (by decide)),
      leadsKind]
    rcases signature.procedure with accessor | _ | _ <;>
      cases signature.isStatic <;>
        rfl
  have modifier :
      leading modifier? signature.written = (signature.modifier, signature.unmodified) := by
    have known :
        ∀ word ∈ signature.modifier.map AccessModifier.keyword,
          Phrase.IsWord word ∧ (modifier? word).isSome = true := by
      intro word member
      obtain ⟨modifier, given, rfl⟩ := Option.map_eq_some_iff.mp member
      rw [modifier?_keyword (isWritable.isModifier modifier given)]
      exact ⟨modifier.isWord_keyword, rfl⟩
    rw [written, leading_written (fun word member => (known word member).1)
      (fun word member => (known word member).2) (trimStart_unmodified isWritable) noModifier]
    cases given : signature.modifier with
    | none =>
        rfl
    | some modifier =>
        rw [Option.map_some, Option.bind_some,
          modifier?_keyword (isWritable.isModifier modifier given)]
  have static :
      leading (Phrase.word? "Static") signature.unmodified =
        ((Parameter.flagged "Static" signature.isStatic).bind (Phrase.word? "Static"),
          signature.ofKind) :=
    leading_written (Parameter.areWords_flagged _ (by decide))
      (Parameter.isKnown_flagged signature.isStatic) (trimStart_ofKind isWritable) noStatic
  have kind :
      Phrase.keyword? procedure? signature.ofKind =
        (procedure? signature.procedure.keyword).map fun found =>
          (found, signature.accessed) :=
    Phrase.keyword?_written signature.procedure.isWord_keyword _ (trimStart_accessed isWritable)
  rw [procedure?_keyword] at kind
  have isStatic :
      ((Parameter.flagged "Static" signature.isStatic).bind (Phrase.word? "Static")).isSome =
        signature.isStatic :=
    Parameter.isSome_flagged _
  simp only [read?, modifier, static, kind, accessed?_accessed isWritable,
    Option.map_some, Option.bind_eq_bind, Option.bind_some, isStatic]
  rcases signature with ⟨modifier, isStatic, accessor | kind, heading⟩
  · rfl
  · rfl

/-- The bounds of an array are taken off its type, and no type has any of its own. -/
theorem identifier_written
    (line : Nat) :
    signature.identifier line =
      Node.identifier signature.heading.name
        ((returnType.filter ReturnType.isArray).map fun _ => "()")
        none (returnType.map ReturnType.typeName) line := by
  rw [identifier, isWritable.isReturned]
  cases given : returnType with
  | none =>
      rfl
  | some returned =>
      have isType := isWritable.isType returned given
      obtain ⟨typeName, isArray⟩ := returned
      cases isArray with
      | true =>
          have cut : Text.before? "()" (typeName ++ ['(', ')']) = some typeName :=
            Text.before?_eq_some_iff.mpr rfl
          have ends : Text.trimEnd typeName = typeName := by
            have whole := isType.isTrimmed.2
            rwa [Text.trim, isType.isTrimmed.trimStart_eq] at whole
          change (match Text.before? "()" (typeName ++ ['(', ')']) with
            | some element => _
            | none => _) = _
          rw [cut]
          dsimp only
          rw [ends]
          rfl
      | false =>
          have uncut : Text.before? "()" typeName = none := by
            cases cut : Text.before? "()" typeName with
            | none =>
                rfl
            | some element =>
                have closes : ')' ∈ typeName := by
                  rw [Text.before?_eq_some_iff.mp cut]
                  exact List.mem_append_right _ (by decide)
                exact (isType.not_mem (by decide) (by decide) closes).elim
          have bare : ReturnType.written ⟨typeName, false⟩ = typeName :=
            List.append_nil typeName
          rw [Option.map_some, bare, Option.bind_some, uncut]
          rfl

/-- The node of a signature is the tree that its parts say. -/
theorem node_eq_tree
    (line : Nat) :
    signature.node line = tree signature returnType line := by
  have stays :
      (returnType.map ReturnType.typeName).filter (fun typeName => !typeName.isEmpty) =
        returnType.map ReturnType.typeName := by
    refine Text.filter_of_isTrimmed fun typeName isTypeName => ?_
    obtain ⟨returned, given, rfl⟩ := Option.map_eq_some_iff.mp isTypeName
    exact (isWritable.isType returned given).isTrimmed
  rw [node, identifier_written isWritable]
  unfold tree Node.identifier
  dsimp only
  rw [stays]
  rcases returnType with _ | ⟨typeName, _ | _⟩ <;>
    cases signature.heading.parameters <;>
      rfl

end Written

/-- A signature that is written is read back with its modifier, its procedure, its name,
its type and its parameters, whatever words its parts are; and what any signature
declares and what closes it belong together. -/
theorem read?_written_and_terminator :
    (∀ signature returnType,
      IsWritable signature returnType →
        ∀ line,
          read? signature.written = some signature ∧
            signature.node line = tree signature returnType line ∧
            signature.terminator.text = ("End " : Text) ++ signature.procedure.keyword) ∧
    ∀ code signature,
      read? code = some signature →
        (signature.payload.kind = .property ↔ signature.terminator.text = "End Property") ∧
        ∀ modifier isStatic kind,
          signature.payload = .method modifier isStatic kind →
            signature.terminator.text = ("End " : Text) ++ kind.keyword := by
  refine ⟨fun signature returnType isWritable line => ?_, fun code signature _ => ?_⟩
  · refine ⟨read?_written isWritable, node_eq_tree isWritable line, ?_⟩
    unfold terminator
    rcases signature.procedure with accessor | _ | _ <;>
      rfl
  · unfold terminator payload
    rcases signature.procedure with accessor | _ | _
    · exact ⟨iff_of_true rfl rfl, by rintro modifier isStatic kind ⟨⟩⟩
    · exact ⟨iff_of_false (by rintro ⟨⟩) (by decide), by rintro modifier isStatic kind ⟨⟩; rfl⟩
    · exact ⟨iff_of_false (by rintro ⟨⟩) (by decide), by rintro modifier isStatic kind ⟨⟩; rfl⟩

/-- A method may be named like an accessor and return a type that is spelled like a
keyword. -/
theorem read?_written_and_terminator_get :
    let signature : Signature :=
      ⟨some .friend, true, .method .function, ⟨"Get", none, some "As.Sub()"⟩⟩
    IsWritable signature (some ⟨"As.Sub", true⟩) ∧
      signature.written = "Friend Static Function Get As As.Sub()" ∧
      read? signature.written = some signature ∧
      signature.node 4 = tree signature (some ⟨"As.Sub", true⟩) 4 ∧
      signature.terminator.text = "End Function" := by
  intro signature
  have isWritable : IsWritable signature (some ⟨"As.Sub", true⟩) :=
    { isModifier := by decide
      isName := by decide
      isList := by rintro list ⟨⟩
      isReturned := rfl
      isType := by
        rintro returned ⟨⟩
        exact .inr ⟨"As", "Sub", rfl, by decide, by decide⟩ }
  exact
    ⟨isWritable, by decide +kernel,
      read?_written_and_terminator.1 signature _ isWritable 4⟩

end Signature

end ClassicBasic
