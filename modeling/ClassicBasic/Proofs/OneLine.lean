import ClassicBasic.Proofs.Attribute
import ClassicBasic.Proofs.Line.Comment
import ClassicBasic.Proofs.Node.Shape
import ClassicBasic.Proofs.Signature
import ClassicBasic.Proofs.Text.TopLevel

namespace ClassicBasic

/-!
# Names, types and values stand on one line

A text can hold a line feed, but what is read from it rarely does.  Names and
types are runs of name characters, and the values of attributes, parameters and
declarations refuse line feeds.  Only array bounds, names in brackets, comments and
the lines of a body are taken as they are, and so hold a line feed only where
their text does.
-/

/-! ## Texts -/

namespace Text

/-- A concatenation is on one line if its first part and the rest are. -/
theorem oneLine_concat_cons
    {part : Text}
    {parts : List Text} :
    '\n' ∉ concat (part :: parts) ↔ '\n' ∉ part ∧ '\n' ∉ concat parts := by
  rw [concat_cons, List.mem_append, not_or]

/-- Nothing is on one line. -/
theorem oneLine_concat_nil :
    '\n' ∉ concat [] :=
  List.not_mem_nil

/-- The parts of a list have no other characters than the list. -/
theorem mem_of_mem_splitTopLevel
    {separator c : Char}
    {text part : Text}
    (different : c ≠ separator)
    (isPart : part ∈ splitTopLevel separator text)
    (member : c ∈ part) :
    c ∈ text := by
  have inParts : c ∈ concat (splitTopLevel separator text) :=
    List.mem_flatten.mpr ⟨part, isPart, member⟩
  rw [← List.count_pos_iff, count_concat_splitTopLevel different] at inParts
  exact List.count_pos_iff.mp inParts

end Text

/-! ## Phrases -/

namespace Phrase

/-- A name whose first character cannot be a line feed is on one line. -/
theorem IsNameFrom.oneLine
    {start : Char → Bool}
    {name : Text}
    (isName : IsNameFrom start name)
    (startsVisible : start '\n' = false) :
    '\n' ∉ name := by
  cases name with
  | nil =>
      exact isName.elim
  | cons first rest =>
      intro member
      rcases List.mem_cons.mp member with rfl | inRest
      · exact absurd isName.1 (by simp [startsVisible])
      · exact absurd (isName.2 '\n' inRest) (by decide)

/-- A name that is read is on one line. -/
theorem oneLine_of_nameFrom?
    {start : Char → Bool}
    {text name rest : Text}
    (startsVisible : start '\n' = false)
    (read : nameFrom? start text = some (name, rest)) :
    '\n' ∉ name :=
  (nameFrom?_eq_some_iff.mp read).2.1.oneLine startsVisible

/-- A name that is read is on one line, also if a suffix of its type is taken from
behind it. -/
theorem oneLine_of_suffixedName?
    {text name rest : Text}
    (read : suffixedName? text = some (name, rest)) :
    '\n' ∉ name ∧ rest <:+ text := by
  obtain ⟨⟨first, behind⟩, named, suffixed⟩ := Option.bind_eq_some_iff.mp read
  have noBreak : '\n' ∉ first := oneLine_of_nameFrom? (by decide) named
  have isRest : behind <:+ text :=
    ⟨first, (nameFrom?_eq_some_iff.mp named).1.symm⟩
  cases behind with
  | nil =>
      cases suffixed
      exact ⟨noBreak, isRest⟩
  | cons suffix behind =>
      dsimp only at suffixed
      split at suffixed
      · next isSuffix =>
          cases suffixed
          refine ⟨?_, (List.suffix_cons _ _).trans isRest⟩
          have visible : suffix ≠ '\n' := by
            rintro rfl
            exact absurd isSuffix (by decide)
          simp [noBreak, visible.symm]
      · cases suffixed
        exact ⟨noBreak, isRest⟩

/-- The name of a type is on one line, with all of its dots. -/
theorem oneLine_of_typeName?
    {text typeName rest : Text}
    (read : typeName? text = some (typeName, rest)) :
    '\n' ∉ typeName := by
  obtain ⟨⟨first, behind⟩, named, qualified⟩ := Option.bind_eq_some_iff.mp read
  have noBreak : '\n' ∉ first := oneLine_of_nameFrom? (by decide) named
  dsimp only at qualified
  split at qualified
  · next second others read =>
      obtain ⟨inner, -, isSecond⟩ := Option.bind_eq_some_iff.mp read
      have noLater : '\n' ∉ second := oneLine_of_nameFrom? (by decide) isSecond
      cases qualified
      simp [noBreak, noLater]
  · cases qualified
    exact noBreak

/-- A value at the end of a text is on one line. -/
theorem oneLine_of_finalValue?
    {text : Text}
    {value : Option Text}
    (read : finalValue? text = some value) :
    ∀ written ∈ value, '\n' ∉ written := by
  unfold finalValue? at read
  split at read
  · cases read
    simp
  · obtain ⟨rest, -, read⟩ := Option.bind_eq_some_iff.mp read
    split at read
    · cases read
    · split at read
      · cases read
      · next noBreak =>
          cases read
          simpa using noBreak

/-- What follows a keyword closes the text. -/
theorem suffix_of_keyword?
    {recognise : Text → Option α}
    {text rest : Text}
    {found : α}
    (read : keyword? recognise text = some (found, rest)) :
    rest <:+ text := by
  obtain ⟨⟨word, behind⟩, leads, recognised⟩ := Option.bind_eq_some_iff.mp read
  obtain ⟨value, -, same⟩ := Option.bind_eq_some_iff.mp recognised
  cases same
  obtain ⟨others, blanks, same⟩ := Option.map_eq_some_iff.mp leads
  cases same
  have isLater : Text.afterLeadingWord text <:+ text := List.dropWhile_suffix _
  cases later : Text.afterLeadingWord text with
  | nil =>
      rw [later] at blanks
      cases blanks
  | cons blank behind =>
      rw [later, Text.afterBlanks?, Option.ite_none_right_eq_some] at blanks
      obtain ⟨-, same⟩ := blanks
      cases same
      rw [later] at isLater
      exact (List.dropWhile_suffix _).trans ((List.suffix_cons _ _).trans isLater)

/-- Behind an optional keyword a phrase is read from the end of the text. -/
theorem exists_suffix_of_optionally
    {recognise : Text → Option α}
    {text : Text}
    {readOn : Option α → Text → Option β}
    {value : β}
    (read : optionally recognise text readOn = some value) :
    ∃ found rest, rest <:+ text ∧ readOn found rest = some value := by
  rcases optionally_eq_some read with ⟨found, rest, leads, readsOn⟩ | readsOn
  · exact ⟨some found, rest, suffix_of_keyword? leads, readsOn⟩
  · exact ⟨none, text, List.suffix_rfl, readsOn⟩

end Phrase

/-! ## Parameters -/

/-- Whether all texts of a parameter stand on one line. -/
structure Parameter.IsOneLine (parameter : Parameter) : Prop where
  name : '\n' ∉ parameter.name
  typeName : ∀ typeName ∈ parameter.typeName, '\n' ∉ typeName
  defaultValue : ∀ value ∈ parameter.defaultValue, '\n' ∉ value

namespace Parameter

/-- The type of a parameter is on one line. -/
theorem oneLine_typeClause
    (text : Text) :
    ∀ typeName ∈ (typeClause text).1, '\n' ∉ typeName := by
  unfold typeClause
  split
  · next written rest reads =>
      obtain ⟨behind, -, typed⟩ := Option.bind_eq_some_iff.mp reads
      simpa using Phrase.oneLine_of_typeName? typed
  · simp

/-- A parameter stands on one line, whatever its list is. -/
theorem isOneLine_of_read?
    {text : Text}
    {parameter : Parameter}
    (read : Parameter.read? text = some parameter) :
    parameter.IsOneLine := by
  obtain ⟨_, _, read⟩ := Phrase.exists_readOn_of_optionally read
  obtain ⟨_, _, read⟩ := Phrase.exists_readOn_of_optionally read
  obtain ⟨_, _, read⟩ := Phrase.exists_readOn_of_optionally read
  obtain ⟨⟨name, rest⟩, named, read⟩ := Option.bind_eq_some_iff.mp read
  obtain ⟨value, isValue, same⟩ := Option.bind_eq_some_iff.mp read
  cases same
  exact ⟨(Phrase.oneLine_of_suffixedName? named).1, oneLine_typeClause _,
    Phrase.oneLine_of_finalValue? isValue⟩

end Parameter

/-! ## Declarators -/

/-- Whether all texts of a declarator that a tree shows stand on one line. -/
structure Declarator.IsOneLine (declarator : Declarator) : Prop where
  name : '\n' ∉ declarator.name
  bounds : ∀ bounds ∈ declarator.bounds, '\n' ∉ bounds
  typeName : ∀ typeName ∈ declarator.typeName, '\n' ∉ typeName

namespace Declarator

/-- The length of a string type is on one line. -/
theorem oneLine_of_length?
    {text length rest : Text}
    (read : length? text = (some length, rest)) :
    '\n' ∉ length := by
  unfold length? at read
  split at read
  · cases read
  · split at read
    · cases read
    · cases read
      intro member
      exact absurd (List.mem_takeWhile_imp member) (by decide +kernel)

/-- A type is on one line together with its length. -/
theorem oneLine_of_sizedType?
    {text typeName rest : Text}
    (read : sizedType? text = some (typeName, rest)) :
    '\n' ∉ typeName := by
  obtain ⟨⟨written, behind⟩, typed, sized⟩ := Option.bind_eq_some_iff.mp read
  have noBreak := Phrase.oneLine_of_typeName? typed
  dsimp only at sized
  split at sized
  · next length others reads =>
      cases sized
      simp [Text.concat, noBreak, oneLine_of_length? reads]
  · cases sized
    exact noBreak

/-- The type that stands behind a variable is on one line. -/
theorem oneLine_of_readTyped?
    {text : Text}
    {isNew : Bool}
    {typeName value : Option Text}
    (read : readTyped? text = some (isNew, typeName, value)) :
    ∀ written ∈ typeName, '\n' ∉ written := by
  unfold readTyped? at read
  split at read
  · obtain ⟨written, -, same⟩ := Option.map_eq_some_iff.mp read
    cases same
    simp
  · obtain ⟨_, _, read⟩ := Phrase.exists_readOn_of_optionally read
    obtain ⟨⟨written, behind⟩, typed, read⟩ := Option.bind_eq_some_iff.mp read
    obtain ⟨other, -, same⟩ := Option.bind_eq_some_iff.mp read
    cases same
    simpa using oneLine_of_sizedType? typed

/-- Bounds are taken from their text. -/
theorem mem_of_mem_bounds?
    {c : Char}
    {text bounds : Text}
    (read : (bounds? text).1 = some bounds)
    (member : c ∈ bounds) :
    c = '(' ∨ c = ')' ∨ c ∈ text := by
  unfold bounds? at read
  split at read
  · cases read
  · next inside opens =>
      split at read
      · cases read
      · cases read
        have inInside : c ∈ inside.takeWhile (· ≠ ')') → c ∈ text := by
          intro isInside
          have isLater : c ∈ Text.trimStart text := by
            rw [Text.after?_eq_some_iff.mp opens]
            exact List.mem_append_right _ ((List.takeWhile_sublist _).subset isInside)
          exact (List.dropWhile_sublist Text.isBlank).subset isLater
        simp only [Text.concat, List.flatten_cons, List.flatten_nil, List.append_nil,
          List.mem_append] at member
        rcases member with opening | isInside | closing
        · exact .inl (by simpa using opening)
        · exact .inr (.inr (inInside isInside))
        · exact .inr (.inl (by simpa using closing))

/-- A declarator stands on one line if its text does. -/
theorem isOneLine_of_read?
    {text : Text}
    {declarator : Declarator}
    (read : Declarator.read? text = some declarator)
    (oneLine : '\n' ∉ text) :
    declarator.IsOneLine := by
  obtain ⟨_, start, isSuffix, read⟩ := Phrase.exists_suffix_of_optionally read
  obtain ⟨⟨name, rest⟩, named, read⟩ := Option.bind_eq_some_iff.mp read
  obtain ⟨⟨isNew, typeName, value⟩, typed, same⟩ := Option.bind_eq_some_iff.mp read
  cases same
  obtain ⟨noBreak, isRest⟩ := Phrase.oneLine_of_suffixedName? named
  refine ⟨noBreak, ?_, oneLine_of_readTyped? typed⟩
  intro bounds isBounds member
  rcases mem_of_mem_bounds? isBounds member with opening | closing | inRest
  · exact absurd opening (by decide)
  · exact absurd closing (by decide)
  · exact oneLine ((isRest.trans isSuffix).subset inRest)

end Declarator

/-! ## Declaring instructions -/

/-- Whether all texts of an instruction that a tree shows stand on one line.  The
parameters of an external procedure do so whatever their list is. -/
def DeclaringInstruction.IsOneLine : DeclaringInstruction → Prop
  | .implements interface => '\n' ∉ interface
  | .externalProcedure statement =>
      '\n' ∉ statement.name ∧ ∀ typeName ∈ statement.returnType, '\n' ∉ typeName
  | .variables _ _ declarators => ∀ declarator ∈ declarators, declarator.IsOneLine
  | .block _ _ name => '\n' ∉ name

namespace ExternalDeclaration

/-- The return type of an external procedure is on one line. -/
theorem oneLine_of_returnType?
    {text : Text}
    {typeName : Option Text}
    (read : returnType? text = some typeName) :
    ∀ written ∈ typeName, '\n' ∉ written := by
  unfold returnType? at read
  split at read
  · cases read
    simp
  · obtain ⟨rest, -, read⟩ := Option.bind_eq_some_iff.mp read
    obtain ⟨⟨written, behind⟩, typed, read⟩ := Option.bind_eq_some_iff.mp read
    dsimp only at read
    split at read
    · cases read
      simpa using Phrase.oneLine_of_typeName? typed
    · cases read

/-- The return type is on one line also where a parameter list may stand before
it. -/
theorem oneLine_of_parametersAndType?
    {text : Text}
    {parameters typeName : Option Text}
    (read : parametersAndType? text = some (parameters, typeName)) :
    ∀ written ∈ typeName, '\n' ∉ written := by
  unfold parametersAndType? at read
  split at read
  · cases read
    simp
  · obtain ⟨⟨list, rest⟩, -, read⟩ := Option.bind_eq_some_iff.mp read
    obtain ⟨written, typed, read⟩ := Option.bind_eq_some_iff.mp read
    split at read
    · cases read
    · cases read
      exact oneLine_of_returnType? typed
  · obtain ⟨written, typed, same⟩ := Option.map_eq_some_iff.mp read
    cases same
    exact oneLine_of_returnType? typed

/-- The declaration of an external procedure keeps its name and its type on one
line. -/
theorem isOneLine_of_read?
    {text : Text}
    {statement : ExternalDeclaration}
    (read : read? text = some statement) :
    (DeclaringInstruction.externalProcedure statement).IsOneLine := by
  obtain ⟨modifier, rest, read⟩ :
      ∃ modifier rest, readUnmodified? modifier rest = some statement := by
    unfold ExternalDeclaration.read? at read
    split at read
    · exact ⟨_, _, read⟩
    · exact ⟨_, _, read⟩
  obtain ⟨_, -, read⟩ := Option.bind_eq_some_iff.mp read
  obtain ⟨_, -, read⟩ := Option.bind_eq_some_iff.mp read
  obtain ⟨⟨name, behind⟩, named, read⟩ := Option.bind_eq_some_iff.mp read
  obtain ⟨_, -, read⟩ := Option.bind_eq_some_iff.mp read
  obtain ⟨⟨parameters, returnType⟩, typed, same⟩ := Option.bind_eq_some_iff.mp read
  cases same
  exact
    ⟨Phrase.oneLine_of_nameFrom? (by decide) named, oneLine_of_parametersAndType? typed⟩

end ExternalDeclaration

namespace DeclaringInstruction

/-- The name of an implemented interface is on one line. -/
theorem oneLine_of_interface?
    {text interface : Text}
    (read : interface? text = some interface) :
    '\n' ∉ interface := by
  obtain ⟨_, -, read⟩ := Option.bind_eq_some_iff.mp read
  obtain ⟨⟨name, rest⟩, named, read⟩ := Option.bind_eq_some_iff.mp read
  dsimp only at read
  split at read
  · cases read
    exact Phrase.oneLine_of_nameFrom? (by decide) named
  · cases read

/-- Behind its keyword a declaration holds no line feed. -/
theorem oneLine_of_readLeading?
    {text rest : Text}
    {modifier : Option AccessModifier}
    {keyword : DeclarationKeyword}
    (read : readLeading? text = some (modifier, keyword, rest)) :
    '\n' ∉ rest := by
  obtain ⟨leading, behind, read⟩ := Phrase.exists_readOn_of_optionally read
  obtain ⟨⟨written, behind⟩, leads, same⟩ := Option.bind_eq_some_iff.mp read
  cases same
  obtain ⟨⟨known, after⟩, -, whole⟩ := Option.bind_eq_some_iff.mp leads
  dsimp only at whole
  split at whole
  · cases whole
  · next noBreak =>
      cases whole
      simp only [Bool.or_eq_true, not_or] at noBreak
      simpa using noBreak.2

/-- The variables declared by a text on one line are on one line. -/
theorem isOneLine_of_mem_declarators
    {text : Text}
    {declarator : Declarator}
    (oneLine : '\n' ∉ text)
    (isDeclarator : declarator ∈ declarators text) :
    declarator.IsOneLine := by
  obtain ⟨segment, isSegment, read⟩ := List.mem_filterMap.mp isDeclarator
  obtain ⟨part, isPart, rfl⟩ := List.mem_map.mp (List.mem_of_mem_filter isSegment)
  refine Declarator.isOneLine_of_read? read fun member => oneLine ?_
  exact Text.mem_of_mem_splitTopLevel (by decide) isPart (Text.mem_of_mem_trim member)

/-- A declaration that is read keeps its texts on one line. -/
theorem isOneLine_of_declaration?
    {text : Text}
    {instruction : DeclaringInstruction}
    (read : declaration? text = some instruction) :
    instruction.IsOneLine := by
  obtain ⟨⟨modifier, keyword, rest⟩, leads, read⟩ := Option.bind_eq_some_iff.mp read
  have oneLine := oneLine_of_readLeading? leads
  have isName : '\n' ∉ Text.trim rest :=
    fun member => oneLine (Text.mem_of_mem_trim member)
  dsimp only at read
  split at read
  · cases read
    exact isName
  · cases read
    exact isName
  · split at read
    · cases read
    · cases read
      exact fun declarator member => isOneLine_of_mem_declarators oneLine member

/-- An instruction of the declaration section shows no line feed, wherever it
holds one. -/
theorem isOneLine_of_read?
    {text : Text}
    {instruction : DeclaringInstruction}
    (read : DeclaringInstruction.read? text = some instruction) :
    instruction.IsOneLine := by
  unfold DeclaringInstruction.read? at read
  cases interface : interface? text with
  | some name =>
      simp only [interface, Option.map_some] at read
      cases read
      exact oneLine_of_interface? interface
  | none =>
      cases external : ExternalDeclaration.read? text with
      | some statement =>
          simp only [interface, external, Option.map_none, Option.map_some] at read
          cases read
          exact ExternalDeclaration.isOneLine_of_read? external
      | none =>
          simp only [interface, external, Option.map_none] at read
          exact isOneLine_of_declaration? read

end DeclaringInstruction

/-! ## Members of enumerations -/

/-- A member of an enumeration has its name on one line if its line has. -/
theorem EnumMember.oneLine_of_read?
    {code : Text}
    {member : EnumMember}
    (read : EnumMember.read? code = some member)
    (oneLine : '\n' ∉ code) :
    '\n' ∉ member.name := by
  obtain ⟨⟨name, rest⟩, named, read⟩ := Option.bind_eq_some_iff.mp read
  obtain ⟨value, -, same⟩ := Option.bind_eq_some_iff.mp read
  cases same
  cases bracketed : bracketedName? code with
  | none =>
      rw [bracketed] at named
      exact Phrase.oneLine_of_nameFrom? (by decide) named
  | some pair =>
      rw [bracketed] at named
      cases named
      obtain ⟨inside, opens, bracketed⟩ := Option.bind_eq_some_iff.mp bracketed
      have inCode : ∀ c ∈ inside.takeWhile (· ≠ ']'), c ∈ code := by
        intro c isInside
        rw [Text.after?_eq_some_iff.mp opens]
        exact List.mem_append_right _ ((List.takeWhile_sublist _).subset isInside)
      split at bracketed
      · cases bracketed
      · cases bracketed
      · cases bracketed
        intro member
        simp only [Text.concat, List.flatten_cons, List.flatten_nil, List.append_nil,
          List.mem_append] at member
        rcases member with opening | isInside | closing
        · exact absurd opening (by decide)
        · exact oneLine (inCode _ isInside)
        · exact absurd closing (by decide)

/-! ## Signatures -/

namespace Heading

/-- A type behind its keyword is on one line. -/
theorem oneLine_of_writtenType?
    {text typeName : Text}
    (read : writtenType? text = some typeName) :
    '\n' ∉ typeName := by
  unfold writtenType? at read
  dsimp only at read
  split at read
  · split at read
    · cases read
      simp
    · cases read
  · split at read
    · cases read
    · next noBreak =>
        cases read
        simp only [Bool.or_eq_true, not_or] at noBreak
        intro member
        exact noBreak.2 (by simpa using Text.mem_of_mem_trimEnd member)

/-- The return type of a member is on one line. -/
theorem oneLine_of_returnType?
    {text : Text}
    {typeName : Option Text}
    (read : returnType? text = some typeName) :
    ∀ written ∈ typeName, '\n' ∉ written := by
  unfold returnType? at read
  split at read
  · cases read
    simp
  · obtain ⟨_, -, read⟩ := Option.bind_eq_some_iff.mp read
    obtain ⟨_, -, read⟩ := Option.bind_eq_some_iff.mp read
    obtain ⟨written, typed, same⟩ := Option.bind_eq_some_iff.mp read
    cases same
    simpa using oneLine_of_writtenType? typed

/-- The name and the return type of a heading stand on one line. -/
theorem oneLine_of_read?
    {text : Text}
    {heading : Heading}
    (read : Heading.read? text = some heading) :
    '\n' ∉ heading.name ∧ ∀ typeName ∈ heading.returnType, '\n' ∉ typeName := by
  obtain ⟨⟨name, rest⟩, named, read⟩ := Option.bind_eq_some_iff.mp read
  have noBreak : '\n' ∉ name := Phrase.oneLine_of_nameFrom? (by decide) named
  dsimp only at read
  split at read
  · obtain ⟨⟨list, behind⟩, -, read⟩ := Option.bind_eq_some_iff.mp read
    obtain ⟨typeName, typed, same⟩ := Option.bind_eq_some_iff.mp read
    cases same
    exact ⟨noBreak, oneLine_of_returnType? typed⟩
  · obtain ⟨typeName, typed, same⟩ := Option.bind_eq_some_iff.mp read
    cases same
    exact ⟨noBreak, oneLine_of_returnType? typed⟩

end Heading

/-- The name and the return type of a member are on one line. -/
theorem Signature.oneLine_of_read?
    {code : Text}
    {signature : Signature}
    (read : Signature.read? code = some signature) :
    '\n' ∉ signature.heading.name ∧
      ∀ typeName ∈ signature.heading.returnType, '\n' ∉ typeName := by
  obtain ⟨kind, -, read⟩ := Option.bind_eq_some_iff.mp read
  obtain ⟨⟨accessor, heading⟩, accessed, read⟩ := Option.bind_eq_some_iff.mp read
  obtain ⟨_, _, readsOn⟩ := Phrase.exists_readOn_of_optionally accessed
  obtain ⟨written, isHeading, same⟩ := Option.map_eq_some_iff.mp readsOn
  cases same
  have oneLine := Heading.oneLine_of_read? isHeading
  dsimp only at read
  split at read
  · cases read
    exact oneLine
  · cases read
    exact oneLine
  · cases read

/-! ## Lines -/

namespace Line

/-- A line holds its code and its comment. -/
theorem mem_of_mem_splitComment
    {c : Char}
    {text : Text} :
    (c ∈ (splitComment text).1 → c ∈ text) ∧
      ∀ comment ∈ (splitComment text).2, c ∈ comment → c ∈ text := by
  unfold splitComment
  split
  · simp
  · next code comment cut =>
      rw [← append_of_cutComment cut]
      refine ⟨?_, ?_⟩
      · intro inCode
        exact List.mem_append_left _ (Text.mem_of_mem_trimEnd inCode)
      · intro found isComment inComment
        cases isComment
        exact List.mem_append_right _ inComment

/-- The code of a line stands on one line if the line does. -/
theorem oneLine_code
    {line : Line}
    (oneLine : '\n' ∉ line.text) :
    '\n' ∉ line.code :=
  fun member => oneLine (mem_of_mem_splitComment.1 (Text.mem_of_mem_trim member))

end Line

end ClassicBasic
