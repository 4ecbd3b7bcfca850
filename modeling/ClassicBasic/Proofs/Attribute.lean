import ClassicBasic.Attribute
import ClassicBasic.Node.Equality
import ClassicBasic.Proofs.Phrase
import ClassicBasic.Proofs.Text.Blank
import ClassicBasic.Proofs.Text.Quoted

namespace ClassicBasic.Attribute

/-!
# Attribute lines survive

Reading is more lenient than writing: it takes any blanks, and literals that are
not closed or whose quotes are not doubled.  What it gives is always something
that a line can state, and whatever a line can state is read from the line that
states it.
-/

/-! ## What a line can state -/

/-- Whether a text is the name of an attribute: its prelude, and then at least
one word character. -/
def IsAttributeName (name : Text) : Prop :=
  ∃ word,
    word ≠ [] ∧ (∀ c ∈ word, Text.isWordChar c = true) ∧ name = namePrelude ++ word

/-- What a line can state of an attribute.  Its member is a name, and its value
stands on one line; a value that is no literal neither opens with a quote nor
has blanks around it. -/
structure IsStatable (stated : Attribute) : Prop where
  member : ∀ member ∈ stated.member, Phrase.IsName member
  name : IsAttributeName stated.name
  oneLine : '\n' ∉ stated.value
  bare :
    stated.quoted = false →
      Text.trim stated.value = stated.value ∧
        stated.value.head? ≠ some Text.stringDelimiter

/-! ## Names -/

/-- The name of an attribute is taken as far as word characters go, and then it must
be one. -/
theorem name?_eq_some_iff
    {text name rest : Text} :
    name? text = some (name, rest) ↔
      text = name ++ rest ∧
        IsAttributeName name ∧
        ∀ c ∈ rest.head?, Text.isWordChar c = false := by
  constructor
  · intro read
    obtain ⟨behind, opens, named⟩ := Option.bind_eq_some_iff.mp read
    obtain ⟨whole, isRun, stops⟩ :=
      span_eq_iff.mp
        (⟨rfl, rfl⟩ :
          behind.takeWhile Text.isWordChar = _ ∧
            behind.dropWhile Text.isWordChar = _)
    split at named
    · cases named
    · next nonEmpty =>
        cases named
        refine ⟨?_, ⟨_, ?_, isRun, rfl⟩, stops⟩
        · rw [Text.after?_eq_some_iff.mp opens, List.append_assoc, ← whole]
        · exact nonEmpty
  · rintro ⟨rfl, ⟨word, nonEmpty, isRun, rfl⟩, stops⟩
    obtain ⟨run, others⟩ := span_eq_iff.mpr ⟨rfl, isRun, stops⟩
    have opens :
        Text.after? namePrelude (namePrelude ++ word ++ rest) = some (word ++ rest) :=
      Text.after?_eq_some_iff.mpr (List.append_assoc _ _ _)
    unfold name?
    simp only [opens, Option.bind_eq_bind, Option.bind_some, run, others]

/-! ## Writing and reading -/

/-- The value as it is written. -/
def writtenValue (stated : Attribute) : Text :=
  if stated.quoted then Text.quote stated.value else stated.value

/-- The name as it is written, behind the member that it belongs to. -/
def qualifiedName (stated : Attribute) : Text :=
  stated.member.elim stated.name fun member => member ++ '.' :: stated.name

/-- The line that states an attribute, cut into its parts. -/
theorem source_eq
    (stated : Attribute) :
    stated.source =
      ("Attribute" : Text) ++
        ' ' :: (stated.qualifiedName ++ ' ' :: '=' :: ' ' :: stated.writtenValue) := by
  rcases stated with ⟨member, name, value, quoted⟩
  cases member <;>
    simp [source, qualifiedName, writtenValue, Text.concat]

namespace IsStatable

variable {stated : Attribute}

/-- A written value has no blanks at its ends. -/
theorem trim_writtenValue
    (statable : stated.IsStatable) :
    Text.trim stated.writtenValue = stated.writtenValue := by
  unfold writtenValue
  split
  · exact Text.trim_quote stated.value
  · next bare =>
      exact (statable.bare (by simpa using bare)).1

/-- A written value stays on its line. -/
theorem lineFeed_not_mem_writtenValue
    (statable : stated.IsStatable) :
    '\n' ∉ stated.writtenValue := by
  unfold writtenValue
  split
  · intro member
    rcases Text.mem_quote member with isDelimiter | inValue
    · exact absurd isDelimiter (by decide)
    · exact statable.oneLine inValue
  · exact statable.oneLine

/-- A written value is read back, and with it whether it was quoted. -/
theorem unquote_writtenValue
    (statable : stated.IsStatable) :
    Text.unquote stated.writtenValue = (stated.value, stated.quoted) := by
  unfold writtenValue
  split
  · next quoted =>
      rw [Text.unquote_quote, quoted]
  · next bare =>
      replace bare : stated.quoted = false := by
        simpa using bare
      rw [Text.unquote_of_bare (statable.bare bare).2, bare]

end IsStatable

/-- What names an attribute begins with a character that is seen. -/
theorem qualifiedName_visible
    {stated : Attribute}
    (statable : stated.IsStatable) :
    ∃ c rest, stated.qualifiedName = c :: rest ∧ Text.isBlank c = false := by
  unfold qualifiedName
  cases belongs : stated.member with
  | none =>
      obtain ⟨word, -, -, named⟩ := statable.name
      exact ⟨'V', _, named, by decide⟩
  | some member =>
      have isName := statable.member member belongs
      cases member with
      | nil =>
          exact isName.elim
      | cons c rest =>
          exact
            ⟨c, rest ++ '.' :: stated.name, rfl,
              Phrase.isBlank_of_isNameChar
                (isName.isNameChar_of_mem c List.mem_cons_self)⟩

/-- The name of an attribute has word characters only. -/
theorem isWordChar_of_mem_name
    {name : Text}
    (isName : IsAttributeName name) :
    ∀ c ∈ name, Text.isWordChar c = true := by
  obtain ⟨word, -, isRun, rfl⟩ := isName
  have prelude : namePrelude.all Text.isWordChar = true := by
    decide +kernel
  intro c member
  rcases List.mem_append.mp member with inPrelude | inWord
  · exact List.all_eq_true.mp prelude c inPrelude
  · exact isRun c inWord

/-- A name is no member, because a blank follows it and no dot. -/
theorem member?_of_name
    {name : Text}
    (isName : IsAttributeName name)
    (rest : Text) :
    member? (name ++ ' ' :: rest) = none := by
  cases read : member? (name ++ ' ' :: rest) with
  | none =>
      rfl
  | some pair =>
      obtain ⟨⟨member, dotted⟩, named, follows⟩ := Option.bind_eq_some_iff.mp read
      obtain ⟨behind, dot, -⟩ := Option.bind_eq_some_iff.mp follows
      obtain ⟨whole, isMember, -⟩ := Phrase.nameFrom?_eq_some_iff.mp named
      have dotted := Text.after?_eq_some_iff.mp dot
      subst dotted
      -- Neither a name nor a member has a dot or a space in it.
      let inFront (c : Char) : Bool := c ≠ '.' && c ≠ ' '
      have inFront_of {inClass : Char → Bool} {c : Char}
          (noDot : inClass '.' = false)
          (noSpace : inClass ' ' = false)
          (isIn : inClass c = true) :
          inFront c = true := by
        have isNoDot : c ≠ '.' := by
          rintro rfl
          simp [noDot] at isIn
        have isNoSpace : c ≠ ' ' := by
          rintro rfl
          simp [noSpace] at isIn
        simp [inFront, isNoDot, isNoSpace]
      have same :=
        Text.tail_eq_of_append_eq whole
          (fun c inName =>
            inFront_of (by decide +kernel) (by decide +kernel)
              (isWordChar_of_mem_name isName c inName))
          (fun c inMember =>
            inFront_of (by decide) (by decide)
              (Phrase.IsName.isNameChar_of_mem isMember c inMember))
          (by simp [inFront])
          (by simp [inFront])
      cases same

/-- The parts of a line that states an attribute. -/
theorem trim_source
    (stated : Attribute) :
    Text.trim stated.source =
      ("Attribute" : Text) ++
        ' ' :: (stated.qualifiedName ++
          ' ' :: '=' :: Text.trimEnd (' ' :: stated.writtenValue)) := by
  have visible : Text.isBlank '=' = false := by
    decide
  have ends :=
    Text.trimEnd_append_cons visible
      (("Attribute" : Text) ++ ' ' :: (stated.qualifiedName ++ [' ']))
      (' ' :: stated.writtenValue)
  have starts :
      Text.trimStart stated.source = stated.source := by
    rw [source_eq]
    exact Text.trimStart_cons_visible (by decide) _
  rw [Text.trim, starts, source_eq]
  simpa using ends

/-- A name in front of a dot is read as the member that the attribute belongs to. -/
theorem member?_of_qualified
    {member : Text}
    (isName : Phrase.IsName member)
    (rest : Text) :
    member? (member ++ '.' :: rest) = some (member, rest) := by
  have named :
      Phrase.name? (member ++ '.' :: rest) = some (member, '.' :: rest) :=
    Phrase.nameFrom?_eq_some_iff.mpr
      ⟨rfl, isName, fun c opens => by cases opens; decide⟩
  have dot : Text.after? "." ('.' :: rest) = some rest :=
    Text.after?_eq_some_iff.mpr rfl
  simp only [member?, named, dot, Option.bind_eq_bind, Option.bind_some]

/-- What a line can state is read from the line that states it. -/
theorem read?_source
    {stated : Attribute}
    (statable : stated.IsStatable) :
    read? stated.source = some stated := by
  obtain ⟨c, behind, qualified, visible⟩ := qualifiedName_visible statable
  have opens := Text.after?_eq_some_iff.mpr stated.trim_source
  -- The parts are read one behind the other, each up to the character that ends it.
  have blanks (rest : Text) :
      Text.afterBlanks? (' ' :: (stated.qualifiedName ++ rest)) =
        some (stated.qualifiedName ++ rest) := by
    rw [qualified]
    exact congrArg some (Text.trimStart_cons_visible visible _)
  have named (rest : Text) :
      name? (stated.name ++ ' ' :: rest) = some (stated.name, ' ' :: rest) :=
    name?_eq_some_iff.mpr
      ⟨rfl, statable.name, fun c opens => by cases opens; decide +kernel⟩
  have equals (rest : Text) :
      Text.after? "=" (Text.trimStart (' ' :: '=' :: rest)) = some rest :=
    Text.after?_eq_some_iff.mpr rfl
  have raw :
      Text.trim (Text.trimEnd (' ' :: stated.writtenValue)) = stated.writtenValue := by
    rw [Text.trim_trimEnd, Text.trim_cons_blank (by decide), statable.trim_writtenValue]
  have oneLine : stated.writtenValue.contains '\n' = false := by
    simpa using statable.lineFeed_not_mem_writtenValue
  unfold read?
  simp only [opens, blanks, Option.bind_eq_bind, Option.bind_some]
  cases belongs : stated.member with
  | none =>
      have unqualified : stated.qualifiedName = stated.name := by
        simp [qualifiedName, belongs]
      simp only [unqualified, member?_of_name statable.name, named, equals, raw,
        oneLine, statable.unquote_writtenValue, Option.bind_some, Bool.false_eq_true,
        if_false]
      rw [← belongs]
  | some member =>
      have qualified : stated.qualifiedName = member ++ '.' :: stated.name := by
        simp [qualifiedName, belongs]
      simp only [qualified, List.append_assoc, List.cons_append,
        member?_of_qualified (statable.member member belongs), named, equals, raw,
        oneLine, statable.unquote_writtenValue, Option.bind_some, Bool.false_eq_true,
        if_false]
      rw [← belongs]

/-- Only a name is read as the member that an attribute belongs to. -/
theorem isName_of_member?
    {text member rest : Text}
    (read : member? text = some (member, rest)) :
    Phrase.IsName member := by
  obtain ⟨⟨first, dotted⟩, named, follows⟩ := Option.bind_eq_some_iff.mp read
  obtain ⟨behind, -, same⟩ := Option.bind_eq_some_iff.mp follows
  cases same
  exact (Phrase.nameFrom?_eq_some_iff.mp named).2.1

/-- A value that is read from one line can be stated on one line. -/
theorem value_of_unquote
    {raw value : Text}
    {quoted : Bool}
    (trimmed : Text.trim raw = raw)
    (oneLine : '\n' ∉ raw)
    (read : Text.unquote raw = (value, quoted)) :
    '\n' ∉ value ∧
      (quoted = false →
        Text.trim value = value ∧ value.head? ≠ some Text.stringDelimiter) := by
  refine ⟨fun member => oneLine ?_, ?_⟩
  · apply Text.mem_of_mem_unquote
    rwa [read]
  · rintro rfl
    by_cases bare : raw.head? = some Text.stringDelimiter
    · cases raw with
      | nil =>
          simp at bare
      | cons c rest =>
          cases bare
          rw [Text.unquote_cons] at read
          cases read
    · rw [Text.unquote_of_bare bare] at read
      cases read
      exact ⟨trimmed, bare⟩

/-- An attribute put together of parts that were read can be stated on a line. -/
theorem isStatable_of_parts
    {member : Option Text}
    {text name rest written : Text}
    (belongs : ∀ qualifier ∈ member, Phrase.IsName qualifier)
    (named : name? text = some (name, rest))
    (oneLine : ¬ (Text.trim written).contains '\n' = true) :
    IsStatable
      ⟨member, name, (Text.unquote (Text.trim written)).1,
        (Text.unquote (Text.trim written)).2⟩ := by
  obtain ⟨inValue, bare⟩ :=
    value_of_unquote (Text.trim_trim written) (by simpa using oneLine) rfl
  exact ⟨belongs, (name?_eq_some_iff.mp named).2.1, inValue, bare⟩

/-- What is read from a line can be stated. -/
theorem isStatable_of_read?
    {text : Text}
    {stated : Attribute}
    (read : read? text = some stated) :
    stated.IsStatable := by
  obtain ⟨opened, -, read⟩ := Option.bind_eq_some_iff.mp read
  obtain ⟨behind, -, read⟩ := Option.bind_eq_some_iff.mp read
  cases found : member? behind with
  | none =>
      rw [found] at read
      obtain ⟨⟨name, rest⟩, named, read⟩ := Option.bind_eq_some_iff.mp read
      obtain ⟨written, -, read⟩ := Option.bind_eq_some_iff.mp read
      dsimp only at read
      split at read
      · cases read
      · next oneLine =>
          cases read
          exact isStatable_of_parts (by simp) named oneLine
  | some pair =>
      rw [found] at read
      obtain ⟨⟨name, rest⟩, named, read⟩ := Option.bind_eq_some_iff.mp read
      obtain ⟨written, -, read⟩ := Option.bind_eq_some_iff.mp read
      dsimp only at read
      split at read
      · cases read
      · next oneLine =>
          cases read
          refine isStatable_of_parts ?_ named oneLine
          intro qualifier same
          cases same
          exact isName_of_member? found

/-! ## Nodes -/

/-- The node of an attribute stands for it. -/
theorem ofNode?_node
    (stated : Attribute)
    (line : Nat) :
    ofNode? (stated.node line) = some stated := by
  rcases stated with ⟨member, name, value, quoted⟩
  cases member <;>
    rfl

/-- The node of an attribute is written as the line that states the attribute. -/
theorem nodeSource?_node
    (stated : Attribute)
    (line : Nat) :
    nodeSource? (stated.node line) = some stated.source := by
  rw [nodeSource?, ofNode?_node, Option.map_some]

/-- An attribute line survives: written again from its node, it is read as an
equal node, which is written in the same way. -/
theorem readNode?_nodeSource?
    {text : Text}
    {line : Nat}
    {node : Node}
    (read : readNode? text line = some node) :
    ∃ source,
      nodeSource? node = some source ∧ readNode? source line = some node := by
  obtain ⟨stated, states, rfl⟩ := Option.map_eq_some_iff.mp read
  refine ⟨stated.source, stated.nodeSource?_node line, ?_⟩
  rw [readNode?, read?_source (isStatable_of_read? states), Option.map_some]

/-- The value of a member's attribute, in a literal that is not closed and in
which three quotes stand in a row. -/
theorem readNode?_nodeSource?_unclosed :
    let text : Text := "\tAttribute\t Item.VB_Größe =\" a\"\"\"b "
    let node : Node :=
      ⟨"VB_Größe", 20, .attributeLine " a\"\"b" true,
        [.leaf .memberReference "Item" 20]⟩
    readNode? text 20 = some node ∧
      ∃ source, nodeSource? node = some source ∧ readNode? source 20 = some node := by
  intro text node
  have read : readNode? text 20 = some node := by
    decide +kernel
  exact ⟨read, readNode?_nodeSource? read⟩

end ClassicBasic.Attribute
