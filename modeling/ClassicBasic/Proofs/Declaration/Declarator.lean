import ClassicBasic.Keyword.Reserved
import ClassicBasic.Declaration.Declarator
import ClassicBasic.Proofs.Line.Instruction
import ClassicBasic.Proofs.Line.Passing
import ClassicBasic.Proofs.Parameter.Rendering

namespace ClassicBasic

/-!
# Declarators written out and read back

Whatever is optional behind the name of a declarator opens in a way of its own, so only
the two keywords compete with names.  Where `WithEvents` or `New` is itself a name, what
stands behind it is no name and no type, and it is read as what it is.
-/

namespace Declarator

/-- The type of a variable as it is declared. -/
structure Typing where
  isNew : Bool
  typeName : Text
  /-- The length of a string of fixed length. -/
  length : Option Text
  deriving Repr, DecidableEq

/-- The parts that a declarator is written from. -/
structure Parts where
  withEvents : Bool
  name : Text
  /-- The text between the parentheses of array bounds. -/
  dimensions : Option Text
  typing : Option Typing
  value : Option Text
  deriving Repr, DecidableEq

namespace Typing

/-- The length behind a type. -/
def writtenLength (typing : Typing) : Text :=
  typing.length.elim [] fun length => " * " ++ length

/-- A type with its length. -/
def sized (typing : Typing) : Text :=
  typing.typeName ++ typing.writtenLength

/-- A type as it is written behind `As`. -/
def written (typing : Typing) : Text :=
  Phrase.writtenKeyword (Parameter.flagged "New" typing.isNew) ++ typing.sized

end Typing

namespace Parts

/-- What the parts of a declarator are like that can be written. -/
structure IsWritable (parts : Parts) : Prop where
  isName : Phrase.IsSuffixedName parts.name
  notKeyword : parts.name ∉ declarationWords
  isBounds :
    ∀ dimensions ∈ parts.dimensions,
      ∀ c ∈ dimensions, c ∉ ['(', ')', '"', '#', ':', '\'', '\n']
  isType : ∀ typing ∈ parts.typing, Phrase.IsTypeName typing.typeName
  isLength :
    ∀ typing ∈ parts.typing, ∀ length ∈ typing.length,
      length ≠ [] ∧ ∀ c ∈ length, Phrase.isNameChar c = true
  /-- A value is balanced, and nothing in it that stands outside parentheses and string
  literals separates declarators. -/
  isValue : ∀ value ∈ parts.value, Phrase.IsValue value ∧ Text.IsPart ',' value
  /-- Outside its string literals a value has nothing that ends an instruction or could
  open a date. -/
  isQuiet :
    ∀ value ∈ parts.value,
      ∀ c ∈ Text.Nesting.top.bare value, c ∉ ['#', ':', '\'']

/-- Array bounds with their parentheses. -/
def bounds (parts : Parts) : Option Text :=
  parts.dimensions.map fun dimensions => Text.concat ["(", dimensions, ")"]

/-- The declarator that is written. -/
def declarator (parts : Parts) : Declarator :=
  ⟨parts.withEvents, parts.name, parts.bounds, parts.typing.any Typing.isNew,
    parts.typing.map Typing.sized, parts.value⟩

/-- What is written behind the bounds of a declarator. -/
def ending (parts : Parts) : Text :=
  (parts.typing.elim [] fun typing => (" As " : Text) ++ typing.written) ++
    Phrase.writtenValue parts.value

/-- A declarator from its name on. -/
def declared (parts : Parts) : Text :=
  parts.name ++ (parts.bounds.getD [] ++ parts.ending)

/-- A declarator as it is written. -/
def written (parts : Parts) : Text :=
  Phrase.writtenKeyword (Parameter.flagged "WithEvents" parts.withEvents) ++ parts.declared

/-- The node of a declarator with all that is below it: its identifier, below that its
bounds and its type, and the type stands below `New` if that is written. -/
def tree
    (parts : Parts)
    (modifier : Option AccessModifier)
    (keyword : DeclarationKeyword)
    (line : Nat) :
    Node :=
  let bounds : List Node :=
    match parts.dimensions with
    | some dimensions => [⟨'(' :: (dimensions ++ [')']), line, .arraySpec, []⟩]
    | none => []
  let types : List Node :=
    match parts.typing with
    | some typing =>
        let reference : Node := ⟨typing.sized, line, .typeReference, []⟩
        if typing.isNew then [⟨"New", line, .initializer, [reference]⟩] else [reference]
    | none => []
  ⟨parts.name, line,
    .declaration modifier keyword parts.value parts.withEvents none,
    [⟨parts.name, line, .identifier, bounds ++ types⟩]⟩

end Parts

/-! ## Types -/

/-- A character of a name is one of a word. -/
theorem isWordChar_of_isNameChar
    {c : Char}
    (continues : Phrase.isNameChar c = true) :
    Text.isWordChar c = true := by
  refine
    Text.forall_ascii
      (motive := fun c => Phrase.isNameChar c = true → Text.isWordChar c = true)
      ?_ (Phrase.toNat_of_isNameChar continues).2 continues
  decide +kernel

/-- What opens a value goes on neither with a type nor with its length. -/
theorem head?_writtenValue
    (value : Option Text) :
    ∀ c ∈ (Phrase.writtenValue value).head?, c = ' ' := by
  cases value with
  | none =>
      rintro c ⟨⟩
  | some value =>
      rintro c ⟨⟩
      rfl

/-- What follows the name of a type begins with a space. -/
theorem head?_writtenLength
    (typing : Typing)
    (value : Option Text) :
    ∀ c ∈ (typing.writtenLength ++ Phrase.writtenValue value).head?, c = ' ' := by
  rw [Typing.writtenLength]
  cases typing.length with
  | none =>
      exact head?_writtenValue value
  | some length =>
      rintro c ⟨⟩
      rfl

/-- The length of a string type is read back, and the value is left. -/
theorem length?_written
    {length : Text}
    (isLength : length ≠ [] ∧ ∀ c ∈ length, Phrase.isNameChar c = true)
    (value : Option Text) :
    length? (" * " ++ (length ++ Phrase.writtenValue value)) =
      (some length, Phrase.writtenValue value) := by
  obtain ⟨isVisible, isWord⟩ := isLength
  have opens :
      Text.trimStart (" * " ++ (length ++ Phrase.writtenValue value)) =
        '*' :: ' ' :: (length ++ Phrase.writtenValue value) :=
    rfl
  have asterisk :
      Text.after? "*" ('*' :: ' ' :: (length ++ Phrase.writtenValue value)) =
        some (' ' :: (length ++ Phrase.writtenValue value)) :=
    rfl
  have isTrimmed : length.IsTrimmed :=
    Text.isTrimmed_of_visible isVisible fun c member =>
      Phrase.isBlank_of_isNameChar (isWord c member)
  have starts :
      Text.trimStart (' ' :: (length ++ Phrase.writtenValue value)) =
        length ++ Phrase.writtenValue value :=
    isTrimmed.trimStart_append _
  have stops :
      ∀ c ∈ (Phrase.writtenValue value).head?, Text.isWordChar c = false := by
    intro c opens
    rw [head?_writtenValue value c opens]
    decide
  obtain ⟨run, behind⟩ :=
    span_eq_iff.mpr
      ⟨rfl, fun c member => isWordChar_of_isNameChar (isWord c member), stops⟩
  simp only [length?, opens, asterisk, starts, run, behind]

/-- No length is read where none is written. -/
theorem length?_writtenValue
    (value : Option Text) :
    length? (Phrase.writtenValue value) = (none, Phrase.writtenValue value) := by
  cases value <;>
    rfl

/-- Neither what gives a length nor what gives a value is a type. -/
theorem typeName?_behind
    (typing : Typing)
    (value : Option Text) :
    Phrase.typeName? (Text.trimStart (typing.writtenLength ++ Phrase.writtenValue value)) =
      none := by
  rw [Typing.writtenLength]
  cases typing.length with
  | some length =>
      rfl
  | none =>
      cases value <;>
        rfl

section Typed

variable
  {typing : Typing}
  (isType : Phrase.IsTypeName typing.typeName)
  (isLength :
    ∀ length ∈ typing.length, length ≠ [] ∧ ∀ c ∈ length, Phrase.isNameChar c = true)
include isType

include isLength in
/-- A type is read back with its length, and the value is left. -/
theorem sizedType?_written
    (value : Option Text) :
    sizedType? (typing.sized ++ Phrase.writtenValue value) =
      some (typing.sized, Phrase.writtenValue value) := by
  have stops :
      ∀ c ∈ (typing.writtenLength ++ Phrase.writtenValue value).head?,
        Phrase.isNameChar c = false ∧ c ≠ '.' := by
    intro c opens
    rw [head?_writtenLength typing value c opens]
    decide
  have named := Phrase.typeName?_append isType stops
  rw [Typing.sized, List.append_assoc, sizedType?, named, Option.bind_eq_bind,
    Option.bind_some]
  rw [Typing.writtenLength]
  cases given : typing.length with
  | none =>
      dsimp only [Option.elim_none, List.nil_append]
      rw [length?_writtenValue, List.append_nil]
  | some length =>
      dsimp only [Option.elim_some]
      rw [List.append_assoc, length?_written (isLength length given)]
      simp [Text.concat]

/-- Behind a type that is spelled `New` stands no type, so it is not read as the
keyword. -/
theorem sizedType?_behind_new
    {value : Option Text}
    {found : Unit}
    {rest : Text}
    (keyword :
      Phrase.keyword? (Phrase.word? "New") (typing.sized ++ Phrase.writtenValue value) =
        some (found, rest)) :
    sizedType? rest = none := by
  have noType := typeName?_behind typing value
  rw [Typing.sized, List.append_assoc] at keyword
  cases shape : typing.writtenLength ++ Phrase.writtenValue value with
  | nil =>
      rw [shape, List.append_nil, Phrase.keyword?_of_nothing _ isType.isWord.2] at keyword
      cases keyword
  | cons c others =>
      have isSpace : c = ' ' :=
        head?_writtenLength typing value c (by rw [shape]; rfl)
      rw [shape, isSpace] at noType keyword
      change Phrase.typeName? (Text.trimStart others) = none at noType
      rw [Phrase.keyword?_append_blank _ isType.isWord.2] at keyword
      obtain ⟨_, _, same⟩ := Option.map_eq_some_iff.mp keyword
      cases same
      rw [sizedType?, noType]
      rfl

include isLength in
/-- A type with its length has no blanks at its ends. -/
theorem isTrimmed_sized :
    typing.sized.IsTrimmed := by
  rw [Typing.sized, Typing.writtenLength]
  cases given : typing.length with
  | none =>
      rw [Option.elim_none, List.append_nil]
      exact isType.isTrimmed
  | some length =>
      obtain ⟨isVisible, isWord⟩ := isLength length given
      exact
        isType.isTrimmed.append " * "
          (Text.isTrimmed_of_visible isVisible fun c member =>
            Phrase.isBlank_of_isNameChar (isWord c member))

include isLength in
/-- A type has no blanks at its ends, with `New` in front of it or not. -/
theorem isTrimmed_typing :
    typing.written.IsTrimmed :=
  Phrase.isTrimmed_writtenKeyword (Parameter.areWords_flagged _ (by decide))
    (isTrimmed_sized isType isLength)

include isLength in
/-- The type of a variable is read in full, with its value behind it. -/
theorem readTyped?_written
    {value : Option Text}
    (areValues : ∀ text ∈ value, Phrase.IsValue text) :
    readTyped? ((" As " : Text) ++ (typing.written ++ Phrase.writtenValue value)) =
      some (typing.isNew, some typing.sized, value) := by
  have reads (isNew : Option Unit) :
      ((sizedType? (typing.sized ++ Phrase.writtenValue value)).bind fun sized =>
          (Phrase.finalValue? sized.2).bind fun value =>
            some (isNew.isSome, some sized.1, value)) =
        some (isNew.isSome, some typing.sized, value) := by
    simp only [sizedType?_written isType isLength, Phrase.finalValue?_written areValues,
      Option.bind_some]
  have isTrimmed := isTrimmed_sized isType isLength
  rw [readTyped?, Phrase.afterAs?_written (isTrimmed_typing isType isLength)]
  dsimp only
  rw [Typing.written, List.append_assoc]
  cases typing.isNew with
  | true =>
      have keyword :
          Phrase.keyword? (Phrase.word? "New")
              (Phrase.writtenKeyword (some "New") ++
                (typing.sized ++ Phrase.writtenValue value)) =
            some ((), typing.sized ++ Phrase.writtenValue value) :=
        Phrase.keyword?_written (by decide) _ (isTrimmed.trimStart_append _)
      exact Phrase.optionally_of_keyword keyword (reads (some ()))
  | false =>
      refine (Phrase.optionally_of_fails fun found rest keyword => ?_).trans (reads none)
      rw [sizedType?_behind_new isType keyword]
      rfl

/-- A type opens with a character of a name. -/
theorem after?_of_type
    {c : Char}
    (stops : Phrase.isNameChar c = false)
    (noDot : c ≠ '.')
    (rest : Text) :
    Text.after? [c] (Text.trimStart (' ' :: (typing.written ++ rest))) = none := by
  have opening : ∃ d behind, typing.written = d :: behind ∧ c ≠ d ∧ Text.isBlank d = false := by
    rw [Typing.written, Typing.sized]
    cases typing.isNew with
    | true =>
        refine ⟨'N', _, rfl, ?_, by decide⟩
        rintro rfl
        revert stops
        decide
    | false =>
        obtain ⟨d, behind, shape⟩ := List.exists_cons_of_ne_nil isType.isWord.1
        have isFirst : d ∈ typing.typeName := by
          rw [shape]
          exact List.mem_cons_self
        refine ⟨d, behind ++ typing.writtenLength, ?_, ?_, ?_⟩
        · rw [shape]
          rfl
        · rintro rfl
          exact isType.not_mem stops noDot isFirst
        · exact isType.isWord.isBlank_eq_false d isFirst
  obtain ⟨d, behind, shape, different, isVisible⟩ := opening
  have starts : Text.trimStart (' ' :: (d :: behind ++ rest)) = d :: (behind ++ rest) :=
    Text.trimStart_cons_visible isVisible _
  rw [shape, starts]
  exact if_neg different

/-- A type is not itself `As` with another type behind it. -/
theorem readTyped?_of_type
    (value : Option Text) :
    readTyped? (' ' :: (typing.written ++ Phrase.writtenValue value)) = none := by
  by_cases isAs : typing.isNew = false ∧ typing.typeName = "As"
  · -- A length or a value stands behind the type, and neither is a type.
    rw [Typing.written, Typing.sized, Typing.writtenLength, isAs.1, isAs.2]
    cases typing.length with
    | some length =>
        rfl
    | none =>
        cases value <;>
          rfl
  · have noType :
        Phrase.afterAs? (' ' :: (typing.written ++ Phrase.writtenValue value)) = none := by
      rw [Typing.written]
      cases isNew : typing.isNew with
      | true =>
          have stops : ∀ c ∈ (' ' :: (typing.sized ++ Phrase.writtenValue value)).head?,
              Text.isBlank c = true := by
            rintro c ⟨⟩
            decide
          change
            Phrase.afterAs?
                (' ' :: (("New" : Text) ++ ' ' :: (typing.sized ++ Phrase.writtenValue value))) =
              none
          exact Phrase.afterAs?_of_word (by decide) (by decide) stops
      | false =>
          have stops : ∀ c ∈ (typing.writtenLength ++ Phrase.writtenValue value).head?,
              Text.isBlank c = true := by
            intro c opens
            rw [head?_writtenLength typing value c opens]
            decide
          change Phrase.afterAs? (' ' :: (typing.sized ++ Phrase.writtenValue value)) = none
          rw [Typing.sized, List.append_assoc]
          exact
            Phrase.afterAs?_of_word isType.isWord (fun named => isAs ⟨isNew, named⟩) stops
    have noValue :
        Text.after? "="
            (Text.trimStart (' ' :: (typing.written ++ Phrase.writtenValue value))) =
          none :=
      after?_of_type isType (by decide) (by decide) _
    rw [readTyped?, noType]
    dsimp only
    rw [Phrase.finalValue?, noValue]
    rfl

end Typed

/-! ## Names -/

section Written

variable
  {parts : Parts}
  (isWritable : parts.IsWritable)
include isWritable

omit isWritable in
/-- What follows the name and the bounds begins with a space. -/
theorem head?_ending
    (parts : Parts) :
    ∀ c ∈ parts.ending.head?, c = ' ' := by
  rw [Parts.ending]
  cases parts.typing with
  | some typing =>
      rintro c ⟨⟩
      rfl
  | none =>
      exact head?_writtenValue parts.value

omit isWritable in
/-- What follows the name begins with a parenthesis or a space. -/
theorem head?_bounds_ending
    (parts : Parts) :
    ∀ c ∈ (parts.bounds.getD [] ++ parts.ending).head?, c = '(' ∨ c = ' ' := by
  rw [Parts.bounds]
  cases parts.dimensions with
  | some dimensions =>
      rintro c ⟨⟩
      exact .inl rfl
  | none =>
      exact fun c opens => .inr (head?_ending parts c opens)

/-- The bounds of an array are read back if they are written. -/
theorem bounds?_written :
    bounds? (parts.bounds.getD [] ++ parts.ending) = (parts.bounds, parts.ending) := by
  rw [Parts.bounds]
  cases given : parts.dimensions with
  | some dimensions =>
      have whole :
          Text.concat ["(", dimensions, ")"] ++ parts.ending =
            '(' :: (dimensions ++ ')' :: parts.ending) := by
        simp [Text.concat]
      have opens :
          Text.after? "(" (Text.trimStart ('(' :: (dimensions ++ ')' :: parts.ending))) =
            some (dimensions ++ ')' :: parts.ending) :=
        rfl
      have noClosing : ')' ∉ dimensions := fun member =>
        isWritable.isBounds dimensions given ')' member (by decide)
      obtain ⟨run, behind⟩ := Text.span_of_not_mem noClosing parts.ending
      rw [Option.map_some, Option.getD_some, whole]
      simp only [bounds?, opens, run, behind]
  | none =>
      have noBounds : Text.after? "(" (Text.trimStart parts.ending) = none := by
        rw [Parts.ending]
        cases parts.typing with
        | some typing =>
            rfl
        | none =>
            cases parts.value <;>
              rfl
      rw [Option.map_none, Option.getD_none, List.nil_append, bounds?, noBounds]

/-- The type and the value are read back from what follows the name. -/
theorem readTyped?_ending :
    readTyped? parts.ending =
      some (parts.typing.any Typing.isNew, parts.typing.map Typing.sized, parts.value) := by
  have areValues : ∀ value ∈ parts.value, Phrase.IsValue value :=
    fun value given => (isWritable.isValue value given).1
  rw [Parts.ending]
  cases given : parts.typing with
  | some typing =>
      rw [Option.elim_some, List.append_assoc,
        readTyped?_written (isWritable.isType typing given) (isWritable.isLength typing given)
          areValues]
      rfl
  | none =>
      have noType : Phrase.afterAs? (Phrase.writtenValue parts.value) = none := by
        cases parts.value <;>
          rfl
      rw [Option.elim_none, List.nil_append, readTyped?, noType]
      dsimp only
      rw [Phrase.finalValue?_written areValues]
      rfl

/-- The name is read back with its suffix, up to the bounds. -/
theorem suffixedName?_declared :
    Phrase.suffixedName? parts.declared =
      some (parts.name, parts.bounds.getD [] ++ parts.ending) := by
  refine Phrase.suffixedName?_append isWritable.isName fun c opens => ?_
  rcases head?_bounds_ending parts c opens with rfl | rfl <;>
    decide

/-- The name of a declarator is a word. -/
theorem isWord_name :
    Phrase.IsWord parts.name := by
  refine ⟨isWritable.isName.ne_nil, ?_⟩
  have suffixes : Phrase.typeSuffixes.all Text.isVisible = true := by
    decide
  refine List.all_eq_true.mpr fun c member => ?_
  rcases isWritable.isName.mem c member with continues | isSuffix
  · simp [Text.isVisible, Phrase.isBlank_of_isNameChar continues]
  · exact List.all_eq_true.mp suffixes c isSuffix

/-- A declarator with its name, its bounds and its type, behind `WithEvents` or not. -/
def readNamed? (withEvents : Option Unit) (text : Text) : Option Declarator := do
  let (name, rest) ← Phrase.suffixedName? text
  let (bounds, rest) := bounds? rest
  let (isNew, typeName, value) ← readTyped? rest
  some ⟨withEvents.isSome, name, bounds, isNew, typeName, value⟩

omit isWritable in
/-- A declarator is read by its name, behind `WithEvents` or not. -/
theorem read?_eq_optionally
    (text : Text) :
    read? text = Phrase.optionally (Phrase.word? "WithEvents") text readNamed? :=
  rfl

/-- What follows the flag is read as the declarator. -/
theorem readNamed?_declared
    (withEvents : Option Unit) :
    readNamed? withEvents parts.declared =
      some { parts.declarator with withEvents := withEvents.isSome } := by
  simp only [readNamed?, suffixedName?_declared isWritable, bounds?_written isWritable,
    readTyped?_ending isWritable, Option.bind_eq_bind, Option.bind_some]
  rfl

/-- `As` is no name in front of a type. -/
theorem readNamed?_as
    {typing : Typing}
    (given : typing ∈ parts.typing)
    (withEvents : Option Unit) :
    readNamed? withEvents
        (("As" : Text) ++ ' ' :: (typing.written ++ Phrase.writtenValue parts.value)) =
      none := by
  have isType := isWritable.isType typing given
  have named :
      Phrase.suffixedName?
          (("As" : Text) ++ ' ' :: (typing.written ++ Phrase.writtenValue parts.value)) =
        some (("As" : Text), ' ' :: (typing.written ++ Phrase.writtenValue parts.value)) := by
    refine Phrase.suffixedName?_append (.inl (by decide)) ?_
    rintro c ⟨⟩
    decide
  have noBounds :
      Text.after? "("
          (Text.trimStart (' ' :: (typing.written ++ Phrase.writtenValue parts.value))) =
        none :=
    after?_of_type isType (by decide) (by decide) _
  simp only [readNamed?, named, bounds?, noBounds, readTyped?_of_type isType,
    Option.bind_eq_bind, Option.bind_some, Option.bind_none]

/-- Behind a name that is spelled `WithEvents` stands no declarator, so it is not read as
the keyword. -/
theorem readNamed?_behind_withEvents
    {found : Unit}
    {rest : Text}
    (keyword :
      Phrase.keyword? (Phrase.word? "WithEvents") parts.declared = some (found, rest))
    (withEvents : Option Unit) :
    readNamed? withEvents rest = none := by
  have isWord := isWord_name isWritable
  cases dimensions : parts.dimensions with
  | some inside =>
      -- The parenthesis belongs to the word, and the keyword has none.
      have attached : '(' ∈ Text.leadingWord parts.declared := by
        rw [Parts.declared, Parts.bounds, dimensions]
        exact Text.mem_leadingWord_append isWord.2 (by decide) _
      have known := Phrase.leadingWord_of_keyword? keyword
      rw [Phrase.word?, Option.ite_none_right_eq_some] at known
      rw [known.1] at attached
      have noParenthesis : '(' ∉ ("WithEvents" : Text) := by
        decide
      exact (noParenthesis attached).elim
  | none =>
      have shape : parts.declared = parts.name ++ parts.ending := by
        rw [Parts.declared, Parts.bounds, dimensions]
        rfl
      rw [shape] at keyword
      cases typed : parts.typing with
      | some typing =>
          have behind :
              parts.ending =
                ' ' :: (("As" : Text) ++
                  ' ' :: (typing.written ++ Phrase.writtenValue parts.value)) := by
            rw [Parts.ending, typed]
            rfl
          rw [behind, Phrase.keyword?_append _ isWord.2 rfl] at keyword
          obtain ⟨_, _, same⟩ := Option.map_eq_some_iff.mp keyword
          cases same
          exact readNamed?_as isWritable typed withEvents
      | none =>
          have behind : parts.ending = Phrase.writtenValue parts.value := by
            rw [Parts.ending, typed]
            rfl
          rw [behind] at keyword
          cases valued : parts.value with
          | some value =>
              have opens :
                  Phrase.writtenValue (some value) = ' ' :: '=' :: ' ' :: value :=
                rfl
              rw [valued, opens, Phrase.keyword?_append _ isWord.2 rfl] at keyword
              obtain ⟨_, _, same⟩ := Option.map_eq_some_iff.mp keyword
              cases same
              rfl
          | none =>
              rw [valued, Phrase.writtenValue, Option.elim_none, List.append_nil,
                Phrase.keyword?_of_nothing _ isWord.2] at keyword
              cases keyword

/-- A declarator that is written is read back. -/
theorem read?_written :
    read? parts.written = some parts.declarator := by
  have starts : Text.trimStart parts.declared = parts.declared :=
    (isWord_name isWritable).trimStart_append _
  rw [read?_eq_optionally, Parts.written]
  cases given : parts.withEvents with
  | true =>
      have keyword :
          Phrase.keyword? (Phrase.word? "WithEvents")
              (Phrase.writtenKeyword (some "WithEvents") ++ parts.declared) =
            some ((), parts.declared) :=
        Phrase.keyword?_written (by decide) _ starts
      refine (Phrase.optionally_of_keyword keyword (readNamed?_declared isWritable _)).trans ?_
      rw [Parts.declarator, given]
      rfl
  | false =>
      have notKeyword :
          Phrase.optionally (Phrase.word? "WithEvents") parts.declared readNamed? =
            readNamed? none parts.declared :=
        Phrase.optionally_of_fails fun found rest keyword =>
          readNamed?_behind_withEvents isWritable keyword _
      refine notKeyword.trans ((readNamed?_declared isWritable none).trans ?_)
      rw [Parts.declarator, given]
      rfl

/-- The node of a declarator is the tree that its parts say. -/
theorem node_eq_tree
    (modifier : Option AccessModifier)
    (keyword : DeclarationKeyword)
    (line : Nat) :
    parts.declarator.node modifier keyword line = parts.tree modifier keyword line := by
  have typeStays :
      (parts.typing.map Typing.sized).filter (fun typeName => !typeName.isEmpty) =
        parts.typing.map Typing.sized := by
    refine Text.filter_of_isTrimmed fun sized isSized => ?_
    obtain ⟨typing, given, rfl⟩ := Option.map_eq_some_iff.mp isSized
    exact
      isTrimmed_sized (isWritable.isType typing given) (isWritable.isLength typing given)
  unfold Declarator.node Parts.declarator Parts.tree Node.identifier
  dsimp only
  rw [typeStays, Parts.bounds]
  rcases parts.typing with _ | ⟨_ | _, typeName, length⟩ <;>
    cases parts.dimensions <;>
      rfl

end Written

end Declarator

end ClassicBasic
