import Mathlib.Data.List.Forall2
import ClassicBasic.Proofs.Header.Flag
import ClassicBasic.Proofs.Module.Renaming
import ClassicBasic.Proofs.Node.Renumbering
import ClassicBasic.Proofs.Text.Decimal

namespace ClassicBasic.Header

/-!
# The canonical form of class headers

Five flags and five attributes are written into the thirteen lines of a class
header, with any comments behind the flags and any blanks in front of the lines.
Whatever else stands in the source, the header that is read has these flags in
their fields and these attributes on their lines.
-/

open Node

/-! ## Flags -/

/-- The keys of the class flags in the order of their lines. -/
def flagKeys : List Text :=
  ["MultiUse", "Persistable", "DataBindingBehavior", "DataSourceBehavior",
    "MTSTransactionMode"]

/-- The class flags in the order of their lines. -/
def flagValues (flags : ClassFlags) : List Int32 :=
  [flags.multiUse, flags.persistable, flags.dataBindingBehavior,
    flags.dataSourceBehavior, flags.mtsTransactionMode]

/-- The line that states a class flag: its key, its value in decimal and a
comment. -/
def flagSource (key : Text) (value : Int32) (comment : Text) : Text :=
  Text.concat [key, " = ", toString value.toInt, "  '", comment]

/-- The decimal digits of a number are read as the number. -/
theorem decimal?_toDigits
    (magnitude : Nat) :
    decimal? (Nat.toDigits 10 magnitude) = some magnitude := by
  have digits : (Nat.toDigits 10 magnitude).all Char.isDigit = true :=
    List.all_eq_true.mpr fun c member => Text.isDigit_of_mem_toDigits member
  have value := Nat.ofDigitChars_ten_toDigits (n := magnitude)
  simp only [Nat.ofDigitChars, Nat.mul_comm 10] at value
  rw [decimal?, if_pos digits, value]

/-- Decimal digits are ASCII characters. -/
theorem toNat_lt_of_isDigit
    {c : Char}
    (digit : c.isDigit = true) :
    c.toNat < 0x80 := by
  have continues : Phrase.isNameChar c = true := by
    simp [Phrase.isNameChar, Char.isAlphanum, digit]
  exact (Phrase.toNat_of_isNameChar continues).2

/-- A decimal digit counts as a digit of a word. -/
theorem isWordDigit_of_isDigit
    {c : Char}
    (digit : c.isDigit = true) :
    Text.isWordDigit c = true := by
  rw [Text.isWordDigit, Text.isDecimalDigit, if_pos (toNat_lt_of_isDigit digit)]
  exact digit

/-- The digits of a flag are found with their sign, and to their end. -/
theorem flagDigits?_toDigits
    (magnitude : Nat) :
    flagDigits? (Nat.toDigits 10 magnitude) = some (false, Nat.toDigits 10 magnitude) ∧
      flagDigits? ('-' :: Nat.toDigits 10 magnitude) =
        some (true, Nat.toDigits 10 magnitude) := by
  have isRun : ∀ c ∈ Nat.toDigits 10 magnitude, Text.isWordDigit c = true :=
    fun c member => isWordDigit_of_isDigit (Text.isDigit_of_mem_toDigits member)
  have digits := List.takeWhile_eq_self_iff.mpr isRun
  have behind := List.dropWhile_eq_nil_iff.mpr isRun
  have someDigit : (Nat.toDigits 10 magnitude).isEmpty = false := by
    simp
  refine ⟨?_, ?_⟩
  · unfold flagDigits?
    split
    next negative others signed =>
    split at signed
    · next unsigned opens =>
        have isDigit : '-'.isDigit = true :=
          Text.isDigit_of_mem_toDigits (opens ▸ List.mem_cons_self)
        exact absurd isDigit (by decide)
    · cases signed
      simp [digits, behind, someDigit]
  · simp [flagDigits?, digits, behind, someDigit]

/-- A number in decimal is read as it is written. -/
theorem flagDigits?_toString
    (value : Int) :
    flagDigits? (toString value).toList =
      some (decide (value < 0), Nat.toDigits 10 value.natAbs) := by
  obtain ⟨unsigned, signed⟩ := flagDigits?_toDigits value.natAbs
  rw [Text.toList_toString_int]
  by_cases negative : value < 0
  · simpa [negative] using signed
  · simpa [negative] using unsigned

/-- A flag has the value that is written. -/
theorem flag?_of_writtenFlag?
    {text : Text}
    {value : Int32}
    (written :
      writtenFlag? text =
        some (decide (value.toInt < 0), Nat.toDigits 10 value.toInt.natAbs)) :
    flag? text = some value := by
  have signed :
      (if decide (value.toInt < 0) = true then -(value.toInt.natAbs : Int)
        else value.toInt.natAbs) = value.toInt := by
    simp only [decide_eq_true_eq]
    split <;> omega
  have inRange :
      Int32.minValue.toInt ≤ value.toInt ∧ value.toInt ≤ Int32.maxValue.toInt :=
    ⟨value.minValue_le_toInt, value.toInt_le⟩
  rw [flag?, written]
  simp only [Option.bind_eq_bind, Option.bind_some, decimal?_toDigits, signed,
    if_pos inRange, Int32.ofInt_toInt]

/-! ## Lines -/

/-- Whether a line is a text with blanks in front. -/
def IsIndented (text line : Text) : Prop :=
  ∃ blanks : Text,
    (∀ c ∈ blanks, Text.isBlank c = true) ∧ line = blanks ++ text

/-- Blanks in front of a line, and byte order marks in front of these, do not
matter. -/
theorem strip_of_isIndented
    {marks text line : Text}
    (areMarks : ∀ c ∈ marks, c = byteOrderMark)
    (unmarked : text.head? ≠ some byteOrderMark)
    (indented : IsIndented text line) :
    strip (marks ++ line) = Text.trim text := by
  obtain ⟨blanks, areBlank, rfl⟩ := indented
  have noMark : (blanks ++ text).dropWhile (· = byteOrderMark) = blanks ++ text := by
    cases blanks with
    | nil =>
        cases text with
        | nil =>
            rfl
        | cons c rest =>
            have different : c ≠ byteOrderMark := fun same => unmarked (by rw [same]; rfl)
            simp [different]
    | cons c blanks =>
        have different : c ≠ byteOrderMark := by
          rintro rfl
          exact absurd (areBlank byteOrderMark List.mem_cons_self) (by decide)
        simp [different]
  rw [strip, List.dropWhile_append_of_pos (by simpa using areMarks), noMark, Text.trim,
    Text.trimStart, List.dropWhile_append_of_pos areBlank]
  rfl

/-- A line without a byte order mark is stripped of its indentation. -/
theorem strip_of_isIndented_unmarked
    {text line : Text}
    (unmarked : text.head? ≠ some byteOrderMark)
    (indented : IsIndented text line) :
    strip line = Text.trim text := by
  have noMarks : ∀ c ∈ ([] : Text), c = byteOrderMark := by
    simp
  exact strip_of_isIndented noMarks unmarked indented

/-- Whether a line states a class flag, given by its key and its value. -/
def StatesFlag (flag : Text × Int32) (line : Text) : Prop :=
  ∃ comment, IsIndented (flagSource flag.1 flag.2 comment) line

/-- Whether a line is the source of an attribute node. -/
def StatesAttribute (node : Node) (line : Text) : Prop :=
  ∃ text, Attribute.nodeSource? node = some text ∧ IsIndented text line

/-- Whether a source opens with the canonical form of a class header.  The second
line and the eighth are not looked at, nor is the body behind the header. -/
inductive IsClassForm (flags : ClassFlags) (attributes : List Node) :
    List Text → Prop where
  | intro
      {marks opening second eighth : Text}
      {flagLines attributeLines : List Text}
      (areMarks : ∀ c ∈ marks, c = byteOrderMark)
      (opens : IsIndented classMarker opening)
      (flagged : List.Forall₂ StatesFlag (flagKeys.zip (flagValues flags)) flagLines)
      (stated : List.Forall₂ StatesAttribute attributes attributeLines)
      (body : List Text) :
      IsClassForm flags attributes
        ((marks ++ opening) :: second ::
          (flagLines ++ eighth :: (attributeLines ++ body)))

/-- No key of a flag has the sign that stands in front of its value. -/
theorem sign_not_mem_flagKeys :
    ∀ key ∈ flagKeys, '=' ∉ key := by
  decide

/-- A line that states a flag is read as that flag, whatever its comment says. -/
theorem flag?_of_states
    {key line : Text}
    {value : Int32}
    (isKey : key ∈ flagKeys)
    (states : StatesFlag (key, value) line) :
    flag? (strip line) = some value := by
  obtain ⟨comment, blanks, areBlank, rfl⟩ := states
  let digits : Text := (toString value.toInt).toList
  let code : Text := blanks ++ key ++ [' '] ++ '=' :: ([' '] ++ digits ++ [' ', ' '])
  have whole :
      blanks ++ flagSource key value comment = code ++ Line.commentMarker :: comment := by
    simp [flagSource, Text.concat, code, digits, Line.commentMarker]
  have noSign : '=' ∉ blanks ++ key ++ [' '] := by
    have notBlank : '=' ∉ blanks := Text.not_mem_of_blank (by decide) areBlank
    simp [notBlank, sign_not_mem_flagKeys key isKey]
  have space : Text.isBlank ' ' = true := by
    decide
  have spaces : ∀ c ∈ ([' ', ' '] : Text), Text.isBlank c = true := by
    simp [space]
  obtain ⟨c, rest, opens, visible⟩ := Text.exists_cons_toString_int value.toInt
  have skipsBlank : Text.trimStart ([' '] ++ digits) = digits := by
    simp only [digits, opens]
    exact Text.trimStart_cons_visible visible rest
  have written :
      writtenFlag? code =
        some (decide (value.toInt < 0), Nat.toDigits 10 value.toInt.natAbs) := by
    rw [writtenFlag?_append_left noSign, writtenFlag?, if_pos rfl,
      flagDigits?_trimStart_append_blanks spaces, skipsBlank, flagDigits?_toString]
    rfl
  rw [flag?_strip, whole, flag?_append_comment, written, Option.isSome_some, if_pos rfl]
  exact flag?_of_writtenFlag? written

/-- What is written line by line stands at the index of its line. -/
theorem exists_line_of_forall₂
    {states : α → Text → Prop}
    {items : List α}
    {lines : List Text}
    (written : List.Forall₂ states items lines)
    {index : Nat}
    {item : α}
    (stands : items[index]? = some item)
    (rest : List Text) :
    ∃ line, (lines ++ rest)[index]? = some line ∧ states item line := by
  obtain ⟨inside, rfl⟩ := List.getElem?_eq_some_iff.mp stands
  have insideLines : index < lines.length := written.length_eq ▸ inside
  refine ⟨lines[index], ?_, written.get inside insideLines⟩
  rw [List.getElem?_append_left insideLines, List.getElem?_eq_getElem insideLines]

section

variable
  {flags : ClassFlags}
  {flagLines : List Text}

/-- Every flag is read from its line. -/
theorem flagAt_of_states
    (states : List.Forall₂ StatesFlag (flagKeys.zip (flagValues flags)) flagLines)
    (first second : Text)
    (rest : List Text)
    (index : Nat)
    {flag : Text × Int32}
    (stands : (flagKeys.zip (flagValues flags))[index]? = some flag) :
    flagAt (first :: second :: (flagLines ++ rest)) (firstFlag + index) = .ok flag.2 := by
  obtain ⟨line, stands', stated⟩ := exists_line_of_forall₂ states stands rest
  have isKey : flag.1 ∈ flagKeys := (List.of_mem_zip (List.mem_of_getElem? stands)).1
  have place : firstFlag + index = index + 1 + 1 := by
    simp only [firstFlag]
    omega
  simp only [flagAt, lineAt, place, List.getElem?_cons_succ, stands', bind, Except.bind,
    flag?_of_states isKey stated]

/-- The five lines behind the first two state the flags of the class. -/
theorem flagsOf_of_states
    (states : List.Forall₂ StatesFlag (flagKeys.zip (flagValues flags)) flagLines)
    (first second : Text)
    (rest : List Text) :
    flagsOf (first :: second :: (flagLines ++ rest)) = .ok flags := by
  have multiUse := flagAt_of_states states first second rest 0 rfl
  have persistable := flagAt_of_states states first second rest 1 rfl
  have dataBinding := flagAt_of_states states first second rest 2 rfl
  have dataSource := flagAt_of_states states first second rest 3 rfl
  have transaction := flagAt_of_states states first second rest 4 rfl
  rw [Nat.add_zero] at multiUse
  simp only [flagsOf, multiUse, persistable, dataBinding, dataSource, transaction, bind,
    Except.bind]

end

/-! ## Attributes -/

/-- An attribute that was read from some line is read again, at its new place,
from the line that states it. -/
theorem readNode?_strip
    {node : Node}
    {line text : Text}
    {number : Nat}
    (isRead : Attribute.readNode? text number = some node)
    (states : StatesAttribute node line)
    (place : Nat) :
    Attribute.readNode? (strip line) place = some (node.renumber fun _ => place) := by
  obtain ⟨stated, reads, rfl⟩ := Option.map_eq_some_iff.mp isRead
  obtain ⟨written, source, indented⟩ := states
  rw [Attribute.nodeSource?_node] at source
  cases source
  have unmarked : stated.source.head? ≠ some byteOrderMark := by
    rw [Attribute.source_eq]
    intro opens
    have letter : some 'A' = some byteOrderMark := opens
    exact absurd letter (by decide)
  rw [strip_of_isIndented_unmarked unmarked indented, Attribute.renumber_node,
    Attribute.readNode?, Attribute.read?_trim,
    Attribute.read?_source (Attribute.isStatable_of_read? reads), Option.map_some]

/-- Attributes in their canonical form are read from consecutive lines. -/
theorem attributesAt_of_states
    {source : List Text}
    {attributes : List Node}
    (areRead :
      ∀ node ∈ attributes, ∃ text line, Attribute.readNode? text line = some node)
    (first : Nat)
    (states :
      ∀ index node,
        attributes[index]? = some node →
          ∃ line, source[first + index]? = some line ∧ StatesAttribute node line) :
    (List.range' first attributes.length).mapM (attributeAt source) =
      .ok
        (attributes.zipWith (fun node line => node.renumber fun _ => line)
          (List.range' (first + 1) attributes.length)) := by
  induction attributes generalizing first with
  | nil =>
      rfl
  | cons node rest inductionHypothesis =>
      obtain ⟨⟨text, number, isRead⟩, restRead⟩ := List.forall_mem_cons.mp areRead
      obtain ⟨line, stands, stated⟩ := states 0 node rfl
      have reads : attributeAt source first = .ok (node.renumber fun _ => first + 1) := by
        refine attributeAt_eq_ok_iff.mpr ⟨strip line, ?_, readNode?_strip isRead stated _⟩
        rw [lineAt, ← Nat.add_zero first, stands]
      have readsRest := inductionHypothesis restRead (first + 1) <| by
        intro index other isOther
        rw [Nat.add_right_comm]
        exact states (index + 1) other isOther
      exact attributesAt_cons_iff.mpr ⟨_, _, reads, readsRest, rfl⟩

/-! ## Headers -/

/-- Byte order marks do not keep the first line from being the class marker. -/
theorem lineAt_marked
    {marks opening : Text}
    (areMarks : ∀ c ∈ marks, c = byteOrderMark)
    (opens : IsIndented classMarker opening)
    (rest : List Text) :
    lineAt ((marks ++ opening) :: rest) 0 = .ok classMarker := by
  have unmarked : classMarker.head? ≠ some byteOrderMark := by
    decide
  rw [lineAt]
  exact congrArg Except.ok (strip_of_isIndented areMarks unmarked opens)

/-- The attribute lines follow the flags and one line more. -/
theorem attributeLine_stands
    {flags : ClassFlags}
    {flagLines : List Text}
    (flagged : List.Forall₂ StatesFlag (flagKeys.zip (flagValues flags)) flagLines)
    (first second eighth : Text)
    (rest : List Text)
    (index : Nat) :
    (first :: second :: (flagLines ++ eighth :: rest))[firstAttribute + index]? =
      rest[index]? := by
  have fiveFlags : flagLines.length = 5 := by
    rw [← flagged.length_eq]
    rfl
  have place : firstAttribute + index = flagLines.length + (index + 1) + 1 + 1 := by
    rw [fiveFlags, firstAttribute]
    omega
  rw [place, List.getElem?_cons_succ, List.getElem?_cons_succ,
    List.getElem?_append_right (by omega), Nat.add_sub_cancel_left,
    List.getElem?_cons_succ]

/-- The five attributes of a class header are taken if the first is the name. -/
theorem attributesOf_of_reads
    {source : List Text}
    {first : Node}
    {others : List Node}
    (reads : attributePositions.mapM (attributeAt source) = .ok (first :: others))
    (named : first.name = nameAttribute) :
    attributesOf source = .ok (first :: others) := by
  simp [attributesOf, reads, named, bind, Except.bind]

/-- A class header is read as it is written.  From any source that opens with the
canonical form of five flags and of five attributes, the first of which is the name
of the module, exactly these flags are read and exactly these attributes, each
with the number of its line. -/
theorem read_of_isClassForm
    {flags : ClassFlags}
    {attributes : List Node}
    {source : List Text}
    (areRead :
      ∀ node ∈ attributes, ∃ text line, Attribute.readNode? text line = some node)
    (areFive : attributes.length = 5)
    (named : attributes.head?.map Node.name = some nameAttribute)
    (form : IsClassForm flags attributes source) :
    (read source).result =
      .ok
        ⟨some flags,
          attributes.zipWith (fun node line => node.renumber fun _ => line)
            [9, 10, 11, 12, 13],
          13⟩ := by
  cases form with
  | @intro marks opening second eighth flagLines attributeLines areMarks opens flagged
      stated body =>
      have stands := attributeLine_stands flagged (marks ++ opening) second eighth
      have reads :=
        attributesAt_of_states areRead firstAttribute fun index node isAttribute => by
          obtain ⟨line, place, states⟩ := exists_line_of_forall₂ stated isAttribute body
          exact ⟨line, (stands _ index).trans place, states⟩
      rw [areFive] at reads
      obtain ⟨first, others, rfl⟩ : ∃ first others, attributes = first :: others :=
        List.exists_cons_of_length_pos (by omega)
      have isName : first.name = nameAttribute := by
        simpa using named
      refine
        read_of_isReadFrom
          (.ofClass (lineAt_marked areMarks opens _) (flagsOf_of_states flagged _ _ _)
            (attributesOf_of_reads reads ?_))
      rw [name_renumber, isName]

/-- Both extremes of the flags, comments that look like flags, and values that look
like comments or stand behind a member. -/
theorem read_of_isClassForm_extremes :
    let flags : ClassFlags := ⟨Int32.minValue, Int32.maxValue, 0, -1, 2⟩
    let attributes : List Node :=
      [⟨"VB_Name", 3, .attributeLine " it's \"A\"" true, [.leaf .memberReference "M" 3]⟩,
        ⟨"VB_GlobalNameSpace", 0, .attributeLine "False" false, []⟩,
        ⟨"VB_Creatable", 70, .attributeLine "True" false, []⟩,
        ⟨"VB_Größe", 1, .attributeLine "" false, []⟩,
        ⟨"VB_Exposed", 2, .attributeLine "= -7 'no" false, []⟩]
    let flagLines : List Text :=
      ["  MultiUse = -2147483648  ' = 1", "Persistable = 2147483647  'Not",
        "\tDataBindingBehavior = 0  '", " DataSourceBehavior = -1  'vb''None ",
        "MTSTransactionMode = 2  '= 3"]
    let attributeLines : List Text :=
      ["Attribute M.VB_Name = \" it's \"\"A\"\"\"",
        " Attribute VB_GlobalNameSpace = False", "Attribute VB_Creatable = True",
        "\tAttribute VB_Größe = ", "Attribute VB_Exposed = = -7 'no"]
    let body : List Text := ["Attribute VB_Name = \"B\""]
    let source : List Text :=
      "\ufeff\t VERSION 1.0 CLASS" :: "Begin = 5" ::
        (flagLines ++ ("" : Text) :: (attributeLines ++ body))
    (∀ node ∈ attributes, ∃ text line, Attribute.readNode? text line = some node) ∧
      attributes.length = 5 ∧
        attributes.head?.map Node.name = some nameAttribute ∧
          IsClassForm flags attributes source ∧
            (read source).result =
              .ok
                ⟨some flags,
                  attributes.zipWith (fun node line => node.renumber fun _ => line)
                    [9, 10, 11, 12, 13],
                  13⟩ := by
  intro flags attributes flagLines attributeLines body source
  have areRead :
      ∀ node ∈ attributes, ∃ text line, Attribute.readNode? text line = some node := by
    have reads :
        attributes =
          (attributes.zip attributeLines).filterMap fun (node, text) =>
            Attribute.readNode? text node.line := by
      decide +kernel
    intro node isAttribute
    rw [reads] at isAttribute
    obtain ⟨⟨other, text⟩, -, read⟩ := List.mem_filterMap.mp isAttribute
    exact ⟨text, other.line, read⟩
  have flagged : List.Forall₂ StatesFlag (flagKeys.zip (flagValues flags)) flagLines :=
    .cons ⟨" = 1", "  ", Text.trim_eq_nil_iff.mp rfl, by decide +kernel⟩ <|
      .cons ⟨"Not", "", Text.trim_eq_nil_iff.mp rfl, by decide +kernel⟩ <|
        .cons ⟨"", "\t", Text.trim_eq_nil_iff.mp rfl, by decide +kernel⟩ <|
          .cons ⟨"vb''None ", " ", Text.trim_eq_nil_iff.mp rfl, by decide +kernel⟩ <|
            .cons ⟨"= 3", "", Text.trim_eq_nil_iff.mp rfl, by decide +kernel⟩ .nil
  have stated : List.Forall₂ StatesAttribute attributes attributeLines :=
    .cons ⟨_, rfl, "", Text.trim_eq_nil_iff.mp rfl, by decide +kernel⟩ <|
      .cons ⟨_, rfl, " ", Text.trim_eq_nil_iff.mp rfl, by decide +kernel⟩ <|
        .cons ⟨_, rfl, "", Text.trim_eq_nil_iff.mp rfl, by decide +kernel⟩ <|
          .cons ⟨_, rfl, "\t", Text.trim_eq_nil_iff.mp rfl, by decide +kernel⟩ <|
            .cons ⟨_, rfl, "", Text.trim_eq_nil_iff.mp rfl, by decide +kernel⟩ .nil
  have areMarks : ∀ c ∈ ("\ufeff" : Text), c = byteOrderMark :=
    List.forall_mem_singleton.mpr rfl
  have opens : IsIndented classMarker "\t VERSION 1.0 CLASS" :=
    ⟨"\t ", Text.trim_eq_nil_iff.mp rfl, rfl⟩
  have form : IsClassForm flags attributes source :=
    .intro areMarks opens flagged stated body
  have named : attributes.head?.map Node.name = some nameAttribute := by
    decide
  exact ⟨areRead, rfl, named, form, read_of_isClassForm areRead rfl named form⟩

end ClassicBasic.Header
