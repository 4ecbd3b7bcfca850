import ClassicBasic.Proofs.Header
import ClassicBasic.Proofs.Reading
import ClassicBasic.Proofs.Reading.Renumbering

namespace ClassicBasic

/-!
# The layout of a module

Two sources that differ in their layout only are read alike.  Their headers are
the same, because header lines are trimmed, and the logical lines behind them
say the same.  What is read of the second source is what is read of the first
with the numbers of its logical lines exchanged for those of their
counterparts.
-/

/-! ## Headers -/

namespace Header

variable
  {source other : List Text}
  {f : Nat → Nat}

/-- A fault of the header keeps its line. -/
theorem FailsMalformed.renumber
    {result : Except Fault α}
    (fails : FailsMalformed result) :
    (result.map id).mapError (Fault.renumber f) = result := by
  cases result with
  | error fault =>
      obtain ⟨line, text, reason, rfl⟩ := fails fault rfl
      rfl
  | ok value =>
      rfl

/-- A step that fails with faults of the header only is the same under other
numbers. -/
theorem FailsMalformed.renumber_ofExcept
    {result : Except Fault α}
    (fails : FailsMalformed result) :
    Run.ofExcept result = (Run.ofExcept result).renumber f id := by
  rw [Run.renumber_ofExcept, fails.renumber]

/-- The reading of a header keeps its lines. -/
theorem renumber_read
    (source : List Text) :
    Header.read source = (Header.read source).renumber f id := by
  apply Run.bind_renumber
  · exact (failsMalformed_lineAt source 0).renumber_ofExcept
  · intro first _
    by_cases isClass : first = classMarker
    · simp only [id, if_pos isClass]
      apply Run.bind_renumber
      · exact (failsMalformed_flagsOf source).renumber_ofExcept
      · intro flags _
        rw [Run.renumber_report_bind]
        refine congrArg _ (funext fun _ => ?_)
        apply Run.bind_renumber
        · exact (failsMalformed_attributesOf source).renumber_ofExcept
        · intro attributes _
          rfl
    · simp only [id, if_neg isClass]
      apply Run.bind_renumber
      · exact (failsMalformed_attributeAt source 0).renumber_ofExcept
      · intro stated _
        rfl

/-- An attribute has the number of its line. -/
theorem renumber_of_attributeAt
    {position : Nat}
    {node : Node}
    (stated : attributeAt source position = .ok node)
    (keeps : f (position + 1) = position + 1) :
    node.renumber f = node := by
  obtain ⟨text, -, read⟩ := attributeAt_eq_ok_iff.mp stated
  have moved := Attribute.map_renumber_readNode? f text (position + 1)
  rw [keeps, read] at moved
  exact Option.some.inj moved

/-- The attributes of a header stand on lines of the header. -/
theorem renumber_attributes
    {header : Header}
    (reads : (Header.read source).result = .ok header)
    (keeps : ∀ number ≤ header.length, f number = number) :
    header.attributes.map (Node.renumber f) = header.attributes := by
  have atPositions :
      ∃ positions : List Nat,
        positions.mapM (attributeAt source) = .ok header.attributes ∧
          ∀ position ∈ positions, position < header.length := by
    cases isReadFrom_of_read reads with
    | ofClass first flagged stated =>
        exact
          ⟨attributePositions, (mapM_of_attributesOf stated).1,
            attributePosition_lt⟩
    | ofPlain first noClass stated =>
        refine ⟨[0], ?_, by simp [plainLength]⟩
        simp [List.mapM_cons, stated, bind, Except.bind, pure, Except.pure]
  obtain ⟨positions, stated, inside⟩ := atPositions
  obtain ⟨-, isRead⟩ := attributes_of_mapM stated
  have keepsEach :
      ∀ node ∈ header.attributes, node.renumber f = node := by
    intro node isAttribute
    obtain ⟨position, isPosition, read⟩ := isRead node isAttribute
    exact renumber_of_attributeAt read (keeps _ (inside position isPosition))
  exact (List.map_congr_left keepsEach).trans (List.map_id' _)

/-- A line without a byte order mark is stripped by trimming it. -/
theorem strip_of_unmarked
    {text : Text}
    (unmarked : text.head? ≠ some byteOrderMark) :
    strip text = Text.trim text := by
  cases text with
  | nil =>
      rfl
  | cons c rest =>
      have differs : c ≠ byteOrderMark := by
        simpa using unmarked
      simp [strip, differs]

end Header

/-! ## Sources that differ in their layout -/

namespace Module

/-- The number of physical lines that a header takes: thirteen if the first of
them is the class marker, and one otherwise. -/
def headerLength (source : List Text) : Nat :=
  if source.head?.map Text.trim = some Header.classMarker then
    Header.classLength
  else
    Header.plainLength

/-- The physical lines of a header, as far as they are there. -/
def headerLines (source : List Text) : List Text :=
  source.take (headerLength source)

/-- The logical lines behind a header. -/
def linesBehind (source : List Text) : List Line :=
  Line.logical (headerLength source + 1) (source.drop (headerLength source))

/-- Sources that differ in their layout only. -/
structure SameContent (source other : List Text) : Prop where
  unmarked :
    ∀ text ∈ headerLines source ++ headerLines other,
      text.head? ≠ some Header.byteOrderMark
  sameHeader :
    (headerLines source).map Text.trim = (headerLines other).map Text.trim
  sameTexts :
    (linesBehind source).map Line.text = (linesBehind other).map Line.text

/-- The number of the logical line of a second source that corresponds to the
logical line with a given number in the first.  Other numbers are kept. -/
def renumbering (source other : List Text) : Nat → Nat :=
  Line.counterpart (linesBehind source) (linesBehind other)

variable {source other : List Text}

/-- Every header has a first line. -/
theorem headerLength_pos
    (source : List Text) :
    0 < headerLength source := by
  unfold headerLength
  split <;>
    decide

/-- A header begins with the first line of its source. -/
theorem head?_headerLines
    (source : List Text) :
    (headerLines source).head? = source.head? := by
  have present : headerLength source ≠ 0 :=
    Nat.ne_of_gt (headerLength_pos source)
  rw [headerLines, List.head?_take, if_neg present]

/-- A line in front of the length of the header is one of its lines. -/
theorem mem_headerLines
    {position : Nat}
    {text : Text}
    (inside : position < headerLength source)
    (isLine : source[position]? = some text) :
    text ∈ headerLines source := by
  apply List.mem_of_getElem?
  rw [headerLines, List.getElem?_take_of_lt inside, isLine]

/-- How long a header is can be told from its first line as it is read. -/
theorem headerLength_of_lineAt
    {text : Text}
    (unmarked : ∀ text ∈ headerLines source, text.head? ≠ some Header.byteOrderMark)
    (first : Header.lineAt source 0 = .ok text) :
    headerLength source =
      if text = Header.classMarker then Header.classLength
      else Header.plainLength := by
  cases source with
  | nil =>
      cases first
  | cons line rest =>
      have isFirst : line ∈ headerLines (line :: rest) :=
        mem_headerLines (headerLength_pos _) rfl
      have trims : Header.strip line = Text.trim line :=
        Header.strip_of_unmarked (unmarked line isFirst)
      cases first
      simp [headerLength, trims]

/-- A header that has been read is as long as its first line tells. -/
theorem length_of_read
    {header : Header}
    (unmarked : ∀ text ∈ headerLines source, text.head? ≠ some Header.byteOrderMark)
    (reads : (Header.read source).result = .ok header) :
    header.length = headerLength source := by
  cases Header.isReadFrom_of_read reads with
  | ofClass first flagged stated =>
      rw [headerLength_of_lineAt unmarked first, if_pos rfl]
  | ofPlain first noClass stated =>
      rw [headerLength_of_lineAt unmarked first, if_neg noClass]

section

variable
  {header : List Text}
  (complete : header.length = headerLength header)
  (body : List Text)

include complete

/-- What follows a complete header does not make it longer. -/
theorem headerLength_append :
    headerLength (header ++ body) = header.length := by
  have present : header ≠ [] := by
    rintro rfl
    exact Nat.ne_of_lt (headerLength_pos []) complete
  rw [complete, headerLength, headerLength, List.head?_append_of_ne_nil _ present]

/-- A complete header has its lines whatever follows. -/
theorem headerLines_append :
    headerLines (header ++ body) = header := by
  rw [headerLines, headerLength_append complete, List.take_left]

/-- Behind a complete header stands what follows it. -/
theorem map_text_linesBehind_append :
    (linesBehind (header ++ body)).map Line.text = Line.texts body := by
  rw [linesBehind, headerLength_append complete, List.drop_left,
    Line.map_text_logical]

end

namespace SameContent

/-- The headers of the sources take equally many lines. -/
theorem headerLength_eq
    (same : SameContent source other) :
    headerLength source = headerLength other := by
  have sameFirst := congrArg List.head? same.sameHeader
  rw [List.head?_map, List.head?_map, head?_headerLines, head?_headerLines]
    at sameFirst
  rw [headerLength, headerLength, sameFirst]

/-- The lines of the headers say the same. -/
theorem lineAt_eq
    (same : SameContent source other)
    {position : Nat}
    (inside : position < headerLength source) :
    Header.lineAt source position = Header.lineAt other position := by
  have insideOther : position < headerLength other :=
    same.headerLength_eq ▸ inside
  have sameLine := congrArg (·[position]?) same.sameHeader
  simp only [headerLines, List.getElem?_map, List.getElem?_take_of_lt inside,
    List.getElem?_take_of_lt insideOther] at sameLine
  unfold Header.lineAt
  cases first : source[position]? with
  | none =>
      cases second : other[position]? with
      | none =>
          rfl
      | some text =>
          simp [first, second] at sameLine
  | some text =>
      cases second : other[position]? with
      | none =>
          simp [first, second] at sameLine
      | some otherText =>
          have unmarked :=
            same.unmarked text
              (List.mem_append_left _ (mem_headerLines inside first))
          have otherUnmarked :=
            same.unmarked otherText
              (List.mem_append_right _ (mem_headerLines insideOther second))
          simp only [first, second, Option.map_some, Option.some.injEq] at sameLine
          simp only [Header.strip_of_unmarked unmarked,
            Header.strip_of_unmarked otherUnmarked, sameLine]

/-- No line in the first header begins with a byte order mark. -/
theorem unmarked_left
    (same : SameContent source other) :
    ∀ text ∈ headerLines source, text.head? ≠ some Header.byteOrderMark := by
  intro text isLine
  exact same.unmarked text (List.mem_append_left _ isLine)

/-- The headers of the sources are read alike. -/
theorem read_eq
    (same : SameContent source other) :
    Header.read other = Header.read source := by
  have sameFirst := same.lineAt_eq (headerLength_pos source)
  simp only [Header.read, ← sameFirst]
  cases first : Header.lineAt source 0 with
  | error fault =>
      rfl
  | ok text =>
      change (if text = Header.classMarker then _ else _) =
        (if text = Header.classMarker then _ else _)
      have length := headerLength_of_lineAt same.unmarked_left first
      by_cases isClass : text = Header.classMarker
      · rw [if_pos isClass] at length
        rw [if_pos isClass, if_pos isClass]
        apply Header.ofClass_congr
        intro position inside
        exact (same.lineAt_eq (length ▸ inside)).symm
      · rw [if_neg isClass, if_neg isClass]
        exact Header.ofPlain_congr sameFirst.symm

/-- Corresponding lines say the same, so they differ in their numbers only. -/
theorem map_renumber_linesBehind
    (same : SameContent source other) :
    (linesBehind source).map (Line.renumber (renumbering source other)) =
      linesBehind other :=
  Line.map_renumber_counterpart (Line.logical_increasing _ _) same.sameTexts

end SameContent

/-- No logical line starts inside the header. -/
theorem renumbering_of_le
    (source other : List Text)
    {number : Nat}
    (inHeader : number ≤ headerLength source) :
    renumbering source other number = number := by
  apply Line.counterpart_of_absent
  intro line isLine
  have behind := Line.le_number_of_mem_logical isLine
  omega

/-! ## Reading -/

/-- The reading of a module behind its first event. -/
def readStarted
    (file : Text)
    (source : List Text) :
    Run Node := do
  let header ← Header.read source
  let (declarations, members) ← readBody source header
  match name? header.attributes with
  | none => Run.fail .missingModuleName
  | some name => do
      Run.report (.readingEnds name declarations.length members.length)
      pure ⟨name, 1, .module file header.classFlags,
        header.attributes ++ declarations ++ members⟩

/-- A reading reports that it starts, and goes on. -/
theorem read_eq_readStarted
    (file : Text)
    (source : List Text) :
    read file source =
      Run.report (.readingStarts file source.length) >>= fun _ =>
        readStarted file source :=
  rfl

/-- The first event tells the number of lines, and the result does not. -/
theorem result_parse
    (file : Text)
    (source : List Text)
    (patience : Option Nat) :
    (parse file source patience).result =
      ((readStarted file source).observe (patience.map (· - 1))).2.mapError
        (FileFault.inFile file) := by
  have behind :=
    Run.snd_observe_report_bind (.readingStarts file source.length)
      (fun _ => readStarted file source) patience
  rw [← read_eq_readStarted] at behind
  rw [← behind]
  rfl

section

variable
  {f : Nat → Nat}
  (same : SameContent source other)
  (sameLines : (linesBehind source).map (Line.renumber f) = linesBehind other)
  (keeps : ∀ number ≤ headerLength source, f number = number)

include same sameLines keeps

/-- The lines behind the headers are read alike, at corresponding numbers. -/
theorem readBody_renumber
    {header : Header}
    (length : header.length = headerLength source) :
    readBody other header =
      (readBody source header).renumber f (Reading.renumberSections f) := by
  have behind : bodyLines source header = linesBehind source := by
    rw [bodyLines, linesBehind, length]
  have behindOther : bodyLines other header = linesBehind other := by
    rw [bodyLines, linesBehind, length, same.headerLength_eq]
  apply Run.bind_renumber
  · change Reading.start.readLines (bodyLines other header) =
      (Reading.start.readLines (bodyLines source header)).renumber f _
    rw [behind, behindOther, ← sameLines]
    exact Reading.readLines_renumber (keeps 0 (Nat.zero_le _)) Reading.start _
  · intro reading _
    rw [Run.renumber_ofExcept, Reading.finish_renumber]

/-- The second source is read like the first. -/
theorem readStarted_renumber
    (file : Text) :
    readStarted file other =
      (readStarted file source).renumber f (Node.renumber f) := by
  apply Run.bind_renumber
  · rw [same.read_eq]
    exact Header.renumber_read source
  · intro header reads
    have length := length_of_read same.unmarked_left reads
    have attributes := Header.renumber_attributes reads (length ▸ keeps)
    apply Run.bind_renumber
    · exact readBody_renumber same sameLines keeps length
    · intro nodes _
      rcases nodes with ⟨declarations, members⟩
      have root : f 1 = 1 := keeps 1 (headerLength_pos source)
      simp only [id, Reading.renumberSections, Prod.map_apply, List.length_map]
      split
      · rfl
      · rw [Run.renumber_report_bind]
        simp [Event.renumber, root, attributes]

end

/-- The result of a parse depends on the layout of its source only through line
numbers.  Where the header lines of two sources without byte order marks agree
when trimmed and the logical lines behind them say the same, the results differ
by the numbers of corresponding logical lines; the lines of the header keep
their numbers.  Logical lines say the same however they are indented, wrapped
and set apart by blank lines. -/
theorem parse_sameContent
    (file : Text)
    (patience : Option Nat) :
    (∀ source other,
        SameContent source other →
          (linesBehind source).map (Line.renumber (renumbering source other)) =
              linesBehind other ∧
            (∀ number ≤ headerLength source,
              renumbering source other number = number) ∧
            (parse file other patience).result =
              ((parse file source patience).result.map
                  (Node.renumber (renumbering source other))).mapError
                (FileFault.renumber (renumbering source other))) ∧
      (∀ header before after,
        header.length = headerLength header →
          (∀ text ∈ header, text.head? ≠ some Header.byteOrderMark) →
            Relation.EqvGen Line.Relaid before after →
              SameContent (header ++ before) (header ++ after)) := by
  refine ⟨?_, ?_⟩
  · intro source other same
    refine ⟨same.map_renumber_linesBehind, fun _ => renumbering_of_le source other, ?_⟩
    have reads :=
      readStarted_renumber same same.map_renumber_linesBehind
        (fun _ => renumbering_of_le source other) file
    rw [result_parse, result_parse, reads, Run.observe_renumber]
    cases ((readStarted file source).observe (patience.map (· - 1))).2 <;>
      rfl
  · intro header before after complete unmarked relaid
    refine ⟨?_, ?_, ?_⟩
    · intro text isLine
      rw [headerLines_append complete, headerLines_append complete,
        List.mem_append, or_self] at isLine
      exact unmarked text isLine
    · rw [headerLines_append complete, headerLines_append complete]
    · rw [map_text_linesBehind_append complete, map_text_linesBehind_append complete,
        Line.texts_eq_of_relaid relaid]

/-- A declaration that is wrapped behind a blank line, and a method whose body is
indented behind another: what stood on the lines two to five stands on the lines
three, five, seven and eight. -/
theorem parse_sameContent_rewrapped :
    let header : List Text := ["Attribute VB_Name = \"A\""]
    let before : List Text := ["Dim x, y", "Sub A()", "z = 1", "End Sub"]
    let after : List Text :=
      ["", "Dim x, _", " y", "Sub A()", "", "\tz = 1", "End Sub"]
    let moved := renumbering (header ++ before) (header ++ after)
    Relation.EqvGen Line.Relaid before after ∧
      SameContent (header ++ before) (header ++ after) ∧
        [2, 3, 4, 5].map moved = [3, 5, 7, 8] ∧
          (parse "A.bas" (header ++ before) none).result.isOk ∧
            (parse "A.bas" (header ++ after) none).result =
              ((parse "A.bas" (header ++ before) none).result.map
                (Node.renumber moved)).mapError (FileFault.renumber moved) := by
  intro header before after moved
  let spaced : List Text := "" :: before
  let wrapped : List Text :=
    ["", "Dim x, _", " y", "Sub A()", "z = 1", "End Sub"]
  let apart : List Text :=
    ["", "Dim x, _", " y", "Sub A()", "", "z = 1", "End Sub"]
  have spaces : Line.Relaid before spaced :=
    @Line.Relaid.spaced [] before "" (by decide) (by decide)
  have wraps : Line.Relaid spaced wrapped :=
    @Line.Relaid.wrapped [""] ["Sub A()", "z = 1", "End Sub"]
      ["Dim x, y"] ["Dim x, _", " y"]
      (by decide) (by decide) (by decide) (by decide)
  have parts : Line.Relaid wrapped apart :=
    @Line.Relaid.spaced ["", "Dim x, _", " y", "Sub A()"] ["z = 1", "End Sub"] ""
      (by decide) (by decide)
  have indents : Line.Relaid apart after :=
    .indented (by decide)
  have relaid : Relation.EqvGen Line.Relaid before after :=
    .trans _ _ _ (.rel _ _ spaces)
      (.trans _ _ _ (.rel _ _ wraps)
        (.trans _ _ _ (.rel _ _ parts) (.rel _ _ indents)))
  obtain ⟨agrees, keepsContent⟩ := parse_sameContent "A.bas" none
  have same : SameContent (header ++ before) (header ++ after) :=
    keepsContent header before after (by decide) (by decide) relaid
  obtain ⟨-, -, results⟩ := agrees _ _ same
  exact ⟨relaid, same, by decide +kernel, by decide +kernel, results⟩

end Module

end ClassicBasic
