import ClassicBasic.Node.Update
import ClassicBasic.Proofs.Attribute
import ClassicBasic.Proofs.Module.Layout
import ClassicBasic.Proofs.Module.Shape
import ClassicBasic.Proofs.Node.Attributes
import ClassicBasic.Proofs.Run.Cut

namespace ClassicBasic

open Node

/-!
# Renaming a module in its source

A module is renamed by a new value for its first attribute.  The line of that
attribute stands at a fixed place of the header, and no other part of the tree
is read from it, so the source is changed in that line alone.
-/

/-! ## Attributes -/

namespace Attribute

/-- Blanks around the line of an attribute do not matter. -/
theorem read?_trim
    (text : Text) :
    read? (Text.trim text) = read? text := by
  simp only [read?, Text.trim_trim]

/-- A line that states an attribute opens with no byte order mark. -/
theorem strip_source
    (stated : Attribute) :
    Header.strip stated.source = Text.trim stated.source := by
  have unmarked :
      stated.source.dropWhile (· = Header.byteOrderMark) = stated.source := by
    rw [source_eq]
    rfl
  rw [Header.strip, unmarked]

/-- The line of an attribute is not taken for the class marker. -/
theorem strip_source_ne_classMarker
    (stated : Attribute) :
    Header.strip stated.source ≠ Header.classMarker := by
  intro same
  rw [strip_source, trim_source] at same
  have letter : some 'A' = some 'V' :=
    congrArg List.head? same
  exact absurd letter (by decide)

/-- An attribute with another value. -/
def withValue (stated : Attribute) (value : Text) : Attribute :=
  { stated with value := value }

/-- The node of an attribute with another value is its node with that value. -/
theorem node_withValue
    (stated : Attribute)
    (value : Text)
    (line : Nat) :
    (stated.withValue value).node line = (stated.node line).withValue value :=
  rfl

/-- A literal can take any value that stands on one line. -/
theorem IsStatable.withValue
    {stated : Attribute}
    (statable : stated.IsStatable)
    (literal : stated.quoted = true)
    {value : Text}
    (oneLine : '\n' ∉ value) :
    (stated.withValue value).IsStatable where
  member := statable.member
  name := statable.name
  oneLine := oneLine
  bare := fun bare => absurd (literal.symm.trans bare) (by decide)

end Attribute

/-! ## Headers -/

namespace Header

variable
  {source : List Text}
  {position : Nat}

/-- A line that has been replaced is found at its place. -/
theorem lineAt_set
    {text : Text}
    (inside : position < source.length) :
    lineAt (source.set position text) position = .ok (strip text) := by
  simp [lineAt, inside]

/-- Other lines are found as before. -/
theorem lineAt_set_of_ne
    {other : Nat}
    (different : other ≠ position)
    (text : Text) :
    lineAt (source.set position text) other = lineAt source other := by
  simp [lineAt, List.getElem?_set_ne different.symm]

/-- An attribute is stated by the line at its position. -/
theorem exists_stated_of_attributeAt
    {node : Node}
    (reads : attributeAt source position = .ok node) :
    position < source.length ∧
      ∃ text stated,
        Attribute.read? text = some stated ∧ node = stated.node (position + 1) := by
  obtain ⟨text, line, readsNode⟩ := attributeAt_eq_ok_iff.mp reads
  obtain ⟨stated, read, rfl⟩ := Option.map_eq_some_iff.mp readsNode
  exact ⟨lt_length_of_lineAt line, text, stated, read, rfl⟩

/-- An attribute is read where its line has been put. -/
theorem attributeAt_set_source
    {stated : Attribute}
    (statable : stated.IsStatable)
    (inside : position < source.length) :
    attributeAt (source.set position stated.source) position =
      .ok (stated.node (position + 1)) := by
  have read := Attribute.read?_source statable
  rw [← Attribute.read?_trim, ← stated.strip_source] at read
  refine attributeAt_eq_ok_iff.mpr ⟨_, lineAt_set inside, ?_⟩
  exact Option.map_eq_some_iff.mpr ⟨stated, read, rfl⟩

/-- The line that names a module: the first attribute line of its header. -/
def namePosition (classFlags : Option ClassFlags) : Nat :=
  if classFlags.isSome then firstAttribute else 0

/-- The positions of the attributes behind the first. -/
theorem attributePositions_eq :
    attributePositions = firstAttribute :: attributePositions.tail :=
  rfl

/-- The attributes of a class are the name and then the others. -/
theorem attributesOf_cons_iff
    {first : Node}
    {others : List Node} :
    attributesOf source = .ok (first :: others) ↔
      attributeAt source firstAttribute = .ok first ∧
        (attributePositions.tail).mapM (attributeAt source) = .ok others ∧
          first.name = nameAttribute := by
  constructor
  · intro read
    obtain ⟨stated, named⟩ := mapM_of_attributesOf read
    rw [attributePositions_eq, attributesAt_cons_iff] at stated
    obtain ⟨node, nodes, one, rest, same⟩ := stated
    cases same
    exact ⟨one, rest, by simpa using named⟩
  · rintro ⟨one, rest, named⟩
    have stated :
        attributePositions.mapM (attributeAt source) = .ok (first :: others) :=
      attributesAt_cons_iff.mpr ⟨first, others, one, rest, rfl⟩
    simp [attributesOf, stated, named, bind, Except.bind]

/-- The first attribute of a header stands on the line that names the module. -/
theorem IsReadFrom.first_stands
    {header : Header}
    {first : Node}
    {others : List Node}
    (isRead : IsReadFrom source header)
    (attributes : header.attributes = first :: others) :
    attributeAt source (namePosition header.classFlags) = .ok first := by
  cases isRead with
  | ofClass opens flagged stated =>
      subst attributes
      exact (attributesOf_cons_iff.mp stated).1
  | ofPlain opens noClass stated =>
      cases attributes
      exact stated

/-- No flag stands where the name of a class does. -/
theorem flagPosition_ne :
    ∀ position ∈ flagPositions, position ≠ firstAttribute := by
  decide

/-- No other attribute stands where the name of a class does. -/
theorem laterPosition_ne :
    ∀ position ∈ attributePositions.tail, position ≠ firstAttribute := by
  decide

/-- A module is named in its header. -/
theorem namePosition_lt_length
    {header : Header}
    (isRead : IsReadFrom source header) :
    namePosition header.classFlags < header.length := by
  cases isRead <;>
    simp [namePosition, firstAttribute, classLength, plainLength]

/-- Only the first attribute changes with the line that names the module. -/
theorem IsReadFrom.set
    {header : Header}
    {first : Node}
    {others : List Node}
    {stated : Attribute}
    (isRead : IsReadFrom source header)
    (attributes : header.attributes = first :: others)
    (statable : stated.IsStatable)
    (named : stated.name = nameAttribute) :
    IsReadFrom (source.set (namePosition header.classFlags) stated.source)
      { header with
        attributes := stated.node (namePosition header.classFlags + 1) :: others } := by
  obtain ⟨inside, -⟩ := exists_stated_of_attributeAt (isRead.first_stands attributes)
  have changed := attributeAt_set_source statable inside
  cases isRead with
  | @ofClass flags _ opens flagged stated' =>
      subst attributes
      obtain ⟨-, rest, -⟩ := attributesOf_cons_iff.mp stated'
      refine .ofClass ?_ ?_ (attributesOf_cons_iff.mpr ⟨changed, ?_, named⟩)
      · rw [← opens]
        exact lineAt_set_of_ne (by simp [namePosition, firstAttribute]) stated.source
      · rw [← flagged]
        exact flagsOf_congr fun position isFlag =>
          lineAt_set_of_ne (flagPosition_ne position isFlag) stated.source
      · rw [← rest]
        exact attributesAt_congr fun position isLater =>
          lineAt_set_of_ne (laterPosition_ne position isLater) stated.source
  | ofPlain opens noClass stated' =>
      cases attributes
      exact
        .ofPlain (lineAt_set inside) stated.strip_source_ne_classMarker changed

end Header

/-! ## Nodes -/

namespace Node

/-- The line that names a module, counted from zero. -/
def namePosition (module : Node) : Nat :=
  Header.namePosition module.classFlags?

/-- A module is renamed in its first attribute, if that is its name. -/
theorem renameModule?_of_first
    {module first : Node}
    {rest : List Node}
    (children : module.children = first :: rest)
    (isName : isAttribute nameAttribute first = true)
    (name : Text) :
    module.renameModule? name =
      some { module with name := name, children := first.withValue name :: rest } := by
  simp [renameModule?, setAttributeValue?, children, setValueIn?, isName]

/-- The first child of a module is the first attribute of its name. -/
theorem attribute?_of_first
    {module first : Node}
    {rest : List Node}
    {name : Text}
    (children : module.children = first :: rest)
    (isName : isAttribute name first = true) :
    module.attribute? name = some first := by
  simp [attribute?, children, isName]

end Node

/-! ## Modules -/

namespace Module

/-- A complete reading is parsed to its module. -/
theorem parse_of_reads
    {file : Text}
    {source : List Text}
    {header : Header}
    {final : Reading}
    {module : Node}
    (reads : Reads file source header final module) :
    (parse file source none).result = .ok module := by
  have finishes := Reading.finish_eq_ok_iff.mpr ⟨reads.complete, rfl⟩
  have whole : (read file source).result = .ok module := by
    rw [result_read_of_lines reads.readsHeader reads.readsLines, finishes, reads.named]
    exact congrArg _ reads.shape.symm
  simp only [parse, Run.observe_none, whole, Except.mapError]

/-- A line replaced in the header does not change the lines behind it. -/
theorem bodyLines_set
    {source : List Text}
    {header changed : Header}
    {position : Nat}
    (inHeader : position < header.length)
    (length : changed.length = header.length)
    (text : Text) :
    bodyLines (source.set position text) changed = bodyLines source header := by
  simp only [bodyLines, length, List.drop_set, if_pos inHeader]

/-- A module has the name that its first attribute gives it. -/
theorem name?_of_first
    {stated : Attribute}
    (named : stated.name = nameAttribute)
    (line : Nat)
    (others : List Node) :
    name? (stated.node line :: others) = some stated.value := by
  have isFirst : (stated.node line).name = nameAttribute := named
  simp only [name?, List.find?_cons, isFirst, decide_true]
  rfl

/-- With another name attribute in its place, a module is read with that
attribute and its value for a name. -/
theorem Reads.set
    {file : Text}
    {source : List Text}
    {header : Header}
    {final : Reading}
    {module first : Node}
    {others : List Node}
    {stated : Attribute}
    (reads : Reads file source header final module)
    (attributes : header.attributes = first :: others)
    (statable : stated.IsStatable)
    (named : stated.name = nameAttribute) :
    Reads file
      (source.set (Header.namePosition header.classFlags) stated.source)
      { header with
        attributes :=
          stated.node (Header.namePosition header.classFlags + 1) :: others }
      final
      ⟨stated.value, 1, .module file header.classFlags,
        stated.node (Header.namePosition header.classFlags + 1) ::
          (others ++ final.declarations.reverse ++ final.members.reverse)⟩ where
  readsHeader :=
    Header.read_of_isReadFrom
      ((Header.isReadFrom_of_read reads.readsHeader).set attributes statable named)
  readsLines := by
    rw [← reads.readsLines]
    refine congrArg (fun lines => (Reading.start.readLines lines).result) ?_
    exact
      bodyLines_set
        (Header.namePosition_lt_length (Header.isReadFrom_of_read reads.readsHeader))
        rfl stated.source
  complete := reads.complete
  named := name?_of_first named _ others
  shape := rfl

/-- A module can be renamed in its source.  If its name is written as a literal,
then writing the renamed attribute into the line that names the module gives a
source that reads as the renamed module, whatever stands in the name but a line
feed.  That module has the new name, and its name attribute holds it. -/
theorem parse_renameModule
    {file : Text}
    {source : List Text}
    {patience : Option Nat}
    {module : Node}
    {name : Text}
    (parsed : (parse file source patience).result = .ok module)
    (literal :
      ∃ value,
        (module.attribute? nameAttribute).map Node.payload =
          some (.attributeLine value true))
    (oneLine : '\n' ∉ name) :
    ∃ renamed written,
      module.renameModule? name = some renamed ∧
        (renamed.name = name ∧ renamed.moduleName? = some name) ∧
          (renamed.attribute? nameAttribute).bind Attribute.nodeSource? = some written ∧
            (parse file (source.set module.namePosition written) none).result =
              .ok renamed := by
  obtain ⟨header, final, reads⟩ := exists_reads_of_parse parsed
  obtain ⟨first, others, attributes, named, -⟩ :=
    (Header.wellFormed_of_read reads.readsHeader).first_names reads.named
  obtain ⟨-, text, stated, read, rfl⟩ :=
    Header.exists_stated_of_attributeAt
      ((Header.isReadFrom_of_read reads.readsHeader).first_stands attributes)
  replace named : stated.name = nameAttribute := named
  have isName (value : Text) (line : Nat) :
      isAttribute nameAttribute ((stated.withValue value).node line) = true :=
    decide_eq_true named
  have shape := reads.shape
  rw [attributes, List.cons_append, List.cons_append] at shape
  have quoted : stated.quoted = true := by
    obtain ⟨value, written⟩ := literal
    rw [attribute?_of_first (congrArg Node.children shape) (isName stated.value _)]
      at written
    have payload : stated.value = value ∧ stated.quoted = true := by
      simpa [Attribute.node] using written
    exact payload.2
  have place : module.namePosition = Header.namePosition header.classFlags := by
    rw [shape]
    rfl
  have statable :=
    (Attribute.isStatable_of_read? read).withValue quoted oneLine
  have renames :
      module.renameModule? name =
        some
          ⟨name, 1, .module file header.classFlags,
            (stated.withValue name).node (Header.namePosition header.classFlags + 1) ::
              (others ++ final.declarations.reverse ++ final.members.reverse)⟩ := by
    rw [shape, Attribute.node_withValue]
    exact renameModule?_of_first rfl (isName stated.value _) name
  obtain ⟨isRenamed, writes⟩ := writesTo_of_renameModule? renames
  refine
    ⟨_, (stated.withValue name).source, renames,
      ⟨isRenamed, writes.attributeValue?_eq⟩, ?_, ?_⟩
  · rw [attribute?_of_first rfl (isName name _)]
    exact Attribute.nodeSource?_node _ _
  · rw [place]
    exact parse_of_reads (reads.set attributes statable named)

/-- A class module whose name stands behind a member and is not closed. -/
theorem parse_renameModule_class :
    let source : List Text :=
      ["VERSION 1.0 CLASS", "BEGIN", "  MultiUse = -1  'True", "  Persistable = 0",
        "  DataBindingBehavior = 0", "  DataSourceBehavior = 0",
        "  MTSTransactionMode = 0", "END", "Attribute A.VB_Name = \"A",
        "Attribute VB_GlobalNameSpace = False", "Attribute VB_Creatable = True",
        "Attribute VB_PredeclaredId = False", "Attribute VB_Exposed = False",
        "Sub S()", "End Sub"]
    let name : Text := " it's \"B\": "
    ∃ module renamed written,
      (parse "A.cls" source none).result = .ok module ∧
        '\n' ∉ name ∧
          module.renameModule? name = some renamed ∧
            (renamed.name = name ∧ renamed.moduleName? = some name) ∧
              (renamed.attribute? nameAttribute).bind Attribute.nodeSource? =
                some written ∧
                (parse "A.cls" (source.set 8 written) none).result = .ok renamed := by
  intro source name
  have views :
      (parse "A.cls" source none).result.map
          (fun module =>
            ((module.attribute? nameAttribute).map Node.payload, module.namePosition)) =
        .ok (some (.attributeLine "A" true), 8) := by
    decide +kernel
  obtain ⟨module, parsed, seen⟩ := Run.exists_ok_of_map views
  obtain ⟨literal, place⟩ := Prod.mk.inj seen
  have oneLine : '\n' ∉ name := by
    decide
  obtain ⟨renamed, written, renames, named, states, readsAgain⟩ :=
    parse_renameModule parsed ⟨_, literal⟩ oneLine
  rw [place] at readsAgain
  exact ⟨module, renamed, written, parsed, oneLine, renames, named, states, readsAgain⟩

end Module

end ClassicBasic
