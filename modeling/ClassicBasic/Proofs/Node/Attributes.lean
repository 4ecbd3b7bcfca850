import ClassicBasic.Node.Update
import Mathlib.Data.List.Nodup

namespace ClassicBasic.Node

/-!
# Reading and writing attributes

A value is written into the first attribute of its name, which is also the one that is
looked up, indexed and renamed.  `WritesTo` says all that a write changes; the laws of
reading behind writing follow from its shape.
-/

/-! ## The first attribute of a name -/

variable
  {node changed : Node}
  {name value : Text}

/-- An attribute is found by its kind and its name. -/
theorem isAttribute_iff :
    isAttribute name node = true ↔ node.kind = .attributeLine ∧ node.name = name := by
  simp [isAttribute]

/-- An attribute with a name has a value and a way of writing it. -/
theorem exists_of_isAttribute
    (isNamed : isAttribute name node = true) :
    ∃ line old quoted below,
      node = ⟨name, line, .attributeLine old quoted, below⟩ := by
  obtain ⟨isLine, rfl⟩ := isAttribute_iff.mp isNamed
  rcases node with ⟨name, line, payload, below⟩
  cases payload with
  | attributeLine old quoted =>
      exact ⟨line, old, quoted, below, rfl⟩
  | _ =>
      cases isLine

/-- Whether a node becomes another by a value for the first of its attributes with a
name, and in nothing else. -/
inductive WritesTo (name value : Text) : Node → Node → Prop where
  | mk
      {title : Text}
      {line attributeLine : Nat}
      {payload : Payload}
      {front below behind : List Node}
      {old : Text}
      {quoted : Bool}
      (isFirst :
        ∀ child ∈ front, ¬(child.kind = .attributeLine ∧ child.name = name)) :
      WritesTo name value
        ⟨title, line, payload,
          front ++ ⟨name, attributeLine, .attributeLine old quoted, below⟩ :: behind⟩
        ⟨title, line, payload,
          front ++ ⟨name, attributeLine, .attributeLine value quoted, below⟩ :: behind⟩

/-- The first attribute of a name gets the value, and its neighbours stay. -/
theorem setValueIn?_append
    {front behind : List Node}
    {line : Nat}
    {old : Text}
    {quoted : Bool}
    {below : List Node}
    (isFirst : ∀ child ∈ front, ¬(child.kind = .attributeLine ∧ child.name = name)) :
    setValueIn? name value
        (front ++ ⟨name, line, .attributeLine old quoted, below⟩ :: behind) =
      some (front ++ ⟨name, line, .attributeLine value quoted, below⟩ :: behind) := by
  induction front with
  | nil =>
      have isNamed :
          isAttribute name ⟨name, line, .attributeLine old quoted, below⟩ = true :=
        isAttribute_iff.mpr ⟨rfl, rfl⟩
      rw [List.nil_append, setValueIn?, if_pos isNamed]
      rfl
  | cons child front inductionHypothesis =>
      obtain ⟨other, inFront⟩ := List.forall_mem_cons.mp isFirst
      rw [List.cons_append, setValueIn?, if_neg (mt isAttribute_iff.mp other),
        inductionHypothesis inFront]
      rfl

/-- Where a value has been written there is a first attribute of the name. -/
theorem exists_of_setValueIn?
    {nodes result : List Node}
    (writes : setValueIn? name value nodes = some result) :
    ∃ front line old quoted below behind,
      (∀ child ∈ front, ¬(child.kind = .attributeLine ∧ child.name = name)) ∧
        nodes = front ++ ⟨name, line, .attributeLine old quoted, below⟩ :: behind := by
  induction nodes generalizing result with
  | nil =>
      cases writes
  | cons child rest inductionHypothesis =>
      by_cases isNamed : isAttribute name child = true
      · obtain ⟨line, old, quoted, below, rfl⟩ := exists_of_isAttribute isNamed
        exact ⟨[], line, old, quoted, below, rest, by simp, rfl⟩
      · rw [setValueIn?, if_neg isNamed] at writes
        obtain ⟨changed, writesRest, -⟩ := Option.map_eq_some_iff.mp writes
        obtain ⟨front, line, old, quoted, below, behind, isFirst, rfl⟩ :=
          inductionHypothesis writesRest
        refine ⟨child :: front, line, old, quoted, below, behind, ?_, rfl⟩
        exact
          List.forall_mem_cons.mpr ⟨mt isAttribute_iff.mpr isNamed, isFirst⟩

/-- A write does what it says, and no more. -/
theorem setAttributeValue?_eq_some_iff :
    node.setAttributeValue? name value = some changed ↔ WritesTo name value node changed := by
  constructor
  · intro writes
    obtain ⟨children, inChildren, rfl⟩ := Option.map_eq_some_iff.mp writes
    rcases node with ⟨title, line, payload, before⟩
    obtain ⟨front, attributeLine, old, quoted, below, behind, isFirst, rfl⟩ :=
      exists_of_setValueIn? inChildren
    rw [setValueIn?_append isFirst] at inChildren
    cases inChildren
    exact .mk isFirst
  · rintro ⟨isFirst⟩
    rw [setAttributeValue?, setValueIn?_append isFirst]
    rfl

/-- A value is written exactly where an attribute of the name is found. -/
theorem isSome_setValueIn?
    (nodes : List Node) :
    (setValueIn? name value nodes).isSome = (nodes.find? (isAttribute name)).isSome := by
  induction nodes with
  | nil =>
      rfl
  | cons child rest inductionHypothesis =>
      by_cases isNamed : isAttribute name child = true
      · rw [setValueIn?, if_pos isNamed, List.find?_cons_of_pos isNamed]
        rfl
      · rw [setValueIn?, if_neg isNamed, List.find?_cons_of_neg isNamed, Option.isSome_map,
          inductionHypothesis]

/-- A value can be written exactly where an attribute is found. -/
theorem isSome_setAttributeValue?
    (node : Node)
    (name value : Text) :
    (node.setAttributeValue? name value).isSome = (node.attribute? name).isSome := by
  rw [setAttributeValue?, Option.isSome_map, isSome_setValueIn?]
  rfl

/-! ## Reading behind writing -/

/-- The first attribute of a name is the one that is found. -/
theorem attribute?_append
    {title : Text}
    {line attributeLine : Nat}
    {payload : Payload}
    {front below behind : List Node}
    {old : Text}
    {quoted : Bool}
    (isFirst : ∀ child ∈ front, ¬(child.kind = .attributeLine ∧ child.name = name)) :
    attribute?
        ⟨title, line, payload,
          front ++ ⟨name, attributeLine, .attributeLine old quoted, below⟩ :: behind⟩
        name =
      some ⟨name, attributeLine, .attributeLine old quoted, below⟩ := by
  have notInFront : front.find? (isAttribute name) = none :=
    List.find?_eq_none.mpr fun child member =>
      mt isAttribute_iff.mp (isFirst child member)
  have isNamed :
      isAttribute name ⟨name, attributeLine, .attributeLine old quoted, below⟩ = true :=
    isAttribute_iff.mpr ⟨rfl, rfl⟩
  rw [attribute?, List.find?_append, notInFront, Option.none_or,
    List.find?_cons_of_pos isNamed]

/-- The names of the attributes below a node, repeated ones included. -/
def attributeNames (node : Node) : List Text :=
  (node.childrenOfKind .attributeLine).map Node.name

namespace WritesTo

/-- A value that has been written is read back. -/
theorem attributeValue?_eq
    (writes : WritesTo name value node changed) :
    changed.attributeValue? name = some value := by
  obtain ⟨isFirst⟩ := writes
  rw [attributeValue?, attribute?_append isFirst]
  rfl

/-- Attributes of other names are found as before. -/
theorem attribute?_of_ne
    {other : Text}
    (writes : WritesTo name value node changed)
    (different : name ≠ other) :
    changed.attribute? other = node.attribute? other := by
  have notNamed {line : Nat} {payload : Payload} {below : List Node} :
      ¬isAttribute other ⟨name, line, payload, below⟩ = true :=
    fun isNamed => different (isAttribute_iff.mp isNamed).2
  obtain ⟨isFirst⟩ := writes
  simp only [attribute?, List.find?_append, List.find?_cons_of_neg notNamed]

/-- What has been written is lost to the next write. -/
theorem setAttributeValue?_again
    (writes : WritesTo name value node changed)
    (next : Text) :
    changed.setAttributeValue? name next = node.setAttributeValue? name next := by
  obtain ⟨isFirst⟩ := writes
  rw [setAttributeValue?_eq_some_iff.mpr (.mk isFirst),
    setAttributeValue?_eq_some_iff.mpr (.mk isFirst)]

/-- Writing the value that is there changes nothing. -/
theorem eq_of_attributeValue?
    (writes : WritesTo name value node changed)
    (present : node.attributeValue? name = some value) :
    changed = node := by
  obtain ⟨isFirst⟩ := writes
  rw [attributeValue?, attribute?_append isFirst] at present
  cases present
  rfl

/-- A write changes no name. -/
theorem attributeNames_eq
    (writes : WritesTo name value node changed) :
    changed.attributeNames = node.attributeNames := by
  obtain ⟨isFirst⟩ := writes
  simp [attributeNames, childrenOfKind, kind, Payload.kind]

end WritesTo

/-! ## Sequences of writes -/

/-- A node behind an attempt to write a value. -/
def afterWrite (node : Node) (name value : Text) : Node :=
  (node.setAttributeValue? name value).getD node

/-- A node behind several attempts to write, each a name and a value. -/
def afterWrites (node : Node) (writes : List (Text × Text)) : Node :=
  writes.foldl (fun node write => node.afterWrite write.1 write.2) node

/-- An attempt to write fails and changes nothing, or it succeeds and changes one value. -/
theorem afterWrite_cases
    (node : Node)
    (name value : Text) :
    (node.setAttributeValue? name value = none ∧ node.afterWrite name value = node) ∨
      node.setAttributeValue? name value = some (node.afterWrite name value) ∧
        WritesTo name value node (node.afterWrite name value) := by
  unfold afterWrite
  cases writes : node.setAttributeValue? name value with
  | none =>
      exact .inl ⟨rfl, rfl⟩
  | some changed =>
      exact .inr ⟨rfl, setAttributeValue?_eq_some_iff.mp writes⟩

/-- An attempt to write changes no name, whether it succeeds or not. -/
theorem attributeNames_afterWrite
    (node : Node)
    (name value : Text) :
    (node.afterWrite name value).attributeNames = node.attributeNames := by
  rcases node.afterWrite_cases name value with ⟨-, same⟩ | ⟨-, writes⟩
  · rw [same]
  · exact writes.attributeNames_eq

/-- No sequence of writes adds, takes or renames an attribute. -/
theorem attributeNames_afterWrites
    (node : Node)
    (writes : List (Text × Text)) :
    (node.afterWrites writes).attributeNames = node.attributeNames := by
  induction writes generalizing node with
  | nil =>
      rfl
  | cons write writes inductionHypothesis =>
      rw [afterWrites, List.foldl_cons]
      exact (inductionHypothesis _).trans (attributeNames_afterWrite ..)

/-! ## The index -/

/-- Whether a list is an index of the attributes below a node: each of their names is
the key of one entry, and that entry is the attribute that is found by the name. -/
structure IsIndex (node : Node) (index : List (Text × Node)) : Prop where
  keys :
    ∀ name,
      name ∈ index.map Prod.fst ↔
        ∃ child ∈ node.children, child.kind = .attributeLine ∧ child.name = name
  distinct : (index.map Prod.fst).Nodup
  lookup : ∀ name, index.lookup name = node.attribute? name

section Entering

variable
  {index others : List (Text × Node)}
  {entry : Text × Node}

/-- What is found in a list of entries depends on its first entry and on the others. -/
theorem lookup_entry_cons
    (entry : Text × Node)
    (index : List (Text × Node))
    (name : Text) :
    (entry :: index).lookup name =
      if entry.1 = name then some entry.2 else index.lookup name := by
  rcases entry with ⟨key, node⟩
  by_cases same : key = name
  · rw [if_pos same, same, List.lookup_cons_self]
  · have different : (name == key) = false := by
      simpa using Ne.symm same
    rw [if_neg same, List.lookup_cons, different]

/-- The names in an index are those under which a node is found. -/
theorem mem_keys_iff :
    name ∈ index.map Prod.fst ↔ (index.lookup name).isSome = true := by
  simp [List.lookup_isSome_iff]

/-- A name that no entry has so far is found with its entry, and every other name as
before. -/
theorem lookup_insertByName
    (isNew : index.lookup entry.1 = none)
    (name : Text) :
    (insertByName entry index).lookup name =
      if entry.1 = name then some entry.2 else index.lookup name := by
  induction index with
  | nil =>
      exact lookup_entry_cons ..
  | cons next rest inductionHypothesis =>
      rw [insertByName]
      split
      · rw [lookup_entry_cons] at isNew
        split at isNew
        · cases isNew
        · next different =>
            rw [lookup_entry_cons, lookup_entry_cons, inductionHypothesis isNew]
            by_cases isNext : next.1 = name
            · have notEntry : entry.1 ≠ name :=
                fun isEntry => different (isNext.trans isEntry.symm)
              rw [if_pos isNext, if_pos isNext, if_neg notEntry]
            · rw [if_neg isNext, if_neg isNext]
      · exact lookup_entry_cons ..

/-- Inserting an entry keeps the entries that are there. -/
theorem insertByName_perm
    (entry : Text × Node)
    (index : List (Text × Node)) :
    (insertByName entry index).Perm (entry :: index) := by
  induction index with
  | nil =>
      exact .refl _
  | cons next rest inductionHypothesis =>
      rw [insertByName]
      split
      · exact (inductionHypothesis.cons next).trans (.swap entry next rest)
      · exact .refl _

/-- A node is found under its name if nothing was found there before. -/
theorem lookup_enterFirst
    (index : List (Text × Node))
    (node : Node)
    (name : Text) :
    (enterFirst index node).lookup name =
      (index.lookup name).or (if node.name = name then some node else none) := by
  rw [enterFirst]
  split
  · next taken =>
      split
      · next same =>
          rw [Option.or_of_isSome (same ▸ taken)]
      · rw [Option.or_none]
  · next free =>
      have isNew : index.lookup node.name = none :=
        Option.not_isSome_iff_eq_none.mp free
      rw [lookup_insertByName isNew]
      split
      · next same =>
          rw [← same, isNew, Option.none_or]
      · rw [Option.or_none]

/-- Of the nodes entered one after the other, the first of each name is found. -/
theorem lookup_foldl_enterFirst
    (nodes : List Node)
    (index : List (Text × Node))
    (name : Text) :
    (nodes.foldl enterFirst index).lookup name =
      (index.lookup name).or (nodes.find? fun node => node.name = name) := by
  induction nodes generalizing index with
  | nil =>
      rw [List.foldl_nil, List.find?_nil, Option.or_none]
  | cons node rest inductionHypothesis =>
      rw [List.foldl_cons, inductionHypothesis, lookup_enterFirst, Option.or_assoc]
      by_cases same : node.name = name
      · simp [same]
      · simp [same]

/-- No name is entered twice. -/
theorem nodup_keys_foldl_enterFirst
    (nodes : List Node)
    (distinct : (index.map Prod.fst).Nodup) :
    ((nodes.foldl enterFirst index).map Prod.fst).Nodup := by
  induction nodes generalizing index with
  | nil =>
      exact distinct
  | cons node rest inductionHypothesis =>
      refine inductionHypothesis ?_
      rw [enterFirst]
      split
      · exact distinct
      · next free =>
          have inserted := (insertByName_perm (node.name, node) index).map Prod.fst
          exact inserted.nodup_iff.mpr (List.nodup_cons.mpr ⟨mt mem_keys_iff.mp free, distinct⟩)

/-- Where an entry is inserted depends on the names alone. -/
theorem map_fst_insertByName
    (sameKeys : index.map Prod.fst = others.map Prod.fst)
    (name : Text)
    (node other : Node) :
    (insertByName (name, node) index).map Prod.fst =
      (insertByName (name, other) others).map Prod.fst := by
  induction index generalizing others with
  | nil =>
      rw [List.map_eq_nil_iff.mp sameKeys.symm]
      rfl
  | cons next rest inductionHypothesis =>
      obtain ⟨otherNext, otherRest, rfl, sameNext, sameRest⟩ :=
        List.map_eq_cons_iff.mp sameKeys.symm
      rw [insertByName, insertByName, sameNext]
      split
      · rw [List.map_cons, List.map_cons, sameNext, inductionHypothesis sameRest.symm]
      · exact congrArg (name :: ·) sameKeys

/-- Which names are entered, and in which order, depends on the names alone. -/
theorem map_fst_foldl_enterFirst
    {nodes otherNodes : List Node}
    (sameNames : nodes.map Node.name = otherNodes.map Node.name)
    (sameKeys : index.map Prod.fst = others.map Prod.fst) :
    (nodes.foldl enterFirst index).map Prod.fst =
      (otherNodes.foldl enterFirst others).map Prod.fst := by
  induction nodes generalizing otherNodes index others with
  | nil =>
      rw [List.map_eq_nil_iff.mp sameNames.symm]
      exact sameKeys
  | cons node rest inductionHypothesis =>
      obtain ⟨otherNode, otherRest, rfl, sameName, sameRest⟩ :=
        List.map_eq_cons_iff.mp sameNames.symm
      rw [List.foldl_cons, List.foldl_cons]
      refine inductionHypothesis sameRest.symm ?_
      have sameTaken :
          (index.lookup node.name).isSome = true ↔
            (others.lookup otherNode.name).isSome = true := by
        rw [← mem_keys_iff, ← mem_keys_iff, sameKeys, sameName]
      rw [enterFirst, enterFirst]
      by_cases taken : (index.lookup node.name).isSome = true
      · rw [if_pos taken, if_pos (sameTaken.mp taken), sameKeys]
      · rw [if_neg taken, if_neg (mt sameTaken.mpr taken), sameName]
        exact map_fst_insertByName sameKeys ..

end Entering

/-- What is found in the index of a node is the first attribute of the name. -/
theorem lookup_attributeIndex
    (node : Node)
    (name : Text) :
    node.attributeIndex.lookup name = node.attribute? name := by
  rw [attributeIndex, lookup_foldl_enterFirst, List.lookup_nil, Option.none_or,
    childrenOfKind, List.find?_filter, attribute?]
  simp only [decide_eq_true_eq, Bool.decide_and]
  rfl

/-- The attributes of a node are indexed as they are found by their names. -/
theorem isIndex_attributeIndex
    (node : Node) :
    IsIndex node node.attributeIndex where
  keys := by
    intro name
    rw [mem_keys_iff, lookup_attributeIndex, attribute?, List.find?_isSome]
    simp only [isAttribute_iff]
  distinct :=
    nodup_keys_foldl_enterFirst _ List.nodup_nil
  lookup :=
    node.lookup_attributeIndex

/-- The names in an index and their order are those of the attributes. -/
theorem map_fst_attributeIndex
    (sameNames : changed.attributeNames = node.attributeNames) :
    changed.attributeIndex.map Prod.fst = node.attributeIndex.map Prod.fst :=
  map_fst_foldl_enterFirst sameNames rfl

/-! ## Renaming -/

/-- A node behind an attempt to rename it. -/
def afterRename (node : Node) (name : Text) : Node :=
  (node.renameModule? name).getD node

/-- A write into a node is a write into the node under another name. -/
theorem WritesTo.withName
    {key : Text}
    (writes : WritesTo key value node changed)
    (name : Text) :
    WritesTo key value { node with name := name } { changed with name := name } := by
  obtain ⟨isFirst⟩ := writes
  exact .mk isFirst

/-- A module is renamed in its own name and in the value of its first name attribute. -/
theorem writesTo_of_renameModule?
    (renames : node.renameModule? name = some changed) :
    changed.name = name ∧ WritesTo nameAttribute name { node with name := name } changed := by
  obtain ⟨written, writes, rfl⟩ := Option.map_eq_some_iff.mp renames
  exact ⟨rfl, (setAttributeValue?_eq_some_iff.mp writes).withName name⟩

/-! ## The laws together -/

/-- Attributes are read and written like fields.  A write succeeds exactly if the
attribute is found; it is read back, leaves every other attribute alone, changes one value
only, outdoes the write before it and changes nothing if it writes what is there.  The
index names all attributes and finds what is looked up, whatever has been written, and a
module is renamed exactly if it has a name attribute, in that and in its own name. -/
theorem attribute_lens
    (node : Node)
    {name other : Text}
    (different : name ≠ other)
    (value next : Text)
    (writes : List (Text × Text)) :
    ((node.setAttributeValue? name value).isSome = (node.attribute? name).isSome ∧
      (node.setAttributeValue? name value = none → node.afterWrite name value = node) ∧
      (∀ changed,
        node.setAttributeValue? name value = some changed →
          node.afterWrite name value = changed ∧
            changed.attributeValue? name = some value ∧
              WritesTo name value node changed) ∧
      (node.afterWrite name value).attribute? other = node.attribute? other ∧
      (node.afterWrite name value).setAttributeValue? name next =
        node.setAttributeValue? name next ∧
      (node.attributeValue? name = some value →
        node.setAttributeValue? name value = some node)) ∧
    (IsIndex (node.afterWrites writes) (node.afterWrites writes).attributeIndex ∧
      (node.afterWrites writes).attributeIndex.map Prod.fst =
        node.attributeIndex.map Prod.fst) ∧
    ((node.renameModule? value).isSome = (node.attribute? nameAttribute).isSome ∧
      (node.renameModule? value = none → node.afterRename value = node) ∧
      (∀ renamed,
        node.renameModule? value = some renamed →
          node.afterRename value = renamed ∧
            renamed.name = value ∧
              renamed.moduleName? = some value ∧
                WritesTo nameAttribute value { node with name := value } renamed)) := by
  refine ⟨⟨isSome_setAttributeValue? .., ?_, ?_, ?_, ?_, ?_⟩, ⟨?_, ?_⟩, ?_, ?_, ?_⟩
  · intro fails
    rw [afterWrite, fails, Option.getD_none]
  · intro changed succeeds
    have written := setAttributeValue?_eq_some_iff.mp succeeds
    rw [afterWrite, succeeds, Option.getD_some]
    exact ⟨rfl, written.attributeValue?_eq, written⟩
  · rcases node.afterWrite_cases name value with ⟨-, same⟩ | ⟨-, written⟩
    · rw [same]
    · exact written.attribute?_of_ne different
  · rcases node.afterWrite_cases name value with ⟨-, same⟩ | ⟨-, written⟩
    · rw [same]
    · exact written.setAttributeValue?_again next
  · intro present
    rcases node.afterWrite_cases name value with ⟨fails, -⟩ | ⟨succeeds, written⟩
    · have found := isSome_setAttributeValue? node name value
      obtain ⟨first, isFirst, -⟩ := Option.bind_eq_some_iff.mp present
      rw [fails, isFirst] at found
      cases found
    · rw [succeeds, written.eq_of_attributeValue? present]
  · exact isIndex_attributeIndex _
  · exact map_fst_attributeIndex (attributeNames_afterWrites ..)
  · rw [renameModule?, Option.isSome_map, isSome_setAttributeValue?]
  · intro fails
    rw [afterRename, fails, Option.getD_none]
  · intro renamed succeeds
    obtain ⟨named, written⟩ := writesTo_of_renameModule? succeeds
    rw [afterRename, succeeds, Option.getD_some]
    exact ⟨rfl, named, written.attributeValue?_eq, written⟩

/-- A module with a comment and two attributes of one name, of which the first is written
and another with that value already is not. -/
theorem attribute_lens_repeated :
    let node : Node :=
      ⟨"M", 1, .module "M.bas" none,
        [leaf .comment "A" 1, leaf (.attributeLine "1" true) "A" 2,
          leaf (.attributeLine "2" false) "VB_Name" 3,
          leaf (.attributeLine "3" false) "A" 4]⟩
    let changed : Node :=
      ⟨"M", 1, .module "M.bas" none,
        [leaf .comment "A" 1, leaf (.attributeLine "3" true) "A" 2,
          leaf (.attributeLine "2" false) "VB_Name" 3,
          leaf (.attributeLine "3" false) "A" 4]⟩
    ("A" : Text) ≠ "VB_Name" ∧
      node.setAttributeValue? "A" "3" = some changed ∧
        changed.attributeValue? "A" = some "3" ∧
          WritesTo "A" "3" node changed ∧
            changed.attribute? "VB_Name" = node.attribute? "VB_Name" := by
  intro node changed
  have different : ("A" : Text) ≠ "VB_Name" := by
    decide
  have succeeds : node.setAttributeValue? "A" "3" = some changed :=
    rfl
  obtain ⟨⟨-, -, written, frame, -⟩, -⟩ := attribute_lens node different "3" "" []
  obtain ⟨same, reads, writes⟩ := written changed succeeds
  rw [same] at frame
  exact ⟨different, succeeds, reads, writes, frame⟩

end ClassicBasic.Node
