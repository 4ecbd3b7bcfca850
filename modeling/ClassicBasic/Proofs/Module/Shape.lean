import ClassicBasic.Proofs.Header
import ClassicBasic.Proofs.Member.Body
import ClassicBasic.Proofs.Node.Shape
import ClassicBasic.Proofs.Reading
import ClassicBasic.Proofs.Signature

namespace ClassicBasic

open Node

/-!
# Every module obeys the grammar of trees

The grammar holds of a whole module because it holds of all that a reading has
gathered at any line: of the declarations and members so far, and of the parts
of the block or member that is still open.  Comments, attributes and bodies are
put below their nodes late, so the parts are kept apart until then.
-/

/-! ## Declaration lines -/

namespace DeclarationLine

/-- All that a line declares so far is well shaped and has no comment yet. -/
def Shaped (line : DeclarationLine) : Prop :=
  ∀ node ∈ line.declared, IsDeclared none node

/-- What a declaration line gives is well shaped as far as it has been read. -/
def Extent.Shaped : Extent → Prop
  | .complete declared => ∀ node ∈ declared, ∃ comment, IsDeclared comment node
  | .opensBlock line _ _ => line.Shaped

/-- A line may declare one more node of the right shape. -/
theorem Shaped.declare
    {line : DeclarationLine}
    {node : Node}
    (shaped : line.Shaped)
    (isDeclared : IsDeclared none node) :
    (line.declare node).Shaped := by
  intro other member
  rcases List.mem_cons.mp member with rfl | earlier
  · exact isDeclared
  · exact shaped other earlier

/-- At the end of a line its comment goes below the last declaration. -/
theorem Shaped.finish
    {line : DeclarationLine}
    (shaped : line.Shaped) :
    ∀ node ∈ line.finish, ∃ comment, IsDeclared comment node := by
  intro node member
  unfold DeclarationLine.finish at member
  split at member
  · next last before comment declared _ =>
      rw [List.mem_reverse, List.mem_cons] at member
      rcases member with isLast | earlier
      · have lastShaped : IsDeclared none last :=
          shaped last (by simp [declared])
        split at isLast
        · next isDeclaration =>
            subst node
            cases lastShaped with
            | declaration shape =>
                exact ⟨_, .declaration (shape.withComment .mk)⟩
            | interface shape =>
                cases shape
                cases isDeclaration
        · subst node
          exact ⟨none, lastShaped⟩
      · exact ⟨none, shaped node (by simp [declared, earlier])⟩
  · rw [List.mem_reverse] at member
    exact ⟨none, shaped node member⟩

/-- Variables come from the last of the three forms of an instruction. -/
theorem declaration?_of_read?
    {text : Text}
    {modifier : Option AccessModifier}
    {keyword : DeclarationKeyword}
    {declarators : List Declarator}
    (read :
      DeclaringInstruction.read? text =
        some (.variables modifier keyword declarators)) :
    DeclaringInstruction.declaration? text =
      some (.variables modifier keyword declarators) := by
  unfold DeclaringInstruction.read? at read
  cases interface : DeclaringInstruction.interface? text with
  | some name =>
      simp [interface] at read
  | none =>
      cases external : ExternalDeclaration.read? text with
      | some statement =>
          simp [interface, external] at read
      | none =>
          simpa [interface, external] using read

/-- The instructions of a line declare nodes of the right shape. -/
theorem Shaped.readOn
    {line : DeclarationLine}
    {texts : List Text}
    {extent : Extent}
    (shaped : line.Shaped)
    (reads : (line.readOn texts).result = .ok extent) :
    extent.Shaped := by
  -- The line is generalized, as every instruction adds to what it declares.
  induction texts generalizing line with
  | nil =>
      cases reads
      exact shaped.finish
  | cons text rest inductionHypothesis =>
      unfold DeclarationLine.readOn at reads
      split at reads
      · cases reads
        exact shaped.finish
      · split at reads
        · exact inductionHypothesis shaped reads
        · exact inductionHypothesis (shaped.declare (.interface .mk)) reads
        · next statement _ =>
            exact inductionHypothesis
              (shaped.declare
                (.declaration (isDeclaration_external statement line.number)))
              reads
        · next modifier keyword declarators read =>
            obtain ⟨isVariable, readable⟩ :=
              variables_of_declaration? (declaration?_of_read? read)
            refine inductionHypothesis ?_ reads
            intro node member
            rcases List.mem_append.mp member with isNew | earlier
            · obtain ⟨declarator, isDeclarator, rfl⟩ :=
                List.mem_map.mp (List.mem_reverse.mp isNew)
              obtain ⟨segment, readSegment⟩ := readable declarator isDeclarator
              exact .declaration
                (isDeclaration_variable readSegment isVariable modifier line.number)
            · exact shaped node earlier
        · cases reads
          exact shaped

end DeclarationLine

/-! ## Bodies and members -/

/-- All nodes that a body has so far are blocks of code. -/
structure OpenBody.IsCode (body : OpenBody) : Prop where
  items : ∀ node ∈ body.items, IsCodeBlock node
  regions : ∀ region ∈ body.regions, ∀ node ∈ region.items, IsCodeBlock node

/-- A region becomes a block of code. -/
theorem OpenRegion.isCodeBlock_node
    {region : OpenRegion}
    (isCode : ∀ node ∈ region.items, IsCodeBlock node) :
    IsCodeBlock region.node := by
  apply IsCodeBlock.mk
  intro node member
  exact isCode node (List.mem_reverse.mp member)

namespace OpenBody.IsCode

/-- A block of code may be put into any body. -/
theorem settle
    {items : List Node}
    {surplus : Nat}
    {node : Node}
    {regions : List OpenRegion}
    (isItems : ∀ node ∈ items, IsCodeBlock node)
    (isCode : IsCodeBlock node)
    (isRegions : ∀ region ∈ regions, ∀ node ∈ region.items, IsCodeBlock node) :
    (OpenBody.settle items surplus node regions).1.IsCode := by
  induction regions generalizing surplus node with
  | nil =>
      refine ⟨?_, by simp [OpenBody.settle]⟩
      intro other member
      rcases List.mem_cons.mp member with rfl | earlier
      · exact isCode
      · exact isItems other earlier
  | cons region outer inductionHypothesis =>
      have longer : ∀ other ∈ (region.add node).items, IsCodeBlock other := by
        intro other member
        rcases List.mem_cons.mp member with rfl | earlier
        · exact isCode
        · exact isRegions region (by simp) other earlier
      have isOuter :
          ∀ region ∈ outer, ∀ node ∈ region.items, IsCodeBlock node := by
        intro other member
        exact isRegions other (by simp [member])
      unfold OpenBody.settle
      split
      · exact inductionHypothesis (OpenRegion.isCodeBlock_node longer) isOuter
      · refine ⟨isItems, ?_⟩
        intro other member
        rcases List.mem_cons.mp member with rfl | isOther
        · exact longer
        · exact isOuter other isOther

/-- A line keeps a body made of blocks of code. -/
theorem readLine
    {body : OpenBody}
    (isCode : body.IsCode)
    (line : Line) :
    (body.readLine line).1.IsCode := by
  rcases body with ⟨items, regions, surplus⟩
  have leaf : IsCodeBlock (line.block []) :=
    .mk (by simp)
  have item : (OpenBody.readItem ⟨items, regions, surplus⟩ line).1.IsCode := by
    unfold OpenBody.readItem
    split
    · refine ⟨isCode.items, ?_⟩
      intro region member
      rcases List.mem_cons.mp member with rfl | isOpen
      · simp
      · exact isCode.regions region isOpen
    · exact settle isCode.items leaf isCode.regions
  cases regions with
  | nil =>
      exact item
  | cons region outer =>
      cases closes : region.closedBy? surplus line.code with
      | none =>
          rw [OpenBody.readLine_item (by simpa using closes)]
          exact item
      | some left =>
          rw [OpenBody.readLine_closing closes]
          exact settle isCode.items
            (OpenRegion.isCodeBlock_node (isCode.regions region (by simp)))
            fun other member => isCode.regions other (by simp [member])

end OpenBody.IsCode

/-- A signature is that of a property or of a method. -/
theorem Signature.kind_payload
    (signature : Signature) :
    signature.payload.kind = .property ∨ signature.payload.kind = .method := by
  unfold Signature.payload
  split
  · exact .inl rfl
  · exact .inr rfl

/-- A member with attributes and blocks of code is well shaped. -/
theorem Signature.isMember_memberNode
    (signature : Signature)
    (line : Nat)
    {attributes body : List Node}
    (isAttribute : ∀ node ∈ attributes, IsAttributeLine node)
    (isCode : ∀ node ∈ body, IsCodeBlock node) :
    IsMember (signature.memberNode line attributes body) := by
  have isParameter :
      ∀ node ∈
          signature.heading.parameters.elim [] fun list =>
            Parameter.nodes list line,
        IsParameter node := by
    intro node member
    cases list : signature.heading.parameters with
    | none =>
        simp [list] at member
    | some text =>
        rw [list] at member
        exact isParameter_of_mem_nodes member
  have isBlock :
      IsCodeBlock ⟨signature.heading.name, line, .codeBlock, body⟩ :=
    .mk isCode
  have whole :=
    IsMember.mk signature.kind_payload (signature.isIdentifier_identifier line)
      isParameter isAttribute isBlock
  simpa [Signature.memberNode, Signature.node, withChildren] using whole

/-! ## Readings -/

/-- What a place holds that has not been closed yet is well shaped. -/
def Place.Shaped : Place → Prop
  | .declarations => True
  | .members => True
  | .block opening _ _ => opening.Shaped
  | .member inner =>
      (∀ node ∈ inner.attributes, IsAttributeLine node) ∧ inner.body.IsCode

/-- All that a reading has gathered is well shaped. -/
structure Reading.Shaped (reading : Reading) : Prop where
  declarations : ∀ node ∈ reading.declarations, ∃ comment, IsDeclared comment node
  members : ∀ node ∈ reading.members, IsMember node
  place : reading.place.Shaped

namespace Reading.Shaped

/-- In front of the first line nothing has been gathered. -/
theorem start : Reading.start.Shaped :=
  ⟨by simp [Reading.start], by simp [Reading.start], trivial⟩

/-- A reading that moves to a place of the right shape keeps its own. -/
theorem movedTo
    {reading : Reading}
    {place : Place}
    (shaped : reading.Shaped)
    (isShaped : place.Shaped) :
    (reading.movedTo place).Shaped :=
  ⟨shaped.declarations, shaped.members, isShaped⟩

/-- Behind a declaration line its nodes are gathered in the right shape. -/
theorem afterInstructions
    {reading : Reading}
    {extent : DeclarationLine.Extent}
    (shaped : reading.Shaped)
    (isShaped : extent.Shaped) :
    (reading.afterInstructions extent).Shaped := by
  cases extent with
  | complete declared =>
      refine ⟨?_, shaped.members, trivial⟩
      intro node member
      rcases List.mem_append.mp member with isNew | earlier
      · exact isShaped node (List.mem_reverse.mp isNew)
      · exact shaped.declarations node earlier
  | opensBlock line block waiting =>
      exact ⟨shaped.declarations, shaped.members, isShaped⟩

/-- One more line keeps a reading well shaped. -/
theorem advances
    {line : Line}
    {reading next : Reading}
    (shaped : reading.Shaped)
    (advances : Reading.Advances line reading next) :
    next.Shaped := by
  cases advances with
  | silentDeclaration place unsigned silent =>
      exact shaped
  | declaration place unsigned loud reads =>
      exact shaped.afterInstructions
        (DeclarationLine.Shaped.readOn (by simp [DeclarationLine.Shaped,
          DeclarationLine.opening]) reads)
  | blockEnd place closes reads =>
      have isShaped := shaped.place
      rw [place] at isShaped
      exact shaped.afterInstructions
        (DeclarationLine.Shaped.readOn
          (DeclarationLine.Shaped.declare isShaped
            (.declaration (isDeclaration_block _)))
          reads)
  | blockLine place inside =>
      have isShaped := shaped.place
      rw [place] at isShaped
      exact shaped.movedTo isShaped
  | outside place plain =>
      exact shaped
  | memberStart place signed =>
      exact shaped.movedTo ⟨by simp, by simp [OpenBody.empty], by simp [OpenBody.empty]⟩
  | attributeLine place atTop inside states =>
      have isShaped := shaped.place
      rw [place] at isShaped
      refine shaped.movedTo ⟨?_, isShaped.2⟩
      intro node member
      rcases List.mem_cons.mp member with rfl | earlier
      · exact isAttributeLine_of_readNode? states
      · exact isShaped.1 node earlier
  | bodyLine place inside =>
      have isShaped := shaped.place
      rw [place] at isShaped
      exact shaped.movedTo ⟨isShaped.1, isShaped.2.readLine line⟩
  | memberEnd place atTop closes =>
      have isShaped := shaped.place
      rw [place] at isShaped
      refine ⟨shaped.declarations, ?_, trivial⟩
      intro node member
      rcases List.mem_cons.mp member with rfl | earlier
      · rw [OpenMember.node_eq]
        apply Signature.isMember_memberNode
        · intro node member
          exact isShaped.1 node (List.mem_reverse.mp member)
        · intro node member
          exact isShaped.2.items node (List.mem_reverse.mp member)
      · exact shaped.members node earlier

/-- Lines in a row keep a reading well shaped. -/
theorem readLines
    {reading final : Reading}
    {lines : List Line}
    (shaped : reading.Shaped)
    (reads : (reading.readLines lines).result = .ok final) :
    final.Shaped :=
  Reading.readLines_induction (motive := fun _ reading => reading.Shaped) shaped
    (fun _ earlier step => earlier.advances step) reads

end Reading.Shaped

/-! ## Headers -/

namespace Header

/-- An attribute of a header has the shape of an attribute line. -/
theorem isAttributeLine_of_attributeAt
    {source : List Text}
    {position : Nat}
    {node : Node}
    (read : attributeAt source position = .ok node) :
    IsAttributeLine node := by
  obtain ⟨text, -, stated⟩ := attributeAt_eq_ok_iff.mp read
  exact isAttributeLine_of_readNode? stated

/-- What the attributes of any header are: five with the name first in a class
module, and a single one in a plain module. -/
structure WellFormed (header : Header) : Prop where
  count : header.attributes.length = headerAttributes header.classFlags
  isAttribute : ∀ node ∈ header.attributes, IsAttributeLine node
  classNamed :
    header.classFlags.isSome →
      header.attributes.head?.map Node.name = some nameAttribute

/-- A header that is read is well formed. -/
theorem wellFormed_of_read
    {source : List Text}
    {header : Header}
    (reads : (read source).result = .ok header) :
    header.WellFormed := by
  cases isReadFrom_of_read reads with
  | ofClass first flagged stated =>
      obtain ⟨atPositions, named⟩ := mapM_of_attributesOf stated
      obtain ⟨count, isRead⟩ := attributes_of_mapM atPositions
      refine ⟨count, ?_, fun _ => named⟩
      intro node member
      obtain ⟨position, -, isStated⟩ := isRead node member
      exact isAttributeLine_of_attributeAt isStated
  | ofPlain first noClass stated =>
      refine ⟨rfl, ?_, ?_⟩
      · intro node member
        rw [List.mem_singleton.mp member]
        exact isAttributeLine_of_attributeAt stated
      · intro isClass
        cases isClass

/-- The name of a module comes from the first attribute of its header. -/
theorem WellFormed.first_names
    {header : Header}
    {name : Text}
    (wellFormed : header.WellFormed)
    (named : Module.name? header.attributes = some name) :
    ∃ first others,
      header.attributes = first :: others ∧
        first.name = nameAttribute ∧ first.value? = some name := by
  obtain ⟨found, isFound, gives⟩ := Option.bind_eq_some_iff.mp named
  have foundNamed : found.name = nameAttribute := by
    simpa using List.find?_some isFound
  have count := wellFormed.count
  have classNamed := wellFormed.classNamed
  rcases header with ⟨classFlags, _ | ⟨first, others⟩, length⟩
  · simp at isFound
  · refine ⟨first, others, rfl, ?_⟩
    have firstNamed : first.name = nameAttribute := by
      cases classFlags with
      | some flags =>
          simpa using classNamed rfl
      | none =>
          have alone : others = [] := by
            simpa [headerAttributes] using count
          subst alone
          have same : found = first :=
            List.mem_singleton.mp (List.mem_of_find?_eq_some isFound)
          exact same ▸ foundNamed
    have same : first = found := by
      simpa [firstNamed] using isFound
    exact ⟨firstNamed, same ▸ gives⟩

end Header

/-! ## Modules -/

namespace Module

/-- The grammar holds of every module that has been read, whatever the source
is, and the module has the name that its attributes give it. -/
theorem isModule_of_parse
    {file : Text}
    {source : List Text}
    {patience : Option Nat}
    {module : Node}
    (parsed : (parse file source patience).result = .ok module) :
    IsModule file module ∧ module.moduleName? = some module.name := by
  obtain ⟨header, final, reads⟩ := exists_reads_of_parse parsed
  have shaped := Reading.Shaped.start.readLines reads.readsLines
  have wellFormed := Header.wellFormed_of_read reads.readsHeader
  obtain ⟨first, others, isAttributes, named, gives⟩ :=
    wellFormed.first_names reads.named
  have isAttribute := wellFormed.isAttribute
  have count := wellFormed.count
  have shape := reads.shape
  rw [isAttributes] at isAttribute count shape
  have isModule :
      IsModule file
        ⟨module.name, 1, .module file header.classFlags,
          first :: others ++ final.declarations.reverse ++ final.members.reverse⟩ := by
    refine .mk named gives count isAttribute ?_ ?_
    · intro node member
      exact shaped.declarations node (List.mem_reverse.mp member)
    · intro node member
      exact shaped.members node (List.mem_reverse.mp member)
  refine ⟨shape ▸ isModule, ?_⟩
  have firstIsAttribute : Node.isAttribute nameAttribute first = true := by
    have kind := (isAttribute first (by simp)).kind_eq
    simp [Node.isAttribute, kind, named]
  rw [shape]
  simp [moduleName?, attributeValue?, attribute?, firstIsAttribute, gives]

/-- The grammar holds of a module with an interface, a type with a comment and
a method that has a parameter, an attribute and a condition. -/
theorem isModule_of_parse_method :
    ∃ (source : List Text) (module : Node),
      (parse "A.bas" source none).result = .ok module ∧
        module.children.map Node.kind =
          [.attributeLine, .interface, .declaration, .method] ∧
        IsModule "A.bas" module ∧ module.moduleName? = some module.name := by
  let source : List Text :=
    ["Attribute VB_Name = \"A\"", "Implements B", "Type T", "x As Long",
      "End Type ' c", "Sub S(y)", "Attribute S.VB_UserMemId = 0", "If y Then",
      "z = 1", "End If", "End Sub"]
  have views :
      (parse "A.bas" source none).result.map
          (fun module => module.children.map Node.kind) =
        .ok [.attributeLine, .interface, .declaration, .method] := by
    decide +kernel
  obtain ⟨module, parsed, kinds⟩ := Run.exists_ok_of_map views
  exact ⟨source, module, parsed, kinds, isModule_of_parse parsed⟩

end Module

end ClassicBasic
