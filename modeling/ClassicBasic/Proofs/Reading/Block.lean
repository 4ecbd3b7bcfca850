import ClassicBasic.Proofs.Module.Shape
import ClassicBasic.Proofs.Node.Block

namespace ClassicBasic

open Node

/-!
# Blocks in the lines of a declaration section

An instruction that opens a block takes the lines behind it up to the first that is
the terminator of the block, and the instructions behind it go on from there.  So the
lines of a block stand behind its declaration line and behind the blocks of all
instructions in front of its own.  Every node of a block that a reading has gathered
comes from such lines.
-/

/-! ## Lines of blocks -/

/-- Lines that lead to some of the instructions of a declaration line: they hold the
line, and behind it the blocks of the instructions in front, each with its
terminator. -/
inductive LeadTo : List Line → Line → List Text → Prop where
  | opening
      {front : List Line}
      {line : Line}
      {before : Reading}
      (reads : (Reading.start.readLines front).result = .ok before)
      (between : before.place = .declarations)
      (unsigned : Signature.read? line.code = none)
      (loud : isSilent line.code = false) :
      LeadTo (front ++ [line]) line ((Instruction.split line.code).map (·.text))
  | plain
      {lines : List Line}
      {line : Line}
      {text : Text}
      {waiting : List Text}
      (lead : LeadTo lines line (text :: waiting))
      (noComment : Line.startsWithRem text = false)
      (opensNone :
        ∀ modifier kind name,
          DeclaringInstruction.read? text ≠ some (.block modifier kind name)) :
      LeadTo lines line waiting
  | block
      {lines inside : List Line}
      {line closing : Line}
      {text : Text}
      {waiting : List Text}
      {modifier : Option AccessModifier}
      {kind : BlockKind}
      {name : Text}
      (lead : LeadTo lines line (text :: waiting))
      (noComment : Line.startsWithRem text = false)
      (opens :
        DeclaringInstruction.read? text = some (.block modifier kind name))
      (within : ∀ line ∈ inside, line.code ≠ kind.terminator.text)
      (closes : closing.code = kind.terminator.text) :
      LeadTo (lines ++ (inside ++ [closing])) line waiting

/-- Lines that end inside a block, which the given instructions of its declaration
line wait for. -/
inductive EndInside
    (lines : List Line)
    (line : Line)
    (block : OpenBlock)
    (waiting : List Text) :
    Prop where
  | mk
      {front : List Line}
      {text : Text}
      (split : lines = front ++ block.lines.reverse)
      (lead : LeadTo front line (text :: waiting))
      (noComment : Line.startsWithRem text = false)
      (opens :
        DeclaringInstruction.read? text =
          some (.block block.modifier block.kind block.name))
      (stands : block.line = line.number)
      (within : ∀ line ∈ block.lines, line.code ≠ block.kind.terminator.text) :
      EndInside lines line block waiting

/-- Lines that hold a block: they end inside it before its terminator. -/
inductive HoldBlock : List Line → OpenBlock → Prop where
  | mk
      {lines behind : List Line}
      {line closing : Line}
      {block : OpenBlock}
      {waiting : List Text}
      (inside : EndInside lines line block waiting)
      (closes : closing.code = block.kind.terminator.text) :
      HoldBlock (lines ++ closing :: behind) block

section

variable
  {lines : List Line}
  {line : Line}
  {block : OpenBlock}
  {waiting : List Text}

/-- Lines that hold a block do so with more lines behind them. -/
theorem HoldBlock.append
    (holds : HoldBlock lines block)
    (more : List Line) :
    HoldBlock (lines ++ more) block := by
  cases holds with
  | mk inside closes =>
      rw [List.append_assoc]
      exact .mk inside closes

/-- A line that is no terminator is one more line of a block. -/
theorem EndInside.push
    {next : Line}
    (inside : EndInside lines line block waiting)
    (within : next.code ≠ block.kind.terminator.text) :
    EndInside (lines ++ [next]) line { block with lines := next :: block.lines }
      waiting := by
  cases inside with
  | mk split lead noComment opens stands earlier =>
      exact
        .mk (by simp [split]) lead noComment opens stands
          (List.forall_mem_cons.mpr ⟨within, earlier⟩)

/-- Behind the terminator of a block stand the instructions that wait for it. -/
theorem EndInside.close
    {closing : Line}
    (inside : EndInside lines line block waiting)
    (closes : closing.code = block.kind.terminator.text) :
    LeadTo (lines ++ [closing]) line waiting := by
  cases inside with
  | mk split lead noComment opens stands earlier =>
      rw [split, List.append_assoc]
      exact .block lead noComment opens (by simpa using earlier) closes

end

/-! ## Nodes of blocks -/

/-- Whether a node that declares a block is that of a block in some lines, but for
comments below it. -/
def Node.IsFromBlock (lines : List Line) (node : Node) : Prop :=
  ∀ kind,
    node.blockKind? = some kind →
      ∃ block comments,
        HoldBlock lines block ∧ block.kind = kind ∧
          (∀ comment ∈ comments, comment.kind = .comment) ∧
            node = block.node.withChildren comments

section

variable
  {lines : List Line}
  {node : Node}

/-- A node that comes from a block does so with more lines behind it. -/
theorem Node.IsFromBlock.append
    (isFrom : node.IsFromBlock lines)
    (more : List Line) :
    node.IsFromBlock (lines ++ more) := by
  intro kind isBlock
  obtain ⟨block, comments, holds, found⟩ := isFrom kind isBlock
  exact ⟨block, comments, holds.append more, found⟩

/-- Of a node that is no block nothing is asked. -/
theorem Node.isFromBlock_of_none
    (plain : node.blockKind? = none) :
    node.IsFromBlock lines := by
  intro kind isBlock
  simp [plain] at isBlock

/-- A comment below a block does not change where the block comes from. -/
theorem Node.IsFromBlock.withComment
    {comment : Node}
    (isFrom : node.IsFromBlock lines)
    (isComment : comment.kind = .comment) :
    (node.withChildren [comment]).IsFromBlock lines := by
  intro kind isBlock
  obtain ⟨block, comments, holds, isKind, areComments, rfl⟩ := isFrom kind isBlock
  refine ⟨block, comments ++ [comment], holds, isKind, ?_, ?_⟩
  · simpa [or_imp, forall_and, isComment] using areComments
  · simp [withChildren]

/-- The node of an open block is a block of its kind. -/
theorem OpenBlock.blockKind?_node
    (block : OpenBlock) :
    block.node.blockKind? = some block.kind := by
  rcases block with ⟨_ | _, modifier, name, line, inside⟩ <;>
    rfl

/-- The node of a block comes from lines that hold the block. -/
theorem OpenBlock.isFromBlock_node
    {block : OpenBlock}
    (holds : HoldBlock lines block) :
    block.node.IsFromBlock lines := by
  intro kind isBlock
  rw [block.blockKind?_node, Option.some.injEq] at isBlock
  have uncommented : block.node = block.node.withChildren [] := by
    simp only [withChildren, List.append_nil]
    rfl
  exact ⟨block, [], holds, isBlock, by simp, uncommented⟩

/-- Variables and constants are no blocks. -/
theorem Declarator.blockKind?_node
    {keyword : DeclarationKeyword}
    (declares : declaresVariables keyword = true)
    (declarator : Declarator)
    (modifier : Option AccessModifier)
    (line : Nat) :
    (declarator.node modifier keyword line).blockKind? = none := by
  cases keyword with
  | type | enum => cases declares
  | _ => rfl

end

/-! ## Declaration lines -/

namespace DeclarationLine

/-- What a declaration line declares so far comes from the blocks before. -/
structure Holds (lines : List Line) (line : Line) (opened : DeclarationLine) : Prop where
  number : opened.number = line.number
  declared : ∀ node ∈ opened.declared, node.IsFromBlock lines

/-- What a declaration line gives as far as it is read comes from the blocks before,
and a block that it opens begins there. -/
def Extent.Holds (lines : List Line) : Extent → Prop
  | .complete declared => ∀ node ∈ declared, node.IsFromBlock lines
  | .opensBlock opened block waiting =>
      ∃ line, opened.Holds lines line ∧ EndInside lines line block waiting

variable
  {lines : List Line}
  {line : Line}
  {opened : DeclarationLine}

/-- What comes from some lines comes from more lines as well. -/
theorem Holds.append
    (holds : opened.Holds lines line)
    (more : List Line) :
    opened.Holds (lines ++ more) line where
  number := holds.number
  declared := fun node isDeclared => (holds.declared node isDeclared).append more

/-- Declared nodes that come from the lines may be added all at once. -/
theorem Holds.declareAll
    {nodes : List Node}
    (holds : opened.Holds lines line)
    (areFrom : ∀ node ∈ nodes, node.IsFromBlock lines) :
    Holds lines line { opened with declared := nodes ++ opened.declared } where
  number := holds.number
  declared := List.forall_mem_append.mpr ⟨areFrom, holds.declared⟩

/-- A declared node that comes from the lines may be added. -/
theorem Holds.declare
    {node : Node}
    (holds : opened.Holds lines line)
    (isFrom : node.IsFromBlock lines) :
    (opened.declare node).Holds lines line := by
  have areFrom : ∀ other ∈ [node], other.IsFromBlock lines := by
    simpa using isFrom
  exact holds.declareAll areFrom

/-- The comment of a line changes nothing about the blocks on it. -/
theorem Holds.finish
    (holds : opened.Holds lines line) :
    ∀ node ∈ opened.finish, node.IsFromBlock lines := by
  intro node isDeclared
  unfold DeclarationLine.finish at isDeclared
  split at isDeclared
  · next last before comment declared _ =>
      rw [List.mem_reverse, List.mem_cons] at isDeclared
      rcases isDeclared with rfl | earlier
      · have lastFrom := holds.declared last (by simp [declared])
        split
        · exact lastFrom.withComment rfl
        · exact lastFrom
      · exact holds.declared node (by simp [declared, earlier])
  · exact holds.declared node (List.mem_reverse.mp isDeclared)

/-- What is declared behind the blocks of some instructions comes from these blocks. -/
theorem Holds.readOn
    {texts : List Text}
    {extent : Extent}
    (holds : opened.Holds lines line)
    (lead : LeadTo lines line texts)
    (reads : (opened.readOn texts).result = .ok extent) :
    extent.Holds lines := by
  -- Each instruction that is no block leads on to the next; a block ends the reading of
  -- the line.
  induction texts generalizing opened with
  | nil =>
      cases reads
      exact holds.finish
  | cons text rest inductionHypothesis =>
      unfold DeclarationLine.readOn at reads
      split at reads
      · cases reads
        exact holds.finish
      · next noComment =>
        replace noComment : Line.startsWithRem text = false := by
          simpa using noComment
        split at reads
        · next declares =>
            exact
              inductionHypothesis holds (lead.plain noComment (by simp [declares])) reads
        · next declares =>
            exact
              inductionHypothesis (holds.declare (isFromBlock_of_none rfl))
                (lead.plain noComment (by simp [declares])) reads
        · next declares =>
            exact
              inductionHypothesis (holds.declare (isFromBlock_of_none rfl))
                (lead.plain noComment (by simp [declares])) reads
        · next modifier keyword declarators declares =>
            have isVariable :=
              (variables_of_declaration? (declaration?_of_read? declares)).1
            refine
              inductionHypothesis (holds.declareAll ?_)
                (lead.plain noComment (by simp [declares])) reads
            intro node isNode
            obtain ⟨declarator, -, rfl⟩ :=
              List.mem_map.mp (List.mem_reverse.mp isNode)
            exact isFromBlock_of_none (declarator.blockKind?_node isVariable _ _)
        · next modifier kind name declares =>
            cases reads
            exact
              ⟨line, holds,
                .mk (by simp) lead noComment declares holds.number (by simp)⟩

end DeclarationLine

/-! ## Readings -/

/-- What is known of the block at a place of a reading. -/
def Place.Holds (lines : List Line) : Place → Prop
  | .block opened unfinished waiting =>
      ∃ line, opened.Holds lines line ∧ EndInside lines line unfinished waiting
  | .declarations => True
  | .members => True
  | .member _ => True

namespace Reading

/-- All blocks that a reading has gathered come from the lines before it. -/
structure Holds (lines : List Line) (reading : Reading) : Prop where
  declarations : ∀ node ∈ reading.declarations, node.IsFromBlock lines
  place : reading.place.Holds lines

namespace Holds

variable
  {lines : List Line}
  {line : Line}
  {reading next : Reading}

/-- A reading that moves on gathers no node. -/
theorem movedTo
    {place : Place}
    (holds : reading.Holds lines)
    (more : List Line)
    (placeHolds : place.Holds (lines ++ more)) :
    (reading.movedTo place).Holds (lines ++ more) where
  declarations := fun node isNode => (holds.declarations node isNode).append more
  place := placeHolds

/-- Behind a declaration line its nodes are gathered, or its block is open. -/
theorem afterInstructions
    {extent : DeclarationLine.Extent}
    (holds : reading.Holds lines)
    (more : List Line)
    (extentHolds : extent.Holds (lines ++ more)) :
    (reading.afterInstructions extent).Holds (lines ++ more) := by
  cases extent with
  | opensBlock opened block waiting =>
      exact holds.movedTo more extentHolds
  | complete declared =>
      refine ⟨List.forall_mem_append.mpr ⟨?_, ?_⟩, trivial⟩
      · intro node isNew
        exact extentHolds node (List.mem_reverse.mp isNew)
      · intro node isEarlier
        exact (holds.declarations node isEarlier).append more

/-- One more line keeps what is known of blocks. -/
theorem advances
    (reads : (Reading.start.readLines lines).result = .ok reading)
    (holds : reading.Holds lines)
    (advances : Reading.Advances line reading next) :
    next.Holds (lines ++ [line]) := by
  have placed := holds.place
  -- A block is complete with its last line, where the instructions that wait are read
  -- on.
  cases advances with
  | silentDeclaration place unsigned silent
  | outside place plain =>
      exact holds.movedTo [line] (by rw [place]; trivial)
  | declaration place unsigned loud readsOn =>
      have opened :
          (DeclarationLine.opening line).Holds (lines ++ [line]) line :=
        ⟨rfl, by simp [DeclarationLine.opening]⟩
      exact
        holds.afterInstructions [line]
          (opened.readOn (.opening reads place unsigned loud) readsOn)
  | blockEnd place closes readsOn =>
      rw [place] at placed
      obtain ⟨first, opened, inside⟩ := placed
      have isFrom : (OpenBlock.node _).IsFromBlock (lines ++ [line]) :=
        OpenBlock.isFromBlock_node (.mk inside closes)
      exact
        holds.afterInstructions [line]
          (((opened.append [line]).declare isFrom).readOn (inside.close closes) readsOn)
  | blockLine place within =>
      rw [place] at placed
      obtain ⟨first, opened, inside⟩ := placed
      exact holds.movedTo [line] ⟨first, opened.append [line], inside.push within⟩
  | memberStart place signed
  | attributeLine place atTop inside states
  | bodyLine place inside =>
      exact holds.movedTo [line] trivial
  | memberEnd place atTop closes =>
      have closed : (reading.movedTo .members).Holds (lines ++ [line]) :=
        holds.movedTo [line] trivial
      exact ⟨closed.declarations, trivial⟩

/-- Blocks come from lines that are read in a row. -/
theorem readLines
    {final : Reading}
    (reads : (Reading.start.readLines lines).result = .ok final) :
    final.Holds lines := by
  refine Reading.readLines_induction ?_ ?_ reads
  · exact ⟨by simp [Reading.start], trivial⟩
  · intro before line reading next isRead inductionHypothesis step
    exact inductionHypothesis.advances isRead step

end Holds

end Reading

end ClassicBasic
