import ClassicBasic.Declaration.Block
import ClassicBasic.Line.Instruction
import ClassicBasic.Run

namespace ClassicBasic

/-!
# Declaration lines

A line of the declaration section declares what its instructions declare, up
to an instruction that is a comment in the older form.  An instruction may
open a block; then the instructions behind it wait until the block is closed.
The comment of a line belongs to the last declaration on it.
-/

/-- A declaration line of which instructions have been read. -/
structure DeclarationLine where
  number : Nat
  comment : Option Text
  /-- What the instructions so far declare, newest first. -/
  declared : List Node

/-- How far a declaration line can be read. -/
inductive DeclarationLine.Extent where
  /-- To its end, with all that it declares. -/
  | complete (declared : List Node)
  /-- Up to a block that it opens, with the instructions that wait. -/
  | opensBlock (line : DeclarationLine) (block : OpenBlock) (waiting : List Text)

namespace DeclarationLine

/-- A declaration line with one more node. -/
def declare (line : DeclarationLine) (node : Node) : DeclarationLine :=
  { line with declared := node :: line.declared }

/-- All that a line declares, in order.  If the last node is a declaration,
the comment of the line stands below it. -/
def finish (line : DeclarationLine) : List Node :=
  match line.declared, line.comment with
  | last :: before, some comment =>
      let commented :=
        if last.kind = .declaration then
          last.withChildren [Node.leaf .comment comment line.number]
        else
          last
      (commented :: before).reverse
  | declared, _ => declared.reverse

/-- The node of an instruction that names an interface. -/
def interfaceNode (interface : Text) (line : Nat) : Node :=
  (Node.leaf .interface interface line).withChildren
    [Node.typeReference interface line]

/-- Read the instructions of a line up to its end or to a block. -/
def readOn (line : DeclarationLine) : List Text → Run Extent
  | [] => pure (.complete line.finish)
  | text :: rest =>
      if Line.startsWithRem text then
        pure (.complete line.finish)
      else
        match DeclaringInstruction.read? text with
        | none => do
            Run.report (.nothingDeclared line.number text)
            line.readOn rest
        | some (.implements interface) =>
            (line.declare (interfaceNode interface line.number)).readOn rest
        | some (.externalProcedure statement) => do
            Run.reportAll
              (statement.skippedParameters.map (.parameterSkipped line.number))
            (line.declare (statement.node line.number)).readOn rest
        | some (.variables modifier keyword declarators) =>
            let nodes := declarators.map fun declarator =>
              declarator.node modifier keyword line.number
            { line with declared := nodes.reverse ++ line.declared }.readOn rest
        | some (.block modifier kind name) =>
            pure (.opensBlock line ⟨kind, modifier, name, line.number, []⟩ rest)

end DeclarationLine

end ClassicBasic
