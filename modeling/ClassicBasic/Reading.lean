import ClassicBasic.Declaration.Line
import ClassicBasic.Member

namespace ClassicBasic

/-!
# Reading the lines behind a header

The logical lines behind a module's header are read one by one.  First come
declarations, up to the first line that is a signature; from there on come
members and the lines between them.  A reading knows what has been read and
the place that it is at.
-/

/-- Where the next line stands. -/
inductive Place where
  | declarations
  /-- Inside a block, with the declaration line that opens it and the
  instructions that wait there. -/
  | block (line : DeclarationLine) (block : OpenBlock) (waiting : List Text)
  | members
  | member (member : OpenMember)

/-- What has been read of the lines behind a header. -/
structure Reading where
  /-- The declarations so far, newest first. -/
  declarations : List Node
  /-- The members so far, newest first. -/
  members : List Node
  place : Place

namespace Reading

/-- A reading of no lines. -/
def start : Reading :=
  ⟨[], [], .declarations⟩

/-- Go on behind instructions of a declaration line. -/
def afterInstructions (reading : Reading) :
    DeclarationLine.Extent → Reading
  | .complete declared =>
      { reading with
        declarations := declared.reverse ++ reading.declarations
        place := .declarations }
  | .opensBlock line block waiting =>
      { reading with place := .block line block waiting }

/-- Read a line of the declaration section. -/
def readDeclaration (reading : Reading) (line : Line) : Run Reading :=
  if isSilent line.code then
    pure reading
  else do
    let instructions := (Instruction.split line.code).map (·.text)
    let opening : DeclarationLine := ⟨line.number, (Line.splitComment line.text).2, []⟩
    let extent ← opening.readOn instructions
    pure (reading.afterInstructions extent)

/-- Read a line inside a block of declarations. -/
def readBlock
    (reading : Reading)
    (opening : DeclarationLine)
    (block : OpenBlock)
    (waiting : List Text)
    (line : Line) :
    Run Reading :=
  if line.code = block.kind.terminator.text then do
    let extent ← (opening.declare block.node).readOn waiting
    pure (reading.afterInstructions extent)
  else do
    Run.reportAll (OpenBlock.reports block.kind line)
    let longer := { block with lines := line :: block.lines }
    pure { reading with place := .block opening longer waiting }

/-- Open a member. -/
def openMember (reading : Reading) (signature : Signature) (line : Line) :
    Run Reading := do
  let member ← OpenMember.ofSignature signature line.number
  pure { reading with place := .member member }

/-- Read a line between members. -/
def readOutside (reading : Reading) (line : Line) : Run Reading :=
  if isSilent line.code then
    pure reading
  else
    match Signature.read? line.code with
    | some signature => reading.openMember signature line
    | none => do
        Run.report (.lineOutsideMembers line.number line.text)
        pure reading

/-- Read the signature that ends the declaration section.  It is looked at
twice, first as a possible end and then as a member, and the first look
reports skipped parameters without a line. -/
def endDeclarations (reading : Reading) (signature : Signature) (line : Line) :
    Run Reading := do
  Run.reportAll (signature.skippedParameters.map (.parameterSkipped 0))
  Run.report (.declarationsEnd line.number)
  Run.look line.number
  reading.openMember signature line

/-- Read a line inside a member. -/
def readMember (reading : Reading) (member : OpenMember) (line : Line) :
    Run Reading := do
  match ← member.readLine line with
  | .stillOpen longer => pure { reading with place := .member longer }
  | .closed node =>
      pure { reading with members := node :: reading.members, place := .members }

/-- Read one more line. -/
def readLine (reading : Reading) (line : Line) : Run Reading := do
  Run.look line.number
  match reading.place with
  | .declarations =>
      match Signature.read? line.code with
      | some signature => reading.endDeclarations signature line
      | none => reading.readDeclaration line
  | .block opening block waiting => reading.readBlock opening block waiting line
  | .members => reading.readOutside line
  | .member member => reading.readMember member line

/-- Read lines in order. -/
def readLines (reading : Reading) : List Line → Run Reading
  | [] => pure reading
  | line :: rest => do
      let next ← reading.readLine line
      next.readLines rest

/-- The declarations and the members of a reading at the end of its source.
No block may be open there. -/
def finish (reading : Reading) : Except Fault (List Node × List Node) :=
  match reading.place with
  | .declarations | .members =>
      .ok (reading.declarations.reverse, reading.members.reverse)
  | .block _ block _ =>
      .error (.unterminatedBlock block.kind.terminator block.line)
  | .member member => .error member.unterminated

end Reading

end ClassicBasic
