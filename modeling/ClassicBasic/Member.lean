import ClassicBasic.Attribute
import ClassicBasic.Line.Comment
import ClassicBasic.Member.Body
import ClassicBasic.Node.Display
import ClassicBasic.Run
import ClassicBasic.Signature

namespace ClassicBasic

/-!
# Members

A member is read from its signature to its terminator.  Outside all regions of
the body an attribute line belongs to the member itself; every other line goes
into the body.
-/

/-- A member whose terminator has not been read. -/
structure OpenMember where
  signature : Signature
  /-- The physical line of the signature. -/
  line : Nat
  /-- The attributes so far, newest first. -/
  attributes : List Node
  body : OpenBody

/-- What a member is after one more line. -/
inductive OpenMember.Outcome where
  | stillOpen (member : OpenMember)
  | closed (node : Node)

namespace OpenMember

/-- The member that a signature opens. -/
def ofSignature (signature : Signature) (line : Nat) : Run OpenMember := do
  Run.reportAll (signature.skippedParameters.map (.parameterSkipped line))
  Run.report (.memberOpens line (signature.node line).display)
  pure ⟨signature, line, [], .empty⟩

/-- The node of a member that is closed outside all regions. -/
def node (member : OpenMember) : Node :=
  let opening := member.signature.node member.line
  opening.withChildren
    (member.attributes.reverse ++
      [⟨opening.name, member.line, .codeBlock, member.body.items.reverse⟩])

/-- Read a line into the body. -/
def readBody (member : OpenMember) (line : Line) : Run Outcome := do
  let (body, events) := member.body.readLine line
  Run.reportAll events
  pure (.stillOpen { member with body := body })

/-- Read one more line. -/
def readLine (member : OpenMember) (line : Line) : Run Outcome :=
  if member.body.regions.isEmpty then
    if line.code = member.signature.terminator.text then
      pure (.closed member.node)
    else
      match Attribute.readNode? line.text line.number with
      | some stated =>
          pure (.stillOpen { member with attributes := stated :: member.attributes })
      | none => member.readBody line
  else
    member.readBody line

/-- What the end of the source leaves unterminated: the innermost region, or
the member itself. -/
def unterminated (member : OpenMember) : Fault :=
  match member.body.regions with
  | [] => .unterminatedBlock member.signature.terminator member.line
  | region :: _ => .unterminatedBlock region.kind.terminator region.opening.number

end OpenMember

end ClassicBasic
