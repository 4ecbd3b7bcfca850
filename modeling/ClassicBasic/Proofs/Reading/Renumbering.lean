import ClassicBasic.Proofs.Member.Renumbering
import ClassicBasic.Reading

namespace ClassicBasic

/-!
# Renumbering readings

A reading of renumbered lines is the reading of the lines, renumbered.  One
line is the step, and all lines in a row follow from it.  The first look at the
signature that ends the declarations reports parameters without a line, which
is why the renumbering has to keep line zero.
-/

/-! ## Declaration lines -/

namespace DeclarationLine

/-- A declaration line with other line numbers. -/
def renumber
    (f : Nat → Nat)
    (line : DeclarationLine) :
    DeclarationLine :=
  { line with
    number := f line.number
    declared := line.declared.map (Node.renumber f) }

/-- How far a declaration line can be read, with other line numbers. -/
def Extent.renumber (f : Nat → Nat) : Extent → Extent
  | .complete declared => .complete (declared.map (Node.renumber f))
  | .opensBlock line block waiting =>
      .opensBlock (line.renumber f) (block.renumber f) waiting

variable (f : Nat → Nat)

/-- A declaration moves with the line that declares it. -/
theorem declare_renumber
    (line : DeclarationLine)
    (node : Node) :
    (line.renumber f).declare (node.renumber f) =
      (line.declare node).renumber f :=
  rfl

/-- An implemented interface moves with its line. -/
theorem renumber_interfaceNode
    (interface : Text)
    (line : Nat) :
    (interfaceNode interface line).renumber f =
      interfaceNode interface (f line) := by
  simp [interfaceNode]

/-- The nodes of a declaration line move with it, and so does its comment. -/
theorem finish_renumber
    (line : DeclarationLine) :
    (line.renumber f).finish = line.finish.map (Node.renumber f) := by
  rcases line with ⟨number, comment, declared⟩
  cases declared with
  | nil =>
      cases comment <;>
        rfl
  | cons last before =>
      cases comment with
      | none =>
          simp [finish, renumber]
      | some comment =>
          by_cases declares : last.kind = .declaration <;>
            simp [finish, renumber, declares]

/-- Instructions do not look at the number of their line. -/
theorem readOn_renumber
    (line : DeclarationLine)
    (texts : List Text) :
    (line.renumber f).readOn texts =
      (line.readOn texts).renumber f (Extent.renumber f) := by
  induction texts generalizing line with
  | nil =>
      simp only [readOn, finish_renumber]
      rfl
  | cons text rest inductionHypothesis =>
      simp only [readOn, finish_renumber]
      split
      · rfl
      · rcases DeclaringInstruction.read? text with _ | instruction
        · simp only [Run.renumber_report_bind, inductionHypothesis]
          rfl
        · rcases instruction with
            interface | statement | ⟨modifier, keyword, declarators⟩ | block
          · simp only [← inductionHypothesis, ← declare_renumber,
              renumber_interfaceNode]
            rfl
          · simp only [Run.renumber_reportAll_bind, ← inductionHypothesis,
              ← declare_renumber, ExternalDeclaration.renumber_node, List.map_map]
            rfl
          · simp only [← inductionHypothesis]
            simp [renumber, Function.comp_def]
          · rfl

end DeclarationLine

/-! ## Readings -/

/-- The place of the next line, with other line numbers. -/
def Place.renumber (f : Nat → Nat) : Place → Place
  | .declarations => .declarations
  | .block opening opened waiting =>
      .block (opening.renumber f) (opened.renumber f) waiting
  | .members => .members
  | .member opened => .member (opened.renumber f)

namespace Reading

/-- A reading with other line numbers. -/
def renumber
    (f : Nat → Nat)
    (reading : Reading) :
    Reading :=
  ⟨reading.declarations.map (Node.renumber f),
    reading.members.map (Node.renumber f), reading.place.renumber f⟩

variable {f : Nat → Nat}

/-- What is behind the instructions of a line moves with the line. -/
theorem afterInstructions_renumber
    (reading : Reading)
    (extent : DeclarationLine.Extent) :
    (reading.renumber f).afterInstructions (extent.renumber f) =
      (reading.afterInstructions extent).renumber f := by
  cases extent with
  | complete declared =>
      simp [afterInstructions, DeclarationLine.Extent.renumber, renumber,
        Place.renumber]
  | opensBlock line block waiting =>
      rfl

/-- A line among the declarations is read alike wherever it stands. -/
theorem readDeclaration_renumber
    (reading : Reading)
    (line : Line) :
    (reading.renumber f).readDeclaration (line.renumber f) =
      (reading.readDeclaration line).renumber f (renumber f) := by
  by_cases silent : isSilent line.code = true
  · simp [readDeclaration, silent]
  · have alsoMoved : ¬isSilent (line.renumber f).code = true :=
      silent
    simp only [readDeclaration, if_neg silent, if_neg alsoMoved]
    apply Run.bind_renumber
    · exact DeclarationLine.readOn_renumber f
        ⟨line.number, (Line.splitComment line.text).2, []⟩ _
    · intro extent _
      rw [Run.renumber_pure, afterInstructions_renumber]

/-- A line inside a block is read alike wherever it stands. -/
theorem readBlock_renumber
    (reading : Reading)
    (opening : DeclarationLine)
    (block : OpenBlock)
    (waiting : List Text)
    (line : Line) :
    (reading.renumber f).readBlock (opening.renumber f) (block.renumber f) waiting
        (line.renumber f) =
      (reading.readBlock opening block waiting line).renumber f (renumber f) := by
  have sameKind : (block.renumber f).kind = block.kind :=
    rfl
  by_cases closes : line.code = block.kind.terminator.text
  · simp only [readBlock, Line.code_renumber, sameKind, if_pos closes]
    apply Run.bind_renumber
    · rw [OpenBlock.node_renumber, DeclarationLine.declare_renumber]
      exact DeclarationLine.readOn_renumber f _ _
    · intro extent _
      rw [Run.renumber_pure, afterInstructions_renumber]
  · simp only [readBlock, Line.code_renumber, sameKind, if_neg closes,
      Run.renumber_reportAll_bind, OpenBlock.reports_renumber]
    rfl

/-- A member opens alike wherever its signature stands. -/
theorem openMember_renumber
    (reading : Reading)
    (signature : Signature)
    (line : Line) :
    (reading.renumber f).openMember signature (line.renumber f) =
      (reading.openMember signature line).renumber f (renumber f) := by
  apply Run.bind_renumber
  · exact OpenMember.ofSignature_renumber f signature line.number
  · intro member _
    rfl

/-- A line between members is read alike wherever it stands. -/
theorem readOutside_renumber
    (reading : Reading)
    (line : Line) :
    (reading.renumber f).readOutside (line.renumber f) =
      (reading.readOutside line).renumber f (renumber f) := by
  by_cases silent : isSilent line.code = true
  · simp [readOutside, silent]
  · have alsoMoved : ¬isSilent (line.renumber f).code = true :=
      silent
    simp only [readOutside, if_neg silent, if_neg alsoMoved]
    rw [Line.code_renumber]
    cases Signature.read? line.code with
    | none =>
        rfl
    | some signature =>
        exact openMember_renumber reading signature line

/-- The first member ends the declarations alike wherever it stands. -/
theorem endDeclarations_renumber
    (keepsZero : f 0 = 0)
    (reading : Reading)
    (signature : Signature)
    (line : Line) :
    (reading.renumber f).endDeclarations signature (line.renumber f) =
      (reading.endDeclarations signature line).renumber f (renumber f) := by
  have sameSkipped :
      (signature.skippedParameters.map (.parameterSkipped 0)).map
          (Event.renumber f) =
        signature.skippedParameters.map (.parameterSkipped 0) := by
    simp [Event.renumber, keepsZero]
  simp only [endDeclarations, Run.renumber_reportAll_bind,
    Run.renumber_report_bind, Run.renumber_look_bind, sameSkipped,
    openMember_renumber]
  rfl

/-- A line inside a member is read alike wherever it stands. -/
theorem readMember_renumber
    (reading : Reading)
    (member : OpenMember)
    (line : Line) :
    (reading.renumber f).readMember (member.renumber f) (line.renumber f) =
      (reading.readMember member line).renumber f (renumber f) := by
  apply Run.bind_renumber
  · exact OpenMember.readLine_renumber f member line
  · intro outcome _
    cases outcome <;>
      rfl

/-- Reading one renumbered line. -/
theorem readLine_renumber
    (keepsZero : f 0 = 0)
    (reading : Reading)
    (line : Line) :
    (reading.renumber f).readLine (line.renumber f) =
      (reading.readLine line).renumber f (renumber f) := by
  rcases reading with ⟨declarations, members, place⟩
  simp only [readLine, Run.renumber_look_bind]
  cases place with
  | declarations =>
      cases signed : Signature.read? line.code with
      | none =>
          simp only [← readDeclaration_renumber]
          simp [renumber, Place.renumber, signed]
      | some signature =>
          simp only [← endDeclarations_renumber keepsZero]
          simp [renumber, Place.renumber, signed]
  | block opening block waiting =>
      simp only [← readBlock_renumber]
      rfl
  | members =>
      simp only [← readOutside_renumber]
      rfl
  | member member =>
      simp only [← readMember_renumber]
      rfl

/-- Reading renumbered lines in a row. -/
theorem readLines_renumber
    (keepsZero : f 0 = 0)
    (reading : Reading)
    (lines : List Line) :
    (reading.renumber f).readLines (lines.map (Line.renumber f)) =
      (reading.readLines lines).renumber f (renumber f) := by
  induction lines generalizing reading with
  | nil =>
      rfl
  | cons line rest inductionHypothesis =>
      simp only [List.map_cons, readLines]
      apply Run.bind_renumber
      · exact readLine_renumber keepsZero reading line
      · intro next _
        exact inductionHypothesis next

/-- The declarations and members of a module, with other line numbers. -/
def renumberSections (f : Nat → Nat) :
    List Node × List Node → List Node × List Node :=
  Prod.map (List.map (Node.renumber f)) (List.map (Node.renumber f))

/-- A reading ends alike, with the fault of what is open at its other line. -/
theorem finish_renumber
    (reading : Reading) :
    (reading.renumber f).finish =
      (reading.finish.map (renumberSections f)).mapError (Fault.renumber f) := by
  rcases reading with ⟨declarations, members, place⟩
  cases place with
  | member member =>
      simp only [finish, renumber, Place.renumber,
        OpenMember.unterminated_renumber]
      rfl
  | block line block waiting =>
      rfl
  | declarations | members =>
      simp [finish, renumber, Place.renumber, renumberSections, Except.map,
        Except.mapError]

end Reading

end ClassicBasic
