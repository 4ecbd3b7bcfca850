import ClassicBasic.Module
import ClassicBasic.Proofs.Run
import Mathlib.Data.List.Induction

namespace ClassicBasic

/-!
# What one line does to a reading

Every fact about the lines behind a header is a fact about single lines first.
`Reading.Advances` lists the ways in which a line can change a reading, with
all that is known of the line in each case; `Reading.advances_of_readLine` says
that there is no other way.  Whatever each of these ways preserves is preserved
by all lines in a row, which is `Reading.readLines_induction`.
-/

namespace DeclarationLine

/-- A line of the declaration section before any of its instructions is read. -/
def opening (line : Line) : DeclarationLine :=
  ⟨line.number, (Line.splitComment line.text).2, []⟩

end DeclarationLine

namespace Reading

/-- A reading at another place. -/
def movedTo
    (reading : Reading)
    (place : Place) :
    Reading :=
  { reading with place := place }

/-- A reading with one more member, behind that member. -/
def closeMember
    (reading : Reading)
    (node : Node) :
    Reading :=
  { reading with members := node :: reading.members, place := .members }

/-- Whether the next line stands outside all blocks and members. -/
def IsOutside (reading : Reading) : Prop :=
  reading.place = .declarations ∨ reading.place = .members

/-- How a line takes a reading on to the next one. -/
inductive Advances (line : Line) : Reading → Reading → Prop where
  /-- An empty line or comment between declarations. -/
  | silentDeclaration
      {reading : Reading}
      (place : reading.place = .declarations)
      (unsigned : Signature.read? line.code = none)
      (silent : isSilent line.code = true) :
      Advances line reading reading
  /-- A line whose instructions declare something, or nothing. -/
  | declaration
      {reading : Reading}
      {extent : DeclarationLine.Extent}
      (place : reading.place = .declarations)
      (unsigned : Signature.read? line.code = none)
      (loud : isSilent line.code = false)
      (reads :
        ((DeclarationLine.opening line).readOn
            ((Instruction.split line.code).map (·.text))).result =
          .ok extent) :
      Advances line reading (reading.afterInstructions extent)
  /-- The terminator of a block, and the instructions that waited for it. -/
  | blockEnd
      {reading : Reading}
      {opening : DeclarationLine}
      {block : OpenBlock}
      {waiting : List Text}
      {extent : DeclarationLine.Extent}
      (place : reading.place = .block opening block waiting)
      (closes : line.code = block.kind.terminator.text)
      (reads :
        ((opening.declare block.node).readOn waiting).result = .ok extent) :
      Advances line reading (reading.afterInstructions extent)
  /-- A line inside a block. -/
  | blockLine
      {reading : Reading}
      {opening : DeclarationLine}
      {block : OpenBlock}
      {waiting : List Text}
      (place : reading.place = .block opening block waiting)
      (inside : line.code ≠ block.kind.terminator.text) :
      Advances line reading
        (reading.movedTo
          (.block opening { block with lines := line :: block.lines } waiting))
  /-- A line between members. -/
  | outside
      {reading : Reading}
      (place : reading.place = .members)
      (plain : isSilent line.code = true ∨ Signature.read? line.code = none) :
      Advances line reading reading
  /-- A signature, which opens a member. -/
  | memberStart
      {reading : Reading}
      {signature : Signature}
      (place : reading.IsOutside)
      (signed : Signature.read? line.code = some signature) :
      Advances line reading
        (reading.movedTo (.member ⟨signature, line.number, [], .empty⟩))
  /-- An attribute line of a member. -/
  | attributeLine
      {reading : Reading}
      {member : OpenMember}
      {stated : Node}
      (place : reading.place = .member member)
      (atTop : member.body.regions = [])
      (inside : line.code ≠ member.signature.terminator.text)
      (states : Attribute.readNode? line.text line.number = some stated) :
      Advances line reading
        (reading.movedTo
          (.member { member with attributes := stated :: member.attributes }))
  /-- A line of a member's body. -/
  | bodyLine
      {reading : Reading}
      {member : OpenMember}
      (place : reading.place = .member member)
      (inside :
        member.body.regions = [] →
          line.code ≠ member.signature.terminator.text ∧
            Attribute.readNode? line.text line.number = none) :
      Advances line reading
        (reading.movedTo
          (.member { member with body := (member.body.readLine line).1 }))
  /-- The terminator of a member. -/
  | memberEnd
      {reading : Reading}
      {member : OpenMember}
      (place : reading.place = .member member)
      (atTop : member.body.regions = [])
      (closes : line.code = member.signature.terminator.text) :
      Advances line reading (reading.closeMember member.node)

/-- A line among the declarations is read as an advance by that line. -/
theorem advances_of_readDeclaration
    {reading next : Reading}
    {line : Line}
    (place : reading.place = .declarations)
    (unsigned : Signature.read? line.code = none)
    (reads : (reading.readDeclaration line).result = .ok next) :
    Advances line reading next := by
  unfold readDeclaration at reads
  split at reads
  · next silent =>
      simp only [Run.result_pure, Except.ok.injEq] at reads
      subst next
      exact .silentDeclaration place unsigned silent
  · next loud =>
      obtain ⟨extent, instructions, continues⟩ :=
        Run.result_bind_eq_ok_iff.mp reads
      simp only [Run.result_pure, Except.ok.injEq] at continues
      subst next
      exact .declaration place unsigned (by simpa using loud) instructions

/-- A line in an open block is read as an advance by that line. -/
theorem advances_of_readBlock
    {reading next : Reading}
    {opening : DeclarationLine}
    {block : OpenBlock}
    {waiting : List Text}
    {line : Line}
    (place : reading.place = .block opening block waiting)
    (reads : (reading.readBlock opening block waiting line).result = .ok next) :
    Advances line reading next := by
  unfold readBlock at reads
  split at reads
  · next closes =>
      obtain ⟨extent, instructions, continues⟩ :=
        Run.result_bind_eq_ok_iff.mp reads
      simp only [Run.result_pure, Except.ok.injEq] at continues
      subst next
      exact .blockEnd place closes instructions
  · next inside =>
      simp only [Run.result_reportAll_bind, Run.result_pure,
        Except.ok.injEq] at reads
      subst next
      exact .blockLine place inside

/-- Behind a signature its member is open, and nothing in it is read yet. -/
theorem result_openMember
    (reading : Reading)
    (signature : Signature)
    (line : Line) :
    (reading.openMember signature line).result =
      .ok (reading.movedTo (.member ⟨signature, line.number, [], .empty⟩)) :=
  rfl

/-- A line between the members is read as an advance by that line. -/
theorem advances_of_readOutside
    {reading next : Reading}
    {line : Line}
    (place : reading.place = .members)
    (reads : (reading.readOutside line).result = .ok next) :
    Advances line reading next := by
  unfold readOutside at reads
  split at reads
  · next silent =>
      simp only [Run.result_pure, Except.ok.injEq] at reads
      subst next
      exact .outside place (.inl silent)
  · split at reads
    · next signature signed =>
        rw [result_openMember, Except.ok.injEq] at reads
        subst next
        exact .memberStart (.inr place) signed
    · next unsigned =>
        simp only [Run.result_report_bind, Run.result_pure,
          Except.ok.injEq] at reads
        subst next
        exact .outside place (.inr unsigned)

/-- A line in an open member is read as an advance by that line. -/
theorem advances_of_readMember
    {reading next : Reading}
    {member : OpenMember}
    {line : Line}
    (place : reading.place = .member member)
    (reads : (reading.readMember member line).result = .ok next) :
    Advances line reading next := by
  simp only [readMember, OpenMember.readLine] at reads
  split at reads
  · next atTop =>
      replace atTop : member.body.regions = [] := by simpa using atTop
      split at reads
      · next closes =>
          simp only [Run.pure_bind, Run.result_pure, Except.ok.injEq] at reads
          subst next
          exact .memberEnd place atTop closes
      · next inside =>
          split at reads
          · next stated states =>
              simp only [Run.pure_bind, Run.result_pure,
                Except.ok.injEq] at reads
              subst next
              exact .attributeLine place atTop inside states
          · next unstated =>
              simp only [OpenMember.readBody, Run.bind_assoc,
                Run.result_reportAll_bind, Run.pure_bind, Run.result_pure,
                Except.ok.injEq] at reads
              subst next
              exact .bodyLine place fun _ => ⟨inside, unstated⟩
  · next inRegion =>
      simp only [OpenMember.readBody, Run.bind_assoc,
        Run.result_reportAll_bind, Run.pure_bind, Run.result_pure,
        Except.ok.injEq] at reads
      subst next
      exact .bodyLine place fun atTop => by simp [atTop] at inRegion

/-- There is no other way to read a line. -/
theorem advances_of_readLine
    {reading next : Reading}
    {line : Line}
    (reads : (reading.readLine line).result = .ok next) :
    Advances line reading next := by
  simp only [readLine, Run.result_look_bind] at reads
  split at reads
  · next place =>
      split at reads
      · next signature signed =>
          simp only [endDeclarations, Run.result_reportAll_bind,
            Run.result_report_bind, Run.result_look_bind, result_openMember,
            Except.ok.injEq] at reads
          subst next
          exact .memberStart (.inl place) signed
      · next unsigned =>
          exact advances_of_readDeclaration place unsigned reads
  · next opening block waiting place =>
      exact advances_of_readBlock place reads
  · next place =>
      exact advances_of_readOutside place reads
  · next member place =>
      exact advances_of_readMember place reads

/-- Lines are read as the first of them and then the others from where these led. -/
theorem readLines_append
    (reading : Reading)
    (before after : List Line) :
    reading.readLines (before ++ after) =
      reading.readLines before >>= fun middle => middle.readLines after := by
  induction before generalizing reading with
  | nil =>
      rfl
  | cons line rest inductionHypothesis =>
      simp only [List.cons_append, readLines, inductionHypothesis,
        Run.bind_assoc]

/-- One line alone is read as that line. -/
@[simp] theorem readLines_singleton
    (reading : Reading)
    (line : Line) :
    reading.readLines [line] = reading.readLine line := by
  simp [readLines]

/-- Lines have been read when all but the last of them have, and then it. -/
theorem readLines_concat_eq_ok_iff
    {reading final : Reading}
    {before : List Line}
    {line : Line} :
    (reading.readLines (before ++ [line])).result = .ok final ↔
      ∃ middle,
        (reading.readLines before).result = .ok middle ∧
          (middle.readLine line).result = .ok final := by
  rw [readLines_append, Run.result_bind_eq_ok_iff]
  simp only [readLines, Run.result_bind_eq_ok_iff, Run.result_pure,
    Except.ok.injEq, exists_eq_right]

/--
What holds before any line and is kept by every way to read one holds behind
all lines, together with the lines that have been read.
-/
theorem readLines_induction
    {motive : List Line → Reading → Prop}
    {first : Reading}
    (start : motive [] first)
    (step :
      ∀ {before : List Line} {line : Line} {reading next : Reading},
        (first.readLines before).result = .ok reading →
        motive before reading →
        Advances line reading next →
        motive (before ++ [line]) next)
    {lines : List Line}
    {final : Reading}
    (reads : (first.readLines lines).result = .ok final) :
    motive lines final := by
  induction lines using List.reverseRecOn generalizing final with
  | nil =>
      simp only [readLines, Run.result_pure, Except.ok.injEq] at reads
      subst final
      exact start
  | append_singleton before line inductionHypothesis =>
      obtain ⟨middle, earlier, last⟩ :=
        readLines_concat_eq_ok_iff.mp reads
      exact step earlier (inductionHypothesis earlier) (advances_of_readLine last)

/-- A reading is complete exactly when no block and no member is open. -/
theorem finish_eq_ok_iff
    {reading : Reading}
    {nodes : List Node × List Node} :
    reading.finish = .ok nodes ↔
      reading.IsOutside ∧
        nodes = (reading.declarations.reverse, reading.members.reverse) := by
  rcases reading with ⟨declarations, members, place⟩
  cases place <;>
    simp [finish, IsOutside, eq_comm]

end Reading

namespace Module

/-- The logical lines behind a header. -/
def bodyLines
    (source : List Text)
    (header : Header) :
    List Line :=
  Line.logical (header.length + 1) (source.drop header.length)

/-- Behind a header that is read, a module is put together of what its lines
declare. -/
theorem result_read_of_lines
    {source : List Text}
    {header : Header}
    {final : Reading}
    (readsHeader : (Header.read source).result = .ok header)
    (readsLines :
      (Reading.start.readLines (bodyLines source header)).result = .ok final)
    (file : Text) :
    (read file source).result =
      match final.finish, name? header.attributes with
      | .error fault, _ => .error fault
      | .ok _, none => .error .missingModuleName
      | .ok nodes, some name =>
          .ok
            ⟨name, 1, .module file header.classFlags,
              header.attributes ++ nodes.1 ++ nodes.2⟩ := by
  have behind : (readBody source header).result = final.finish := by
    unfold bodyLines at readsLines
    unfold readBody
    rw [Run.result_bind, readsLines]
    rfl
  unfold read
  rw [Run.result_report_bind, Run.result_bind, readsHeader]
  change (readBody source header >>= _).result = _
  rw [Run.result_bind, behind]
  cases final.finish with
  | error fault =>
      rfl
  | ok nodes =>
      cases name? header.attributes <;>
        rfl

/-- All that stands behind a module that has been read. -/
structure Reads
    (file : Text)
    (source : List Text)
    (header : Header)
    (final : Reading)
    (module : Node) :
    Prop where
  readsHeader : (Header.read source).result = .ok header
  readsLines : (Reading.start.readLines (bodyLines source header)).result = .ok final
  complete : final.IsOutside
  named : name? header.attributes = some module.name
  shape :
    module =
      ⟨module.name, 1, .module file header.classFlags,
        header.attributes ++ final.declarations.reverse ++ final.members.reverse⟩

section

variable
  {file : Text}
  {source : List Text}
  {patience : Option Nat}
  {module : Node}
  (parsed : (parse file source patience).result = .ok module)
include parsed

/-- The reading behind a successful parse ends with the same module. -/
theorem observe_of_parse :
    ((read file source).observe patience).2 = .ok module := by
  unfold parse at parsed
  cases observed : ((read file source).observe patience).2 with
  | error fault =>
      simp [observed, Except.mapError] at parsed
  | ok node =>
      simpa [observed, Except.mapError] using parsed

/-- A module comes from its header and a complete reading of the lines behind. -/
theorem exists_reads_of_parse :
    ∃ header final, Reads file source header final module := by
  have whole := Run.result_of_observe_eq_ok (observe_of_parse parsed)
  simp only [read, Run.result_report_bind] at whole
  obtain ⟨header, readsHeader, whole⟩ := Run.result_bind_eq_ok_iff.mp whole
  obtain ⟨nodes, readsBody, whole⟩ := Run.result_bind_eq_ok_iff.mp whole
  obtain ⟨final, readsLines, finishes⟩ := Run.result_bind_eq_ok_iff.mp readsBody
  obtain ⟨complete, rfl⟩ := Reading.finish_eq_ok_iff.mp finishes
  cases named : name? header.attributes with
  | none =>
      simp [named] at whole
  | some name =>
      simp only [named, Run.result_report_bind, Run.result_pure,
        Except.ok.injEq] at whole
      subst module
      exact ⟨header, final, readsHeader, readsLines, complete, named, rfl⟩

end

/-- Whatever is cancelled, a parse fails with what stops the reading of its module, or
tells that it was cancelled. -/
theorem read_fails_of_parse
    {file : Text}
    {source : List Text}
    {patience : Option Nat}
    {failure : FileFault}
    (fails : (parse file source patience).result = .error failure) :
    (read file source).result = .error failure.fault ∨
      ∃ line, failure.fault = .cancelled line := by
  unfold parse at fails
  cases observed : ((read file source).observe patience).2 with
  | ok module =>
      simp [observed, Except.mapError] at fails
  | error fault =>
      simp only [observed, Except.mapError, Except.error.injEq] at fails
      subst failure
      exact Run.result_or_cancelled_of_observe_eq_error observed

end Module

end ClassicBasic
