import ClassicBasic.Proofs.Module.Spans
import ClassicBasic.Proofs.Reading.Quiet

namespace ClassicBasic

/-!
# The log of a module that is read

A signature is reported before its member is read, and the end of the
declarations before the signature that ends them.  Each of these events is about
the line that opens a member, and attributes and body do not change what a member
is called in words.  So the milestones of a log tell the members of the module
that comes out of it.
-/

/-! ## Milestones -/

namespace Event

/-- The milestones between the start and the end of a module, given the lines and
the words of its members. -/
def outline : List (Nat × Text) → List Event
  | [] => []
  | first :: rest =>
      .declarationsEnd first.1 ::
        (first :: rest).map fun title => .memberOpens title.1 title.2

/-- One more member is announced behind the others. -/
theorem outline_append
    {titles : List (Nat × Text)}
    (nonEmpty : titles ≠ [])
    (title : Nat × Text) :
    outline (titles ++ [title]) =
      outline titles ++ [.memberOpens title.1 title.2] := by
  cases titles with
  | nil =>
      exact (nonEmpty rfl).elim
  | cons first rest =>
      simp [outline]

end Event

namespace Run

/-- Behind a value the events of the next run follow. -/
theorem events_bind_of_ok
    {run : Run α}
    {value : α}
    (has : run.result = .ok value)
    (next : α → Run β) :
    (run >>= next).events = run.events ++ (next value).events := by
  rw [bind_of_result_eq_ok has]
  simp [events]

/-- Behind a value the milestones of the next run follow. -/
theorem milestones_bind_of_ok
    {run : Run α}
    {value : α}
    (has : run.result = .ok value)
    (next : α → Run β) :
    (run >>= next).milestones = run.milestones ++ (next value).milestones := by
  rw [milestones, events_bind_of_ok has, List.filter_append]
  rfl

/-- A report is a milestone or not, and those of the rest follow. -/
@[simp] theorem milestones_report_bind
    (event : Event)
    (next : Unit → Run β) :
    (report event >>= next).milestones =
      [event].filter Event.isMilestone ++ (next ()).milestones :=
  milestones_bind_of_ok rfl next

/-- A quiet run leaves the milestones to the next. -/
theorem milestones_bind_of_isQuiet
    {run : Run α}
    {value : α}
    (quiet : run.IsQuiet)
    (has : run.result = .ok value)
    (next : α → Run β) :
    (run >>= next).milestones = (next value).milestones := by
  rw [milestones_bind_of_ok has, quiet.milestones_eq, List.nil_append]

/-- A look is no milestone. -/
@[simp] theorem milestones_look_bind
    (line : Nat)
    (next : Unit → Run β) :
    (look line >>= next).milestones = (next ()).milestones :=
  milestones_bind_of_ok rfl next

/-- A run of which a value is seen shows all of its events. -/
theorem observe_of_ok
    {patience : Option Nat}
    {run : Run α}
    {value : α}
    (seen : (run.observe patience).2 = .ok value) :
    run.observe patience = (run.events, .ok value) := by
  have whole : run.observe none = (run.events, .ok value) := by
    rw [observe_none, result_of_observe_eq_ok seen]
  cases patience with
  | none =>
      exact whole
  | some patience =>
      rcases observe_some patience run with same | ⟨log, line, stops, -⟩
      · rw [same, whole]
      · rw [stops] at seen
        cases seen

end Run

/-! ## Lines -/

namespace Reading

/-- The event of a signature. -/
def opening (signature : Signature) (line : Line) : Event :=
  .memberOpens line.number (signature.node line.number).display

/-- The milestones that a line brings. -/
def announces (reading : Reading) (line : Line) : List Event :=
  match reading.place, Signature.read? line.code with
  | .declarations, some signature =>
      [.declarationsEnd line.number, opening signature line]
  | .members, some signature => [opening signature line]
  | _, _ => []

/-- Opening a member is one milestone. -/
theorem milestones_openMember
    (reading : Reading)
    (signature : Signature)
    (line : Line) :
    (reading.openMember signature line).milestones = [opening signature line] := by
  unfold openMember OpenMember.ofSignature
  rw [Run.bind_assoc,
    Run.milestones_bind_of_isQuiet (isQuiet_parametersSkipped _ _) rfl]
  rfl

/-- A line between members is a milestone if it opens a member. -/
theorem milestones_readOutside
    (reading : Reading)
    (line : Line) :
    (reading.readOutside line).milestones =
      (Signature.read? line.code).toList.map fun signature =>
        opening signature line := by
  unfold readOutside
  cases signed : Signature.read? line.code with
  | none =>
      split
      · rfl
      · rfl
  | some signature =>
      rw [if_neg (by simp [Signature.isSilent_eq_false_of_read? signed])]
      exact milestones_openMember reading signature line

/-- The milestones of a line are those of the member that it opens. -/
theorem milestones_readLine
    (reading : Reading)
    (line : Line) :
    (reading.readLine line).milestones = reading.announces line := by
  unfold readLine announces
  rw [Run.milestones_look_bind]
  cases reading.place with
  | declarations =>
      cases Signature.read? line.code with
      | none =>
          exact (reading.isQuiet_readDeclaration line).milestones_eq
      | some signature =>
          simp only [endDeclarations]
          rw [Run.milestones_bind_of_isQuiet (isQuiet_parametersSkipped _ _) rfl,
            Run.milestones_report_bind, Run.milestones_look_bind,
            milestones_openMember]
          rfl
  | block declaring block waiting =>
      exact (reading.isQuiet_readBlock declaring block waiting line).milestones_eq
  | members =>
      dsimp only
      rw [milestones_readOutside]
      cases Signature.read? line.code <;>
        rfl
  | member member =>
      exact (reading.isQuiet_readMember member line).milestones_eq

end Reading

/-! ## Readings -/

namespace Node

/-- The line of a node, and the node in words. -/
def title (node : Node) : Nat × Text :=
  (node.line, node.display)

/-- What stands below a node does not come into its words. -/
@[simp] theorem title_withChildren
    (node : Node)
    (more : List Node) :
    (node.withChildren more).title = node.title :=
  rfl

end Node

/-- A member is called like its signature. -/
theorem OpenMember.title_node
    (member : OpenMember) :
    member.node.title = (member.signature.node member.line).title := by
  rw [OpenMember.node_eq, Signature.memberNode, Node.title_withChildren]

namespace Reading

/-- The titles of all members so far, that of an open one included. -/
def titles (reading : Reading) : List (Nat × Text) :=
  reading.members.reverse.map Node.title ++
    match reading.place with
    | .member inner => [(inner.signature.node inner.line).title]
    | _ => []

/-- The milestones so far tell the members so far, and there is none of these
before the end of the declarations. -/
structure Announced (milestones : List Event) (reading : Reading) : Prop where
  outlined : milestones = Event.outline reading.titles
  placed :
    match reading.place with
    | .declarations | .block .. => reading.members = []
    | .members => reading.members ≠ []
    | .member _ => True

/-- In the declarations, nothing has been announced and no member is there. -/
theorem Announced.of_declarations
    {reading : Reading}
    {milestones : List Event}
    (announced : Announced milestones reading)
    (inDeclarations :
      reading.place = .declarations ∨
        ∃ declaring block waiting, reading.place = .block declaring block waiting) :
    milestones = [] ∧ reading.members = [] := by
  have outlined := announced.outlined
  have placed := announced.placed
  rcases inDeclarations with place | ⟨declaring, block, waiting, place⟩ <;>
    simp only [titles, place] at outlined placed <;>
    simp [outlined, placed, Event.outline]

/-- Behind a declaration line nothing is announced as long as there is no member. -/
theorem announced_afterInstructions
    {reading : Reading}
    (noMembers : reading.members = [])
    (extent : DeclarationLine.Extent) :
    Announced [] (reading.afterInstructions extent) := by
  cases extent <;>
    exact
      ⟨by simp [titles, afterInstructions, noMembers, Event.outline], noMembers⟩

/-- One more line announces the member that it opens, if it opens one. -/
theorem Announced.advances
    {reading next : Reading}
    {line : Line}
    {milestones : List Event}
    (announced : Announced milestones reading)
    (advances : Advances line reading next) :
    Announced (milestones ++ reading.announces line) next := by
  -- Only a signature announces anything; everywhere else the titles stay as they are.
  cases advances with
  | silentDeclaration place unsigned silent =>
      simpa [announces, place, unsigned] using announced
  | declaration place unsigned loud reads =>
      obtain ⟨rfl, noMembers⟩ := announced.of_declarations (.inl place)
      simpa [announces, place, unsigned] using
        announced_afterInstructions noMembers _
  | blockEnd place closes reads =>
      obtain ⟨rfl, noMembers⟩ :=
        announced.of_declarations (.inr ⟨_, _, _, place⟩)
      simpa [announces, place] using announced_afterInstructions noMembers _
  | blockLine place inside =>
      obtain ⟨rfl, noMembers⟩ :=
        announced.of_declarations (.inr ⟨_, _, _, place⟩)
      refine ⟨?_, noMembers⟩
      simp [announces, place, titles, movedTo, noMembers, Event.outline]
  | outside place plain =>
      have unsigned : Signature.read? line.code = none := by
        rcases plain with silent | unsigned
        · cases signed : Signature.read? line.code with
          | none =>
              rfl
          | some signature =>
              rw [Signature.isSilent_eq_false_of_read? signed] at silent
              cases silent
        · exact unsigned
      simpa [announces, place, unsigned] using announced
  | @memberStart signature place signed =>
      refine ⟨?_, trivial⟩
      rcases place with place | place
      · obtain ⟨rfl, noMembers⟩ := announced.of_declarations (.inl place)
        simp [announces, place, signed, titles, movedTo, noMembers, Event.outline,
          opening, Node.title, Signature.node]
      · have outlined := announced.outlined
        have nonEmpty := announced.placed
        simp only [titles, place, List.append_nil] at outlined nonEmpty
        simp only [announces, place, signed, titles, movedTo]
        rw [Event.outline_append (by simpa using nonEmpty), ← outlined]
        rfl
  | attributeLine place atTop inside states
  | bodyLine place inside =>
      have outlined := announced.outlined
      simp only [titles, place] at outlined
      refine ⟨?_, trivial⟩
      simpa [announces, place, titles, movedTo] using outlined
  | memberEnd place atTop closes =>
      have outlined := announced.outlined
      simp only [titles, place] at outlined
      refine ⟨?_, List.cons_ne_nil _ _⟩
      simpa [announces, place, titles, closeMember, OpenMember.title_node] using
        outlined

/-- Lines in a row announce the members that they hold. -/
theorem announced_readLines
    {lines : List Line}
    {final : Reading}
    (reads : (start.readLines lines).result = .ok final) :
    Announced (start.readLines lines).milestones final := by
  induction lines using List.reverseRecOn generalizing final with
  | nil =>
      cases reads
      exact ⟨rfl, rfl⟩
  | append_singleton before line inductionHypothesis =>
      obtain ⟨middle, earlier, last⟩ := readLines_concat_eq_ok_iff.mp reads
      have milestones :
          (start.readLines (before ++ [line])).milestones =
            (start.readLines before).milestones ++ middle.announces line := by
        rw [readLines_append, Run.milestones_bind_of_ok earlier,
          readLines_singleton, milestones_readLine]
      rw [milestones]
      exact (inductionHypothesis earlier).advances (advances_of_readLine last)

end Reading

/-! ## Modules -/

namespace Module

variable
  {file : Text}
  {source : List Text}
  {patience : Option Nat}
  {header : Header}
  {final : Reading}
  {module : Node}

/-- The log of a module that has been read: its start, what is reported of the
header and of the lines behind it, and its end. -/
theorem log_of_reads
    (reads : Reads file source header final module)
    (parsed : (parse file source patience).result = .ok module) :
    (parse file source patience).log =
      .readingStarts file source.length ::
        ((Header.read source).events ++
          (Reading.start.readLines (bodyLines source header)).events ++
          [.readingEnds module.name final.declarations.length
            final.members.length]) := by
  have finishes := Reading.finish_eq_ok_iff.mpr ⟨reads.complete, rfl⟩
  have wholeLog : (parse file source patience).log = (read file source).events := by
    simp only [parse, Run.observe_of_ok (observe_of_parse parsed)]
  have body :
      readBody source header =
        ⟨(Reading.start.readLines (bodyLines source header)).steps,
          .ok (final.declarations.reverse, final.members.reverse)⟩ := by
    change (Reading.start.readLines (bodyLines source header) >>= fun reading =>
      Run.ofExcept reading.finish) = _
    rw [Run.bind_of_result_eq_ok reads.readsLines, finishes, Run.ofExcept,
      List.append_nil]
  rw [wholeLog, read, Run.events_bind_of_ok rfl,
    Run.events_bind_of_ok reads.readsHeader, body, Run.events_bind_of_ok rfl]
  simp only [reads.named, List.length_reverse, List.append_assoc]
  rfl

/-- The log of a module that has been read agrees with the module.  It starts
with the number of physical lines and ends with the name of the module and the
numbers of its declarations and members.  Its milestones in between are the
members in order, each with its line and in words, and in front of the first the
end of the declarations on the same line. -/
theorem milestones_of_parse
    (parsed : (parse file source patience).result = .ok module) :
    let log := (parse file source patience).log
    let ends : Event :=
      .readingEnds module.name module.declarations.length module.members.length
    log.head? = some (.readingStarts file source.length) ∧
      log.getLast? = some ends ∧
      log.filter Event.isMilestone =
        .readingStarts file source.length ::
          (Event.outline (module.members.map Node.title) ++ [ends]) := by
  intro log ends
  obtain ⟨header, final, reads⟩ := exists_reads_of_parse parsed
  have shape : log = _ := log_of_reads reads parsed
  have announced := Reading.announced_readLines reads.readsLines
  have titles : final.titles = module.members.map Node.title := by
    rw [members_eq reads]
    rcases reads.complete with place | place <;>
      simp [Reading.titles, place]
  have sameEnds :
      (.readingEnds module.name final.declarations.length
          final.members.length : Event) =
        ends := by
    simp only [ends, declarations_eq reads, members_eq reads, List.length_reverse]
  rw [sameEnds] at shape
  have lines := announced.outlined
  rw [Run.milestones, titles] at lines
  have noHeader := (Header.isQuiet_read source).milestones_eq
  rw [Run.milestones] at noHeader
  refine ⟨by rw [shape]; rfl, ?_, ?_⟩
  · rw [shape, ← List.cons_append, List.getLast?_concat]
  · rw [shape, List.filter_cons_of_pos rfl, List.filter_append, List.filter_append,
      noHeader, lines, List.nil_append]
    rfl

/-- The log of a module with two members, of which the first has a parameter that
is skipped when its signature is looked at, and again when it is read. -/
theorem milestones_of_parse_skipped :
    ∃ (source : List Text) (module : Node),
      (parse "A.bas" source none).result = .ok module ∧
        module.members.map Node.title =
          [(4, "Method Public Sub S".toList), (8, "Property Get P".toList)] ∧
        let log := (parse "A.bas" source none).log
        let ends : Event :=
          .readingEnds module.name module.declarations.length module.members.length
        log.head? = some (.readingStarts "A.bas" source.length) ∧
          log.getLast? = some ends ∧
          log.filter Event.isMilestone =
            .readingStarts "A.bas" source.length ::
              (Event.outline (module.members.map Node.title) ++ [ends]) := by
  let source : List Text :=
    ["Attribute VB_Name = \"A\"", "Implements B", "Dim x", "Public Sub S(1, y)",
      "Attribute S.VB_UserMemId = 0", "End Sub", "z = 1", "Property Get P()",
      "End Property"]
  have views :
      (parse "A.bas" source none).result.map
          (fun module => module.members.map Node.title) =
        .ok [(4, "Method Public Sub S".toList), (8, "Property Get P".toList)] := by
    decide +kernel
  obtain ⟨module, parsed, titles⟩ := Run.exists_ok_of_map views
  exact ⟨source, module, parsed, titles, milestones_of_parse parsed⟩

end Module

end ClassicBasic
