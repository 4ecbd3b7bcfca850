import ClassicBasic.Proofs.Member.Body
import ClassicBasic.Proofs.Reading

namespace ClassicBasic

/-!
# What is left open

What is open at a place of a reading forms a stack: the regions around the next
line, innermost first, and the member around them, or else a block.  Each entry
names what closes it and the line that opened it, and these lines get earlier
from the top of the stack to its bottom.  A source that ends there fails with
the top of the stack, and a line that closes the top uncovers nothing that was
opened later.
-/

/-- A line opens something that is closed by a terminator. -/
inductive Line.Opens (line : Line) : Terminator → Prop where
  /-- One of its instructions declares a type or an enumeration. -/
  | block
      {instruction : Instruction}
      {modifier : Option AccessModifier}
      {kind : BlockKind}
      {name : Text}
      (stands : instruction ∈ Instruction.split line.code)
      (declares :
        DeclaringInstruction.read? instruction.text =
          some (.block modifier kind name)) :
      line.Opens kind.terminator
  | member
      {signature : Signature}
      (signed : Signature.read? line.code = some signature) :
      line.Opens signature.terminator
  | condition
      (opens : opensCondition line.code = true) :
      line.Opens .endIf
  | loop
      (opens : opensLoop line.code = true) :
      line.Opens .next

/-- A line that opens a region opens what the terminator of the region closes. -/
theorem Line.opens_of_opensRegion?
    {line : Line}
    {kind : RegionKind}
    (opens : opensRegion? line.code = some kind) :
    line.Opens kind.terminator := by
  unfold opensRegion? at opens
  split at opens
  · next condition =>
      cases opens
      exact .condition condition
  · split at opens
    · next loop =>
        cases opens
        exact .loop loop
    · cases opens

/-- What closes something that is open, and the number of the line that opened
it. -/
structure Unclosed where
  terminator : Terminator
  line : Nat

/-- What closes a region, and where the region was opened. -/
def OpenRegion.unclosed (region : OpenRegion) : Unclosed :=
  ⟨region.kind.terminator, region.opening.number⟩

/-- The regions that are open in a body, innermost first. -/
def OpenBody.unclosed (body : OpenBody) : List Unclosed :=
  body.regions.map OpenRegion.unclosed

/-- What is open at a place, innermost first. -/
def Place.unclosed : Place → List Unclosed
  | .declarations => []
  | .block _ inner _ => [⟨inner.kind.terminator, inner.line⟩]
  | .members => []
  | .member inner =>
      inner.body.unclosed ++ [⟨inner.signature.terminator, inner.line⟩]

/-- A source that ends where something is open fails with the innermost of it. -/
theorem Reading.finish_eq
    (reading : Reading) :
    reading.finish =
      match reading.place.unclosed with
      | [] => .ok (reading.declarations.reverse, reading.members.reverse)
      | innermost :: _ =>
          .error (.unterminatedBlock innermost.terminator innermost.line) := by
  rcases reading with ⟨declarations, members, place⟩
  cases place with
  | declarations | block _ _ _ | members =>
      rfl
  | member member =>
      rcases member with ⟨signature, line, attributes, items, regions, surplus⟩
      cases regions <;>
        rfl

/-! ## Bodies -/

namespace OpenBody

/-- Settling a node opens no region and closes inner ones only. -/
theorem unclosed_settle
    (items : List Node)
    (surplus : Nat)
    (node : Node)
    (regions : List OpenRegion) :
    (settle items surplus node regions).1.unclosed <:+
      regions.map OpenRegion.unclosed := by
  induction regions generalizing surplus node with
  | nil =>
      exact List.suffix_rfl
  | cons region outer inductionHypothesis =>
      unfold settle
      split
      · apply (inductionHypothesis (surplus - 1) (region.add node).node).trans
        exact List.suffix_cons region.unclosed (outer.map OpenRegion.unclosed)
      · exact List.suffix_rfl

/-- A line opens a region, or none is open behind it that was not open before. -/
theorem unclosed_readLine
    (body : OpenBody)
    (line : Line) :
    (body.readLine line).1.unclosed <:+ body.unclosed ∨
      ∃ terminator,
        line.Opens terminator ∧
          (body.readLine line).1.unclosed =
            ⟨terminator, line.number⟩ :: body.unclosed := by
  cases opens : opensRegion? line.code with
  | some kind =>
      right
      refine ⟨kind.terminator, Line.opens_of_opensRegion? opens, ?_⟩
      rw [readLine_opening opens]
      rfl
  | none =>
      left
      have item : (body.readItem line).1.unclosed <:+ body.unclosed := by
        simp only [readItem, opens]
        exact unclosed_settle _ _ _ _
      rcases body with ⟨items, _ | ⟨region, outer⟩, surplus⟩
      · exact item
      · cases closes : region.closedBy? surplus line.code with
        | none =>
            rw [readLine_item (by simpa using closes)]
            exact item
        | some left =>
            rw [readLine_closing closes]
            apply (unclosed_settle items left region.node outer).trans
            exact List.suffix_cons region.unclosed (outer.map OpenRegion.unclosed)

/-- The terminator of the innermost region closes it. -/
theorem unclosed_readLine_terminator
    {items : List Node}
    {region : OpenRegion}
    {outer : List OpenRegion}
    {surplus : Nat}
    {line : Line}
    (closing : line.code = region.kind.terminator.text) :
    (readLine ⟨items, region :: outer, surplus⟩ line).1.unclosed <:+
      outer.map OpenRegion.unclosed := by
  have closes : ∃ left, region.closedBy? surplus line.code = some left := by
    rw [closing]
    cases kind : region.kind with
    | condition =>
        exact ⟨surplus, by simp [OpenRegion.closedBy?, RegionKind.terminator, kind]⟩
    | loop =>
        exact ⟨0, by simp only [OpenRegion.closedBy?, kind]; decide⟩
  obtain ⟨left, closes⟩ := closes
  rw [readLine_closing closes]
  exact unclosed_settle items left region.node outer

end OpenBody

/-! ## Declaration lines -/

namespace DeclarationLine

/-- Instructions can be read whatever they say. -/
theorem exists_readOn
    (line : DeclarationLine)
    (texts : List Text) :
    ∃ extent, (line.readOn texts).result = .ok extent := by
  induction texts generalizing line with
  | nil =>
      exact ⟨_, rfl⟩
  | cons text rest inductionHypothesis =>
      unfold readOn
      split
      · exact ⟨_, rfl⟩
      · split
        · exact inductionHypothesis line
        · exact inductionHypothesis _
        · exact inductionHypothesis _
        · exact inductionHypothesis _
        · exact ⟨_, rfl⟩

/-- A block that an instruction of a line opens, and the instructions of the line
that wait for its terminator. -/
structure OpensBlock
    (number : Nat)
    (texts : List Text)
    (opening : DeclarationLine)
    (block : OpenBlock)
    (waiting : List Text) :
    Prop where
  number_eq : opening.number = number
  line_eq : block.line = number
  declares :
    ∃ text ∈ texts,
      ∃ modifier name,
        DeclaringInstruction.read? text = some (.block modifier block.kind name)
  waits : ∀ text ∈ waiting, text ∈ texts

/-- A block that is opened by one of some instructions is opened by one of more of
them. -/
theorem OpensBlock.of_subset
    {number : Nat}
    {texts more waiting : List Text}
    {opening : DeclarationLine}
    {block : OpenBlock}
    (opens : OpensBlock number texts opening block waiting)
    (subset : ∀ text ∈ texts, text ∈ more) :
    OpensBlock number more opening block waiting := by
  obtain ⟨text, isText, declares⟩ := opens.declares
  exact
    ⟨opens.number_eq, opens.line_eq, ⟨text, subset text isText, declares⟩,
      fun later waits => subset later (opens.waits later waits)⟩

/-- A block is opened by one of the instructions of its line, and only later ones
wait. -/
theorem opensBlock_of_readOn
    {line opening : DeclarationLine}
    {texts waiting : List Text}
    {block : OpenBlock}
    (reads : (line.readOn texts).result = .ok (.opensBlock opening block waiting)) :
    OpensBlock line.number texts opening block waiting := by
  induction texts generalizing line with
  | nil =>
      cases reads
  | cons text rest inductionHypothesis =>
      have later : ∀ other ∈ rest, other ∈ text :: rest :=
        fun other isLater => List.mem_cons_of_mem text isLater
      unfold readOn at reads
      split at reads
      · cases reads
      · split at reads
        · exact (inductionHypothesis reads).of_subset later
        · exact (inductionHypothesis reads).of_subset later
        · exact (inductionHypothesis reads).of_subset later
        · exact (inductionHypothesis reads).of_subset later
        · next modifier kind name declares =>
            cases reads
            exact ⟨rfl, rfl, ⟨text, by simp, modifier, name, declares⟩, later⟩

end DeclarationLine

/-! ## Readings -/

namespace Reading

/-- Lines can be read whatever they say. -/
theorem exists_readLine
    (reading : Reading)
    (line : Line) :
    ∃ next, (reading.readLine line).result = .ok next := by
  have opens :
      ∀ signature, ∃ next, (reading.openMember signature line).result = .ok next :=
    fun signature => ⟨_, result_openMember reading signature line⟩
  unfold readLine
  rw [Run.result_look_bind]
  -- Faults come from the header and from the end of the source only, not from a line.
  cases reading.place with
  | declarations =>
      dsimp only
      split
      · simp only [endDeclarations, Run.result_reportAll_bind,
          Run.result_report_bind, Run.result_look_bind]
        exact opens _
      · unfold readDeclaration
        split
        · exact ⟨_, rfl⟩
        · obtain ⟨extent, reads⟩ :=
            DeclarationLine.exists_readOn (.opening line)
              ((Instruction.split line.code).map (·.text))
          exact ⟨_, Run.result_bind_eq_ok_iff.mpr ⟨extent, reads, rfl⟩⟩
  | block opening block waiting =>
      dsimp only
      unfold readBlock
      split
      · obtain ⟨extent, reads⟩ := (opening.declare block.node).exists_readOn waiting
        exact ⟨_, Run.result_bind_eq_ok_iff.mpr ⟨extent, reads, rfl⟩⟩
      · exact ⟨_, rfl⟩
  | members =>
      dsimp only
      unfold readOutside
      split
      · exact ⟨_, rfl⟩
      · split
        · exact opens _
        · exact ⟨_, rfl⟩
  | member member =>
      dsimp only
      unfold readMember OpenMember.readLine
      split
      · split
        · exact ⟨_, rfl⟩
        · split
          · exact ⟨_, rfl⟩
          · exact ⟨_, rfl⟩
      · exact ⟨_, rfl⟩

/-- No line stops a reading; only its end can. -/
theorem exists_readLines
    (reading : Reading)
    (lines : List Line) :
    ∃ final, (reading.readLines lines).result = .ok final := by
  induction lines generalizing reading with
  | nil =>
      exact ⟨reading, rfl⟩
  | cons line rest inductionHypothesis =>
      obtain ⟨next, readsFirst⟩ := reading.exists_readLine line
      obtain ⟨final, readsRest⟩ := inductionHypothesis next
      exact
        ⟨final, Run.result_bind_eq_ok_iff.mpr ⟨next, readsFirst, readsRest⟩⟩

/-- What is open behind some lines was opened by these lines, the innermost of
it last, and the instructions that wait for a block stand on its line. -/
structure Stacked (lines : List Line) (reading : Reading) : Prop where
  opened :
    ∀ unclosed ∈ reading.place.unclosed,
      ∃ line ∈ lines, line.number = unclosed.line ∧ line.Opens unclosed.terminator
  ordered : (reading.place.unclosed.map Unclosed.line).Pairwise (· > ·)
  waiting :
    ∀ opening block waiting,
      reading.place = .block opening block waiting →
        opening.number = block.line ∧
          ∃ line ∈ lines,
            line.number = block.line ∧
              ∀ text ∈ waiting, text ∈ (Instruction.split line.code).map (·.text)

namespace Stacked

variable
  {lines : List Line}
  {reading next : Reading}
  {line : Line}

/-- Where nothing is opened, the stack only gets shorter. -/
theorem shrink
    (stacked : reading.Stacked lines)
    (fewer : next.place.unclosed <:+ reading.place.unclosed)
    (noBlock : ∀ opening block waiting, next.place ≠ .block opening block waiting) :
    next.Stacked (lines ++ [line]) := by
  refine ⟨?_, ?_, ?_⟩
  · intro unclosed isOpen
    obtain ⟨opening, isLine, opens⟩ := stacked.opened unclosed (fewer.subset isOpen)
    exact ⟨opening, List.mem_append_left [line] isLine, opens⟩
  · exact stacked.ordered.sublist (fewer.sublist.map Unclosed.line)
  · intro opening block waiting place
    exact (noBlock opening block waiting place).elim

/-- What the last line opens comes on top. -/
theorem push
    {terminator : Terminator}
    (stacked : reading.Stacked lines)
    (fresh : ∀ earlier ∈ lines, earlier.number < line.number)
    (opens : line.Opens terminator)
    (longer :
      next.place.unclosed = ⟨terminator, line.number⟩ :: reading.place.unclosed)
    (noBlock : ∀ opening block waiting, next.place ≠ .block opening block waiting) :
    next.Stacked (lines ++ [line]) := by
  refine ⟨?_, ?_, ?_⟩
  · intro unclosed isOpen
    rw [longer] at isOpen
    rcases List.mem_cons.mp isOpen with rfl | isOuter
    · exact ⟨line, by simp, rfl, opens⟩
    · obtain ⟨opening, isLine, opens⟩ := stacked.opened unclosed isOuter
      exact ⟨opening, List.mem_append_left [line] isLine, opens⟩
  · rw [longer, List.map_cons, List.pairwise_cons]
    refine ⟨?_, stacked.ordered⟩
    intro number isNumber
    obtain ⟨unclosed, isOpen, rfl⟩ := List.mem_map.mp isNumber
    obtain ⟨opening, isLine, sameNumber, -⟩ := stacked.opened unclosed isOpen
    rw [← sameNumber]
    exact fresh opening isLine
  · intro opening block waiting place
    exact (noBlock opening block waiting place).elim

/-- Behind instructions of a line nothing is open but a block that one of them
opens. -/
theorem afterInstructions
    {opening : DeclarationLine}
    {texts : List Text}
    {extent : DeclarationLine.Extent}
    (reading : Reading)
    (isLine : line ∈ lines)
    (number : line.number = opening.number)
    (stand : ∀ text ∈ texts, text ∈ (Instruction.split line.code).map (·.text))
    (reads : (opening.readOn texts).result = .ok extent) :
    (reading.afterInstructions extent).Stacked lines := by
  cases extent with
  | complete declared =>
      exact ⟨by simp [Reading.afterInstructions, Place.unclosed],
        by simp [Reading.afterInstructions, Place.unclosed],
        by simp [Reading.afterInstructions]⟩
  | opensBlock behind block waiting =>
      have opens := DeclarationLine.opensBlock_of_readOn reads
      have onLine : line.number = block.line := number.trans opens.line_eq.symm
      obtain ⟨text, isText, modifier, name, declares⟩ := opens.declares
      obtain ⟨instruction, stands, rfl⟩ := List.mem_map.mp (stand text isText)
      refine ⟨?_, by simp [Reading.afterInstructions, Place.unclosed], ?_⟩
      · intro unclosed isOpen
        rw [List.mem_singleton.mp isOpen]
        exact ⟨line, isLine, onLine, .block stands declares⟩
      · intro first inner later place
        cases place
        exact
          ⟨opens.number_eq.trans opens.line_eq.symm, line, isLine, onLine,
            fun text waits => stand text (opens.waits text waits)⟩

/-- Every line keeps the stack. -/
theorem advances
    (stacked : reading.Stacked lines)
    (fresh : ∀ earlier ∈ lines, earlier.number < line.number)
    (advances : Advances line reading next) :
    next.Stacked (lines ++ [line]) := by
  -- A line closes inner openings, or it makes one more, which is then the innermost.
  cases advances with
  | silentDeclaration place _ _
  | outside place _ =>
      exact stacked.shrink List.suffix_rfl (by simp [place])
  | @declaration extent place unsigned loud reads =>
      exact afterInstructions reading (by simp) rfl (fun _ isText => isText) reads
  | @blockEnd opening block waiting extent place closes reads =>
      obtain ⟨number, first, isLine, onLine, stand⟩ :=
        stacked.waiting opening block waiting place
      have isEarlier : first ∈ lines ++ [line] := List.mem_append_left [line] isLine
      have sameNumber : first.number = (opening.declare block.node).number :=
        onLine.trans number.symm
      exact afterInstructions reading isEarlier sameNumber stand reads
  | @blockLine opening block waiting place inside =>
      have same :
          (reading.movedTo
              (.block opening { block with lines := line :: block.lines }
                waiting)).place.unclosed =
            reading.place.unclosed := by
        rw [place]
        rfl
      refine ⟨?_, same ▸ stacked.ordered, ?_⟩
      · intro unclosed isOpen
        rw [same] at isOpen
        obtain ⟨first, isLine, opens⟩ := stacked.opened unclosed isOpen
        exact ⟨first, List.mem_append_left [line] isLine, opens⟩
      · intro other inner later here
        cases here
        obtain ⟨number, first, isLine, stand⟩ :=
          stacked.waiting opening block waiting place
        exact ⟨number, first, List.mem_append_left [line] isLine, stand⟩
  | @memberStart signature place signed =>
      refine stacked.push fresh (.member signed) ?_ (by simp [movedTo])
      rcases place with place | place <;>
        rw [place] <;>
        rfl
  | @attributeLine member stated place atTop inside states =>
      refine stacked.shrink ?_ (by simp [movedTo])
      rw [place]
      exact List.suffix_rfl
  | @bodyLine member place inside =>
      rcases member.body.unclosed_readLine line with
        ⟨closed, fewer⟩ | ⟨terminator, opens, longer⟩
      · refine stacked.shrink ⟨closed, ?_⟩ (by simp [movedTo])
        rw [place]
        simp only [movedTo, Place.unclosed, ← fewer, List.append_assoc]
      · refine stacked.push fresh opens ?_ (by simp [movedTo])
        rw [place]
        simp only [movedTo, Place.unclosed, longer, List.cons_append]
  | memberEnd place atTop closes =>
      exact stacked.shrink List.nil_suffix (by simp [closeMember])

/-- Lines with growing numbers are stacked by any reading. -/
theorem readLines
    {final : Reading}
    (reads : (start.readLines lines).result = .ok final)
    (increasing : (lines.map Line.number).Pairwise (· < ·)) :
    final.Stacked lines := by
  refine
    readLines_induction
      (motive := fun before reading =>
        (before.map Line.number).Pairwise (· < ·) → reading.Stacked before)
      ?_ ?_ reads increasing
  · intro _
    exact ⟨by simp [start, Place.unclosed], by simp [start, Place.unclosed],
      by simp [start]⟩
  · intro before line reading next _ inductionHypothesis step longer
    rw [List.map_append, List.pairwise_append] at longer
    obtain ⟨shorter, -, isLast⟩ := longer
    refine (inductionHypothesis shorter).advances ?_ step
    intro earlier isEarlier
    exact isLast _ (List.mem_map_of_mem isEarlier) _ (by simp)

/-- The terminator of the innermost block uncovers nothing that was opened
behind it. -/
theorem le_of_closes
    {innermost uncovered : Unclosed}
    {outer rest : List Unclosed}
    (stacked : reading.Stacked lines)
    (advances : Advances line reading next)
    (unclosed : reading.place.unclosed = innermost :: outer)
    (closing : line.code = innermost.terminator.text)
    (still : next.place.unclosed = uncovered :: rest) :
    uncovered.line ≤ innermost.line := by
  have ordered := stacked.ordered
  rw [unclosed, List.map_cons, List.pairwise_cons] at ordered
  have below : ∀ entry ∈ outer, entry.line ≤ innermost.line := by
    intro entry isOuter
    exact Nat.le_of_lt (ordered.1 entry.line (List.mem_map_of_mem isOuter))
  cases advances with
  | silentDeclaration place _ _
  | declaration place _ _ _
  | outside place _ =>
      rw [place] at unclosed
      cases unclosed
  | memberStart place _ =>
      rcases place with place | place <;>
        rw [place] at unclosed <;>
        cases unclosed
  | @blockEnd opening block waiting extent place closes reads =>
      rw [place] at unclosed
      cases unclosed
      cases extent with
      | complete declared =>
          cases still
      | opensBlock behind inner later =>
          -- The next block waited on the line that opened this one.
          cases still
          have opens := DeclarationLine.opensBlock_of_readOn reads
          have number := (stacked.waiting opening block waiting place).1
          exact Nat.le_of_eq (opens.line_eq.trans number)
  | blockLine place inside =>
      rw [place] at unclosed
      cases unclosed
      exact (inside closing).elim
  | @attributeLine member stated place atTop inside states =>
      simp only [place, Place.unclosed, OpenBody.unclosed, atTop] at unclosed
      cases unclosed
      exact (inside closing).elim
  | @bodyLine member place inside =>
      rcases member with ⟨signature, number, attributes, items, regions, surplus⟩
      rw [place] at unclosed
      cases regions with
      | nil =>
          cases unclosed
          exact ((inside rfl).1 closing).elim
      | cons region around =>
          cases unclosed
          have fewer :
              (OpenBody.readLine ⟨items, region :: around, surplus⟩ line).1.unclosed <:+
                around.map OpenRegion.unclosed :=
            OpenBody.unclosed_readLine_terminator closing
          apply below
          have isStill : uncovered ∈ uncovered :: rest := List.mem_cons_self
          rw [← still] at isStill
          rcases List.mem_append.mp isStill with isRegion | isMember
          · exact List.mem_append_left _ (fewer.subset isRegion)
          · exact List.mem_append_right _ isMember
  | memberEnd place atTop closes =>
      cases still

end Stacked

end Reading

end ClassicBasic
