import ClassicBasic.Proofs.Member.Body
import ClassicBasic.Proofs.Reading

namespace ClassicBasic

/-!
# Bodies written out and read back

A well-nested body is a forest: lines that stand for themselves, conditions
closed by `End If`, and loops closed by a `Next` line, which loops nested
directly in each other may share.  Written out line by line between a signature
and its terminator, every forest is read back as it is: between items no loop
is left to be closed, and the counters of a shared `Next` line are used up by
the loops that share it.
-/

/-- A line of a body that opens, closes and attributes nothing. -/
structure PlainLine
    (signature : Signature)
    (line : Line) :
    Prop where
  opensNothing : opensRegion? line.code = none
  notEndIf : line.code ≠ Terminator.endIf.text
  notNext : nextCounters? line.code = none
  notTerminator : line.code ≠ signature.terminator.text
  notAttribute : Attribute.read? line.text = none

mutual

/-- An item of a well-nested body. -/
inductive BodyItem (signature : Signature) where
  | plain
      (line : Line)
      (isPlain : PlainLine signature line)
  | condition
      (opening : Line)
      (opens : opensCondition opening.code = true)
      (inside : List (BodyItem signature))
      (closing : Line)
      (closes : closing.code = Terminator.endIf.text)
  | loop (nest : LoopNest signature 0)

/-- A loop whose `Next` line also closes a number of loops around it. -/
inductive LoopNest (signature : Signature) : Nat → Type where
  /-- A loop with a `Next` line for itself and the loops around it. -/
  | closed
      {outer : Nat}
      (opening : Line)
      (opens : opensLoop opening.code = true)
      (inside : List (BodyItem signature))
      (closing : Line)
      (counters : List Text)
      (closes : nextCounters? closing.code = some counters)
      (usesAll : closedLoops counters = outer + 1) :
      LoopNest signature outer
  /-- A loop whose last item is a loop that shares its `Next` line. -/
  | shared
      {outer : Nat}
      (opening : Line)
      (opens : opensLoop opening.code = true)
      (inside : List (BodyItem signature))
      (inner : LoopNest signature (outer + 1)) :
      LoopNest signature outer

end

mutual

/-- The lines that an item is written out as, in their order. -/
def BodyItem.lines : BodyItem signature → List Line
  | .plain line _ => [line]
  | .condition opening _ inside closing _ =>
      opening :: (BodyItem.allLines inside ++ [closing])
  | .loop nest => nest.lines

/-- The lines of a loop, with those of a loop inside that shares its end. -/
def LoopNest.lines : LoopNest signature outer → List Line
  | .closed opening _ inside closing _ _ _ =>
      opening :: (BodyItem.allLines inside ++ [closing])
  | .shared opening _ inside inner =>
      opening :: (BodyItem.allLines inside ++ inner.lines)

/-- The lines of several items, one item after the other. -/
def BodyItem.allLines : List (BodyItem signature) → List Line
  | [] => []
  | item :: rest => item.lines ++ BodyItem.allLines rest

end

mutual

/-- The node that an item stands for. -/
def BodyItem.node : BodyItem signature → Node
  | .plain line _ => line.block []
  | .condition opening _ inside _ _ => opening.block (BodyItem.allNodes inside)
  | .loop nest => nest.node

/-- The node of a loop, with that of a loop inside that shares its end. -/
def LoopNest.node : LoopNest signature outer → Node
  | .closed opening _ inside _ _ _ _ => opening.block (BodyItem.allNodes inside)
  | .shared opening _ inside inner =>
      opening.block (BodyItem.allNodes inside ++ [inner.node])

/-- The nodes of several items, one for each. -/
def BodyItem.allNodes : List (BodyItem signature) → List Node
  | [] => []
  | item :: rest => item.node :: BodyItem.allNodes rest

end

namespace PlainLine

/-- A plain line closes no region. -/
theorem closedBy?_eq_none
    {signature : Signature}
    {line : Line}
    (isPlain : PlainLine signature line)
    (region : OpenRegion)
    (surplus : Nat) :
    region.closedBy? surplus line.code = none := by
  unfold OpenRegion.closedBy?
  split
  · exact if_neg isPlain.notEndIf
  · simp [isPlain.notNext]

/-- A plain line becomes a node of its own. -/
theorem readLine
    {signature : Signature}
    {line : Line}
    (isPlain : PlainLine signature line)
    {body : OpenBody}
    (settled : body.surplus = 0) :
    body.readLine line = (body.put [line.block []], []) := by
  rw [OpenBody.readLine_leaf
    (fun region _ => isPlain.closedBy?_eq_none region body.surplus)
    isPlain.opensNothing, settled, OpenBody.settle_zero settled]

end PlainLine

namespace OpenBody

/-- The terminator of a condition makes it an item of the body around it. -/
theorem readLine_endIf
    {body : OpenBody}
    (settled : body.surplus = 0)
    (opening : Line)
    (inside : List Node)
    {closing : Line}
    (closes : closing.code = Terminator.endIf.text) :
    ((body.openRegion .condition opening).put inside).readLine closing =
      (body.put [opening.block inside], []) := by
  have closesCondition :
      OpenRegion.closedBy? ⟨.condition, opening, inside.reverse⟩ body.surplus
          closing.code =
        some 0 := by
    simp [OpenRegion.closedBy?, closes, settled]
  rw [put_openRegion, readLine_closing closesCondition,
    OpenRegion.node_eq, List.reverse_reverse, settle_zero settled]

/-- A `Next` line closes a loop and the loops around it that it counts. -/
theorem readLine_next
    (body : OpenBody)
    (opening : Line)
    (inside : List Node)
    {closing : Line}
    {counters : List Text}
    {outer : Nat}
    (closes : nextCounters? closing.code = some counters)
    (usesAll : closedLoops counters = outer + 1) :
    ((body.openRegion .loop opening).put inside).readLine closing =
      settle body.items outer (opening.block inside) body.regions := by
  have closesLoop :
      OpenRegion.closedBy? ⟨.loop, opening, inside.reverse⟩ body.surplus
          closing.code =
        some outer := by
    simp [OpenRegion.closedBy?, closes, usesAll]
  rw [put_openRegion, readLine_closing closesLoop, OpenRegion.node_eq,
    List.reverse_reverse]

/-- A loop that shares its end closes with the loop inside and takes its node. -/
theorem settle_openRegion
    (body : OpenBody)
    (opening : Line)
    (inside : List Node)
    (outer : Nat)
    (node : Node) :
    settle body.items (outer + 1) node
        ((body.openRegion .loop opening).put inside).regions =
      settle body.items outer (opening.block (inside ++ [node])) body.regions := by
  rw [put_openRegion, settle_loop _ _ _ _ _ rfl, OpenRegion.node_eq]
  simp [OpenRegion.add]

end OpenBody

/-- A condition opens a region. -/
theorem opensRegion?_of_opensCondition
    {code : Text}
    (opens : opensCondition code = true) :
    opensRegion? code = some .condition :=
  if_pos opens

/-- A loop opens a region. -/
theorem opensRegion?_of_opensLoop
    {code : Text}
    (opens : opensLoop code = true) :
    opensRegion? code = some .loop := by
  simp [opensRegion?, opensCondition_eq_false_of_opensLoop opens, opens]

mutual

/-- The lines of an item add its node. -/
theorem BodyItem.readLines_lines :
    ∀ (item : BodyItem signature)
      (body : OpenBody),
      body.surplus = 0 →
      body.readLines item.lines = (body.put [item.node], [])
  | .plain line isPlain, body, settled => by
      rw [BodyItem.lines, OpenBody.readLines_singleton, isPlain.readLine settled,
        BodyItem.node]
  | .condition opening opens inside closing closes, body, settled => by
      have holds :=
        BodyItem.readLines_allLines inside (body.openRegion .condition opening)
          settled
      rw [BodyItem.lines,
        OpenBody.readLines_openRegion_append
          (opensRegion?_of_opensCondition opens) holds,
        OpenBody.readLines_singleton,
        OpenBody.readLine_endIf settled opening _ closes, BodyItem.node]
  | .loop nest, body, settled => by
      rw [BodyItem.lines, nest.readLines_lines body settled,
        OpenBody.settle_zero settled, BodyItem.node]

/-- The lines of a loop add its node and close the loops around it. -/
theorem LoopNest.readLines_lines :
    ∀ {outer : Nat}
      (nest : LoopNest signature outer)
      (body : OpenBody),
      body.surplus = 0 →
      body.readLines nest.lines =
        OpenBody.settle body.items outer nest.node body.regions
  | _, .closed opening opens inside closing counters closes usesAll,
      body, settled => by
      have holds :=
        BodyItem.readLines_allLines inside (body.openRegion .loop opening) settled
      rw [LoopNest.lines,
        OpenBody.readLines_openRegion_append (opensRegion?_of_opensLoop opens) holds,
        OpenBody.readLines_singleton,
        OpenBody.readLine_next body opening _ closes usesAll, LoopNest.node]
  | _, .shared opening opens inside inner, body, settled => by
      have holds :=
        BodyItem.readLines_allLines inside (body.openRegion .loop opening) settled
      have closesOuter :=
        inner.readLines_lines
          ((body.openRegion .loop opening).put (BodyItem.allNodes inside))
          ((OpenBody.surplus_put ..).trans settled)
      rw [LoopNest.lines,
        OpenBody.readLines_openRegion_append (opensRegion?_of_opensLoop opens) holds,
        closesOuter, OpenBody.items_put_openRegion, OpenBody.settle_openRegion,
        LoopNest.node]

/-- The lines of a forest add its nodes. -/
theorem BodyItem.readLines_allLines :
    ∀ (forest : List (BodyItem signature))
      (body : OpenBody),
      body.surplus = 0 →
      body.readLines (BodyItem.allLines forest) =
        (body.put (BodyItem.allNodes forest), [])
  | [], body, _ => by
      rw [BodyItem.allLines, BodyItem.allNodes, OpenBody.put_nil]
      rfl
  | item :: rest, body, settled => by
      have addsItem := item.readLines_lines body settled
      rw [BodyItem.allLines, OpenBody.readLines_append addsItem,
        BodyItem.readLines_allLines rest _ ((body.surplus_put _).trans settled),
        OpenBody.put_put]
      rfl

end

/-- A line that goes into the body of a member wherever it stands. -/
structure BodyLine
    (signature : Signature)
    (line : Line) :
    Prop where
  notTerminator : line.code ≠ signature.terminator.text
  notAttribute : Attribute.read? line.text = none

namespace BodyLine

/-- The first letter of a line may tell that it goes into the body. -/
theorem of_head
    {signature : Signature}
    {line : Line}
    {c : Char}
    (opens : line.code.head? = some c)
    (notEnd : c ≠ 'E')
    (notAttribute : c ≠ 'A') :
    BodyLine signature line where
  notTerminator := by
    intro closes
    rw [closes, signature.head?_terminator, Option.some.injEq] at opens
    exact notEnd opens.symm
  notAttribute := Attribute.read?_eq_none_of_code opens notAttribute

/-- The end of a condition is neither a terminator nor an attribute. -/
theorem of_endIf
    {signature : Signature}
    {line : Line}
    (closes : line.code = Terminator.endIf.text) :
    BodyLine signature line where
  notTerminator := by
    rw [closes]
    exact signature.terminator_ne_endIf.symm
  notAttribute := by
    have opens : line.code.head? = some 'E' := by
      rw [closes]
      rfl
    exact Attribute.read?_eq_none_of_code opens (by decide)

end BodyLine

mutual

/-- The lines of an item can stand in a body. -/
theorem BodyItem.bodyLine_of_mem :
    ∀ (item : BodyItem signature),
      ∀ line ∈ item.lines, BodyLine signature line
  | .plain line isPlain, other, member => by
      rw [BodyItem.lines, List.mem_singleton] at member
      subst other
      exact ⟨isPlain.notTerminator, isPlain.notAttribute⟩
  | .condition opening opens inside closing closes, line, member => by
      simp only [BodyItem.lines, List.mem_cons, List.mem_append,
        List.not_mem_nil, or_false] at member
      rcases member with rfl | inRegion | rfl
      · exact .of_head (head?_of_opensCondition opens) (by decide) (by decide)
      · exact BodyItem.bodyLine_of_mem_all inside line inRegion
      · exact .of_endIf closes
  | .loop nest, line, member => by
      rw [BodyItem.lines] at member
      exact nest.bodyLine_of_mem line member

/-- The lines of a loop can stand in a body. -/
theorem LoopNest.bodyLine_of_mem :
    ∀ {outer : Nat}
      (nest : LoopNest signature outer),
      ∀ line ∈ nest.lines, BodyLine signature line
  | _, .closed opening opens inside closing counters closes _, line, member => by
      simp only [LoopNest.lines, List.mem_cons, List.mem_append,
        List.not_mem_nil, or_false] at member
      rcases member with rfl | inRegion | rfl
      · exact .of_head (head?_of_opensLoop opens) (by decide) (by decide)
      · exact BodyItem.bodyLine_of_mem_all inside line inRegion
      · exact .of_head (head?_of_nextCounters? closes) (by decide) (by decide)
  | _, .shared opening opens inside inner, line, member => by
      simp only [LoopNest.lines, List.mem_cons, List.mem_append] at member
      rcases member with rfl | inRegion | inLoop
      · exact .of_head (head?_of_opensLoop opens) (by decide) (by decide)
      · exact BodyItem.bodyLine_of_mem_all inside line inRegion
      · exact inner.bodyLine_of_mem line inLoop

/-- All lines of a forest go into the body. -/
theorem BodyItem.bodyLine_of_mem_all :
    ∀ (forest : List (BodyItem signature)),
      ∀ line ∈ BodyItem.allLines forest, BodyLine signature line
  | [], line, member => by
      simp [BodyItem.allLines] at member
  | item :: rest, line, member => by
      rw [BodyItem.allLines, List.mem_append] at member
      rcases member with inItem | inRest
      · exact item.bodyLine_of_mem line inItem
      · exact BodyItem.bodyLine_of_mem_all rest line inRest

end

/-- The steps of reading lines that report nothing. -/
def Line.looks (lines : List Line) : List Step :=
  lines.map fun line => .look line.number

namespace Reading

/-- Outside of members a signature opens its member. -/
theorem result_readLine_signature
    {reading : Reading}
    {opening : Line}
    {signature : Signature}
    (outside : reading.IsOutside)
    (opens : Signature.read? opening.code = some signature) :
    (reading.readLine opening).result =
      .ok (reading.movedTo (.member ⟨signature, opening.number, [], .empty⟩)) := by
  rw [readLine, Run.result_look_bind]
  rcases outside with place | place
  · simp only [place, opens]
    rfl
  · simp only [place, readOutside, Signature.isSilent_eq_false_of_read? opens,
      Bool.false_eq_true, if_false, opens]
    rfl

/-- A line of a body that reports nothing is read into the body, and the reading
looks at it. -/
theorem readLine_bodyLine
    {reading : Reading}
    {member : OpenMember}
    {line : Line}
    {body : OpenBody}
    (place : reading.place = .member member)
    (inBody : BodyLine member.signature line)
    (quiet : member.body.readLine line = (body, [])) :
    reading.readLine line =
      ⟨[.look line.number],
        .ok (reading.movedTo (.member { member with body := body }))⟩ := by
  have unstated : Attribute.readNode? line.text line.number = none := by
    simp [Attribute.readNode?, inBody.notAttribute]
  have intoBody : member.readLine line = member.readBody line := by
    unfold OpenMember.readLine
    split
    · rw [if_neg inBody.notTerminator, unstated]
    · rfl
  simp only [readLine, place, readMember, intoBody, OpenMember.readBody, quiet]
  rfl

/-- Lines that go into the body of a member and report nothing. -/
theorem readLines_bodyLines
    {reading : Reading}
    {member : OpenMember}
    {lines : List Line}
    {body : OpenBody}
    (place : reading.place = .member member)
    (inBody : ∀ line ∈ lines, BodyLine member.signature line)
    (quiet : member.body.readLines lines = (body, [])) :
    reading.readLines lines =
      ⟨Line.looks lines,
        .ok (reading.movedTo (.member { member with body := body }))⟩ := by
  induction lines generalizing reading member with
  | nil =>
      cases quiet
      rw [← place]
      rfl
  | cons line rest inductionHypothesis =>
      simp only [OpenBody.readLines, Prod.mk.injEq,
        List.append_eq_nil_iff] at quiet
      obtain ⟨same, noEvents, noLater⟩ := quiet
      let next := (member.body.readLine line).1
      have first :
          reading.readLine line =
            ⟨[.look line.number],
              .ok (reading.movedTo (.member { member with body := next }))⟩ :=
        readLine_bodyLine place (inBody line (by simp)) (Prod.ext rfl noEvents)
      have others :
          (reading.movedTo (.member { member with body := next })).readLines rest =
            ⟨Line.looks rest,
              .ok (reading.movedTo (.member { member with body := body }))⟩ :=
        @inductionHypothesis _ { member with body := next } rfl
          (fun later isLater => inBody later (by simp [isLater]))
          (Prod.ext same noLater)
      rw [readLines, first, Run.mk_ok_bind, others]
      rfl

/-- A terminator outside of all regions closes the member. -/
theorem readLine_terminator
    {reading : Reading}
    {member : OpenMember}
    {closing : Line}
    (place : reading.place = .member member)
    (atTop : member.body.regions = [])
    (closes : closing.code = member.signature.terminator.text) :
    reading.readLine closing =
      ⟨[.look closing.number], .ok (reading.closeMember member.node)⟩ := by
  simp only [readLine, place, readMember, OpenMember.readLine, atTop, closes]
  rfl

/-- A member with a well-nested body is read without a report behind its signature. -/
theorem readLines_wellNested
    {reading : Reading}
    {opening closing : Line}
    {signature : Signature}
    (outside : reading.IsOutside)
    (opens : Signature.read? opening.code = some signature)
    (forest : List (BodyItem signature))
    (closes : closing.code = signature.terminator.text) :
    reading.readLines (opening :: (BodyItem.allLines forest ++ [closing])) =
      ⟨(reading.readLine opening).steps ++
          Line.looks (BodyItem.allLines forest ++ [closing]),
        .ok
          (reading.closeMember
            (signature.memberNode opening.number []
              (BodyItem.allNodes forest)))⟩ := by
  let member : OpenMember := ⟨signature, opening.number, [], .empty⟩
  let filled : OpenMember :=
    { member with body := OpenBody.empty.put (BodyItem.allNodes forest) }
  have signed :
      (reading.readLine opening).result =
        .ok (reading.movedTo (.member member)) :=
    result_readLine_signature outside opens
  have body :
      (reading.movedTo (.member member)).readLines (BodyItem.allLines forest) =
        ⟨Line.looks (BodyItem.allLines forest),
          .ok (reading.movedTo (.member filled))⟩ :=
    readLines_bodyLines rfl (BodyItem.bodyLine_of_mem_all forest)
      (BodyItem.readLines_allLines forest .empty rfl)
  have terminated :
      (reading.movedTo (.member filled)).readLine closing =
        ⟨[.look closing.number], .ok (reading.closeMember filled.node)⟩ :=
    readLine_terminator rfl rfl closes
  have node :
      filled.node =
        signature.memberNode opening.number [] (BodyItem.allNodes forest) := by
    simp [filled, member, OpenMember.node_eq, OpenBody.put, OpenBody.empty]
  rw [readLines, Run.bind_of_result_eq_ok signed, readLines_append, body,
    Run.mk_ok_bind, readLines_singleton, terminated, node]
  simp [Line.looks]

/--
Wherever a member may stand, its signature, any forest of items and its
terminator are read as the member whose body is that forest: the forest's nodes
are what stands below its one block.  Nothing is reported but the member, and
what follows is read on as if nothing had been open.
-/
theorem readLines_member
    {reading : Reading}
    {opening closing : Line}
    {signature : Signature}
    (outside : reading.IsOutside)
    (opens : Signature.read? opening.code = some signature)
    (forest : List (BodyItem signature))
    (closes : closing.code = signature.terminator.text)
    (following : List Line) :
    reading.readLines
        (opening :: (BodyItem.allLines forest ++ closing :: following)) =
      (⟨(reading.readLine opening).steps ++
            Line.looks (BodyItem.allLines forest ++ [closing]),
          .ok
            (reading.closeMember
              (signature.memberNode opening.number []
                (BodyItem.allNodes forest)))⟩ : Run Reading) >>=
        (fun behind => behind.readLines following) ∧
      (signature.memberNode opening.number []
          (BodyItem.allNodes forest)).childrenOfKind .codeBlock =
        [⟨signature.heading.name, opening.number, .codeBlock,
          BodyItem.allNodes forest⟩] := by
  constructor
  · rw [← readLines_wellNested outside opens forest closes, ← readLines_append]
    simp
  · exact signature.codeBlocks_memberNode _ _ (by simp)

/--
Two loops that share their `Next` line inside a condition, with a line behind
it, are read back from a whole member.
-/
theorem readLines_member_sharedNext :
    ∃ (signature : Signature) (forest : List (BodyItem signature)),
      Signature.read? (Line.code ⟨"Sub A()", 2⟩) = some signature ∧
      BodyItem.allLines forest =
        [⟨"If x Then", 3⟩, ⟨"For i = 1 To 2", 4⟩, ⟨"For j = 1 To 2", 5⟩,
          ⟨"y = 1", 6⟩, ⟨"Next j, i", 7⟩, ⟨"End If", 8⟩, ⟨"z = 2", 9⟩] ∧
      BodyItem.allNodes forest =
        [Line.block ⟨"If x Then", 3⟩
          [Line.block ⟨"For i = 1 To 2", 4⟩
            [Line.block ⟨"For j = 1 To 2", 5⟩ [Line.block ⟨"y = 1", 6⟩ []]]],
          Line.block ⟨"z = 2", 9⟩ []] ∧
      start.readLines
          (⟨"Sub A()", 2⟩ :: (BodyItem.allLines forest ++ ⟨"End Sub", 10⟩ :: [])) =
        (⟨(start.readLine ⟨"Sub A()", 2⟩).steps ++
              Line.looks (BodyItem.allLines forest ++ [⟨"End Sub", 10⟩]),
            .ok
              (start.closeMember
                (signature.memberNode 2 [] (BodyItem.allNodes forest)))⟩ :
            Run Reading) >>=
          (fun behind => behind.readLines []) ∧
      (signature.memberNode 2 [] (BodyItem.allNodes forest)).childrenOfKind .codeBlock =
        [⟨"A", 2, .codeBlock, BodyItem.allNodes forest⟩] := by
  let signature : Signature := ⟨none, false, .method .sub, ⟨"A", some [], none⟩⟩
  let assignment : BodyItem signature :=
    .plain ⟨"y = 1", 6⟩
      ⟨by decide, by decide, by decide, by decide, by decide⟩
  let inner : LoopNest signature 1 :=
    .closed ⟨"For j = 1 To 2", 5⟩ (by decide +kernel) [assignment]
      ⟨"Next j, i", 7⟩ ["j".toList, "i".toList] (by decide) rfl
  let condition : BodyItem signature :=
    .condition ⟨"If x Then", 3⟩ (by decide)
      [.loop (.shared ⟨"For i = 1 To 2", 4⟩ (by decide +kernel) [] inner)]
      ⟨"End If", 8⟩ (by decide)
  let last : BodyItem signature :=
    .plain ⟨"z = 2", 9⟩
      ⟨by decide, by decide, by decide, by decide, by decide⟩
  exact
    ⟨signature, [condition, last], by decide, rfl, rfl,
      readLines_member (.inl rfl) (by decide) [condition, last] (by decide) []⟩

end Reading

end ClassicBasic
