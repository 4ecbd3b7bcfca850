import ClassicBasic.Proofs.Member.Body
import ClassicBasic.Proofs.Reading
import Mathlib.Data.List.TakeWhile

namespace ClassicBasic

/-!
# Which lines regions are left on

A condition is left on its `End If` only.  A loop is left on a `Next` line, or
because loops stay to be closed when one more node comes into it.  Loops stay
to be closed behind a `Next` line that lists more counters than there are loops
inside the innermost condition; the rest of its counters is not forgotten
there, and so it reaches loops around the condition and loops that are opened
later.
-/

/-! ## Bodies -/

namespace OpenBody

/-- The loops around the next node, up to the innermost condition. -/
def loops (regions : List OpenRegion) : List OpenRegion :=
  regions.takeWhile fun region => region.kind = .loop

/-- The open regions that a line leaves, innermost first. -/
def leaves (body : OpenBody) (line : Line) : List OpenRegion :=
  match body.regions with
  | [] => []
  | region :: outer =>
      match region.closedBy? body.surplus line.code with
      | some left => region :: (loops outer).take left
      | none =>
          match opensRegion? line.code with
          | some _ => []
          | none => (loops (region :: outer)).take body.surplus

/-- A line that no loop is closed by gives a loop one more node, or ends a
condition directly inside a loop, while loops stay to be closed. -/
inductive Spills (line : Line) : OpenBody → Prop where
  | leaf
      {items : List Node}
      {region : OpenRegion}
      {outer : List OpenRegion}
      {surplus : Nat}
      (isLoop : region.kind = .loop)
      (unclosed : 0 < surplus)
      (noNext : nextCounters? line.code = none)
      (opensNothing : opensRegion? line.code = none) :
      Spills line ⟨items, region :: outer, surplus⟩
  | condition
      {items : List Node}
      {region loop : OpenRegion}
      {outer : List OpenRegion}
      {surplus : Nat}
      (isCondition : region.kind = .condition)
      (isLoop : loop.kind = .loop)
      (unclosed : 0 < surplus)
      (closes : line.code = Terminator.endIf.text) :
      Spills line ⟨items, region :: loop :: outer, surplus⟩

/-- A `Next` line closes more loops than are open inside the innermost of the
conditions around it. -/
structure Overcloses (line : Line) (body : OpenBody) : Prop where
  inLoop : loops body.regions ≠ []
  inCondition : ∃ region ∈ body.regions, region.kind = .condition
  lists :
    ∃ counters,
      nextCounters? line.code = some counters ∧
        (loops body.regions).length < closedLoops counters

/-- A loop that is open inside is one of the innermost loops. -/
theorem loops_cons_loop
    {region : OpenRegion}
    (isLoop : region.kind = .loop)
    (outer : List OpenRegion) :
    loops (region :: outer) = region :: loops outer := by
  simp [loops, isLoop]

/-- Inside a condition no loop is open yet. -/
theorem loops_cons_condition
    {region : OpenRegion}
    (isCondition : region.kind = .condition)
    (outer : List OpenRegion) :
    loops (region :: outer) = [] := by
  simp [loops, isCondition]

/-- A node completes as many loops around it as stay to be closed. -/
theorem length_regions_settle
    (items : List Node)
    (surplus : Nat)
    (node : Node)
    (regions : List OpenRegion) :
    (settle items surplus node regions).1.regions.length +
        ((loops regions).take surplus).length =
      regions.length := by
  induction regions generalizing surplus node with
  | nil =>
      simp [settle, loops]
  | cons region outer inductionHypothesis =>
      cases kind : region.kind with
      | condition =>
          rw [loops_cons_condition kind]
          simp [settle, kind]
      | loop =>
          cases surplus with
          | zero =>
              simp [settle]
          | succ surplus =>
              rw [settle_loop _ _ _ _ _ kind, loops_cons_loop kind,
                List.take_succ_cons, List.length_cons, List.length_cons,
                ← Nat.add_assoc, inductionHypothesis]

/-- Loops stay to be closed when there are too few of them inside a condition. -/
theorem surplus_settle_pos_iff
    {items : List Node}
    {surplus : Nat}
    {node : Node}
    {regions : List OpenRegion} :
    0 < (settle items surplus node regions).1.surplus ↔
      (loops regions).length < surplus ∧
        ∃ region ∈ regions, region.kind = .condition := by
  induction regions generalizing surplus node with
  | nil =>
      simp [settle]
  | cons region outer inductionHypothesis =>
      cases kind : region.kind with
      | condition =>
          rw [loops_cons_condition kind]
          simp [settle, kind]
      | loop =>
          cases surplus with
          | zero =>
              simp [settle]
          | succ surplus =>
              rw [settle_loop _ _ _ _ _ kind, loops_cons_loop kind,
                inductionHypothesis]
              simp [kind]

/-- The innermost loops are loops. -/
theorem isLoop_of_mem_loops
    {region : OpenRegion}
    {regions : List OpenRegion}
    (member : region ∈ loops regions) :
    region.kind = .loop := by
  have isTaken := List.mem_takeWhile_imp member
  simpa using isTaken

/-- The regions in front are taken by taking all but as many as remain. -/
theorem take_eq_of_prefix
    {left regions : List OpenRegion}
    {remaining : Nat}
    (isFront : left <+: regions)
    (counts : remaining + left.length = regions.length) :
    regions.take (regions.length - remaining) = left := by
  have length : regions.length - remaining = left.length := by
    omega
  rw [length]
  exact (List.prefix_iff_eq_take.mp isFront).symm

/-- The regions that are open before a line and not behind it are those that
the line leaves. -/
theorem take_regions_readLine
    (body : OpenBody)
    (line : Line) :
    body.regions.take
        (body.regions.length - (body.readLine line).1.regions.length) =
      body.leaves line := by
  -- Regions close from the innermost on, so those that are left are a front of the
  -- list.
  have fewer :
      ∀ (surplus : Nat) (regions : List OpenRegion),
        (loops regions).take surplus <+: regions := by
    intro surplus regions
    exact (List.take_prefix _ _).trans (List.takeWhile_prefix _)
  rcases body with ⟨items, regions, surplus⟩
  cases regions with
  | nil =>
      simp [leaves]
  | cons region outer =>
      cases closes : region.closedBy? surplus line.code with
      | some left =>
          have leavesRegion :
              leaves ⟨items, region :: outer, surplus⟩ line =
                region :: (loops outer).take left := by
            simp only [leaves, closes]
          rw [leavesRegion, readLine_closing closes]
          refine take_eq_of_prefix ((List.prefix_cons_inj region).mpr
            (fewer left outer)) ?_
          rw [List.length_cons, List.length_cons, ← Nat.add_assoc,
            length_regions_settle]
      | none =>
          have stays :
              ∀ inner ∈ (region :: outer).head?,
                inner.closedBy? surplus line.code = none := by
            simpa using closes
          cases opens : opensRegion? line.code with
          | some kind =>
              rw [readLine_opening opens]
              simp [leaves, closes, opens, openRegion]
          | none =>
              have leavesLoops :
                  leaves ⟨items, region :: outer, surplus⟩ line =
                    (loops (region :: outer)).take surplus := by
                simp only [leaves, closes, opens]
              rw [leavesLoops, readLine_leaf stays opens]
              exact take_eq_of_prefix (fewer surplus (region :: outer))
                (length_regions_settle _ _ _ _)

/-- A condition is left on its end only. -/
theorem endIf_of_mem_leaves
    {body : OpenBody}
    {line : Line}
    {region : OpenRegion}
    (member : region ∈ body.leaves line)
    (isCondition : region.kind = .condition) :
    line.code = Terminator.endIf.text := by
  have noLoop :
      ∀ (surplus : Nat) (regions : List OpenRegion),
        region ∉ (loops regions).take surplus := by
    intro surplus regions isLeft
    have isLoop := isLoop_of_mem_loops (List.mem_of_mem_take isLeft)
    rw [isCondition] at isLoop
    cases isLoop
  unfold leaves at member
  split at member
  · simp at member
  · next inner outer regions =>
      split at member
      · next left closes =>
          rcases List.mem_cons.mp member with rfl | isOuter
          · simp only [OpenRegion.closedBy?, isCondition] at closes
            split at closes
            · assumption
            · cases closes
          · exact (noLoop left outer isOuter).elim
      · split at member
        · simp at member
        · exact (noLoop _ _ member).elim

/-- A line that spills has no `Next`, and it leaves a loop. -/
theorem Spills.leaves_loop
    {body : OpenBody}
    {line : Line}
    (spills : body.Spills line) :
    nextCounters? line.code = none ∧
      ∃ region ∈ body.leaves line, region.kind = .loop := by
  cases spills with
  | @leaf items region outer surplus isLoop unclosed noNext opensNothing =>
      have stays : region.closedBy? surplus line.code = none := by
        simp [OpenRegion.closedBy?, isLoop, noNext]
      obtain ⟨less, rfl⟩ := Nat.exists_eq_succ_of_ne_zero unclosed.ne'
      refine ⟨noNext, region, ?_, isLoop⟩
      simp [leaves, stays, opensNothing, loops_cons_loop isLoop]
  | @condition items region loop outer surplus isCondition isLoop unclosed
      closes =>
      have closed : region.closedBy? surplus line.code = some surplus := by
        simp [OpenRegion.closedBy?, isCondition, closes]
      obtain ⟨less, rfl⟩ := Nat.exists_eq_succ_of_ne_zero unclosed.ne'
      refine ⟨by rw [closes]; decide, loop, ?_, isLoop⟩
      simp [leaves, closed, loops_cons_loop isLoop]

/-- Inside a loop, a line without `Next` that leaves a region is a leaf. -/
theorem spills_in_loop
    {items : List Node}
    {region left : OpenRegion}
    {outer : List OpenRegion}
    {surplus : Nat}
    {line : Line}
    (isLoop : region.kind = .loop)
    (noNext : nextCounters? line.code = none)
    (isLeft : left ∈ leaves ⟨items, region :: outer, surplus⟩ line) :
    Spills line ⟨items, region :: outer, surplus⟩ := by
  have stays : region.closedBy? surplus line.code = none := by
    simp [OpenRegion.closedBy?, isLoop, noNext]
  cases opens : opensRegion? line.code with
  | some kind =>
      simp [leaves, stays, opens] at isLeft
  | none =>
      simp only [leaves, stays, opens] at isLeft
      have unclosed := List.length_pos_of_mem isLeft
      rw [List.length_take] at unclosed
      exact .leaf isLoop (by omega) noNext opens

/-- Inside a condition, a line that leaves a loop is `End If`, and the loop is
the next region around. -/
theorem spills_in_condition
    {items : List Node}
    {region loop : OpenRegion}
    {outer : List OpenRegion}
    {surplus : Nat}
    {line : Line}
    (isCondition : region.kind = .condition)
    (isLoop : loop.kind = .loop)
    (isLeft : loop ∈ leaves ⟨items, region :: outer, surplus⟩ line) :
    Spills line ⟨items, region :: outer, surplus⟩ := by
  -- Inside a condition loops are left only together with it, on its end.
  by_cases isEndIf : line.code = Terminator.endIf.text
  · have closed : region.closedBy? surplus line.code = some surplus := by
      simp [OpenRegion.closedBy?, isCondition, isEndIf]
    simp only [leaves, closed] at isLeft
    have isOuter : loop ∈ (loops outer).take surplus := by
      rcases List.mem_cons.mp isLeft with rfl | isOuter
      · rw [isCondition] at isLoop
        cases isLoop
      · exact isOuter
    have unclosed := List.length_pos_of_mem isOuter
    rw [List.length_take] at unclosed
    cases outer with
    | nil =>
        simp [loops] at isOuter
    | cons around others =>
        cases kind : around.kind with
        | condition =>
            simp [loops_cons_condition kind] at isOuter
        | loop =>
            exact .condition isCondition kind (by omega) isEndIf
  · have stays : region.closedBy? surplus line.code = none := by
      simp [OpenRegion.closedBy?, isCondition, isEndIf]
    cases opens : opensRegion? line.code with
    | some kind =>
        simp [leaves, stays, opens] at isLeft
    | none =>
        simp [leaves, stays, opens, loops_cons_condition isCondition] at isLeft

/-- A loop is left on a line without `Next` exactly when the line spills. -/
theorem spills_iff
    {body : OpenBody}
    {line : Line} :
    body.Spills line ↔
      nextCounters? line.code = none ∧
        ∃ region ∈ body.leaves line, region.kind = .loop := by
  constructor
  · intro spills
    exact spills.leaves_loop
  · rintro ⟨noNext, loop, isLeft, isLoop⟩
    rcases body with ⟨items, _ | ⟨region, outer⟩, surplus⟩
    · simp [leaves] at isLeft
    · cases kind : region.kind with
      | loop =>
          exact spills_in_loop kind noNext isLeft
      | condition =>
          exact spills_in_condition kind isLoop isLeft

/-- A line spills only where loops stay to be closed. -/
theorem Spills.surplus_pos
    {body : OpenBody}
    {line : Line}
    (spills : body.Spills line) :
    0 < body.surplus := by
  cases spills <;>
    assumption

/-- Only a `Next` line that closes too many loops makes loops stay to be closed. -/
theorem overcloses_of_surplus_pos
    {body : OpenBody}
    {line : Line}
    (unclosed : 0 < (body.readLine line).1.surplus) :
    0 < body.surplus ∨ body.Overcloses line := by
  rcases body with ⟨items, regions, surplus⟩
  have item :
      0 < (readItem ⟨items, regions, surplus⟩ line).1.surplus → 0 < surplus := by
    intro still
    unfold readItem at still
    split at still
    · exact still
    · exact Nat.zero_lt_of_lt (surplus_settle_pos_iff.mp still).1
  cases regions with
  | nil =>
      exact .inl (item unclosed)
  | cons region outer =>
      cases closes : region.closedBy? surplus line.code with
      | none =>
          rw [readLine_item (by simpa using closes)] at unclosed
          exact .inl (item unclosed)
      | some left =>
          rw [readLine_closing closes] at unclosed
          obtain ⟨fewer, condition, isOuter, isCondition⟩ :=
            surplus_settle_pos_iff.mp unclosed
          -- The end of a condition keeps the number of loops; only a list of counters
          -- can raise it.
          cases kind : region.kind with
          | condition =>
              have same : line.code = Terminator.endIf.text ∧ surplus = left := by
                simpa [OpenRegion.closedBy?, kind] using closes
              rw [← same.2] at fewer
              exact .inl (Nat.zero_lt_of_lt fewer)
          | loop =>
              simp only [OpenRegion.closedBy?, kind] at closes
              obtain ⟨counters, lists, rfl⟩ := Option.map_eq_some_iff.mp closes
              refine
                .inr
                  ⟨by simp [loops_cons_loop kind],
                    ⟨condition, by simp [isOuter], isCondition⟩, counters, lists, ?_⟩
              rw [loops_cons_loop kind, List.length_cons]
              omega

end OpenBody

/-! ## Readings -/

namespace Reading

/-- The open regions at the place of a reading, innermost first. -/
def regions (reading : Reading) : List OpenRegion :=
  match reading.place with
  | .member inner => inner.body.regions
  | _ => []

/-- The number of loops that stay to be closed at the place of a reading. -/
def surplus (reading : Reading) : Nat :=
  match reading.place with
  | .member inner => inner.body.surplus
  | _ => 0

/-- A region is open in one reading and not in the next one. -/
def Leaves (reading next : Reading) (region : OpenRegion) : Prop :=
  region ∈ reading.regions.take (reading.regions.length - next.regions.length)

/-- A line spills in the member that a reading is at. -/
def Spills (reading : Reading) (line : Line) : Prop :=
  ∃ member, reading.place = .member member ∧ member.body.Spills line

/-- A line closes too many loops in the member that a reading is at. -/
def Overcloses (reading : Reading) (line : Line) : Prop :=
  ∃ member, reading.place = .member member ∧ member.body.Overcloses line

variable
  {reading next : Reading}
  {line : Line}

/-- Where regions are open, a line goes into the body. -/
theorem Advances.readsBody
    {member : OpenMember}
    (advances : Advances line reading next)
    (place : reading.place = .member member)
    (inRegion : member.body.regions ≠ []) :
    next.place = .member { member with body := (member.body.readLine line).1 } := by
  cases advances with
  | silentDeclaration elsewhere _ _
  | declaration elsewhere _ _ _
  | blockEnd elsewhere _ _
  | blockLine elsewhere _
  | outside elsewhere _ =>
      rw [place] at elsewhere
      cases elsewhere
  | memberStart elsewhere signed =>
      rcases elsewhere with elsewhere | elsewhere <;>
        rw [place] at elsewhere <;>
        cases elsewhere
  | attributeLine here atTop _ _
  | memberEnd here atTop _ =>
      rw [place] at here
      cases here
      exact (inRegion atTop).elim
  | bodyLine here inside =>
      rw [place] at here
      cases here
      rfl

/-- The regions left on a line are those that the body of a member leaves. -/
theorem Advances.leaves_iff
    {region : OpenRegion}
    (advances : Advances line reading next) :
    reading.Leaves next region ↔
      ∃ member,
        reading.place = .member member ∧ region ∈ member.body.leaves line := by
  -- Regions are those of the open member, and the line is read into its body.
  have sameRegions :
      ∀ member,
        reading.place = .member member →
          member.body.regions ≠ [] →
            reading.regions.take (reading.regions.length - next.regions.length) =
              member.body.leaves line := by
    intro member place inRegion
    have behind := advances.readsBody place inRegion
    simp only [regions, place, behind]
    exact OpenBody.take_regions_readLine member.body line
  constructor
  · intro isLeft
    unfold Leaves at isLeft
    have isOpen : region ∈ reading.regions := List.mem_of_mem_take isLeft
    cases place : reading.place with
    | declarations | block _ _ _ | members =>
        simp [regions, place] at isOpen
    | member member =>
        have inRegion : member.body.regions ≠ [] := by
          simp only [regions, place] at isOpen
          exact List.ne_nil_of_mem isOpen
        rw [sameRegions member place inRegion] at isLeft
        exact ⟨member, rfl, isLeft⟩
  · rintro ⟨member, place, isLeft⟩
    have inRegion : member.body.regions ≠ [] := by
      intro atTop
      simp [OpenBody.leaves, atTop] at isLeft
    unfold Leaves
    rw [sameRegions member place inRegion]
    exact isLeft

/-- Loops that stay to be closed stayed so before, or the line closes too many. -/
theorem Advances.overcloses_of_surplus_pos
    (advances : Advances line reading next)
    (unclosed : 0 < next.surplus) :
    0 < reading.surplus ∨ reading.Overcloses line := by
  cases advances with
  | silentDeclaration _ _ _
  | outside _ _ =>
      exact .inl unclosed
  | @declaration extent _ _ _ _
  | @blockEnd _ _ _ extent _ _ _ =>
      cases extent <;>
        simp [surplus, afterInstructions] at unclosed
  | blockLine _ _
  | memberStart _ _
  | memberEnd _ _ _ =>
      simp [surplus, movedTo, closeMember, OpenBody.empty] at unclosed
  | @attributeLine member _ place _ _ _ =>
      have still : 0 < member.body.surplus := unclosed
      left
      simpa only [surplus, place] using still
  | @bodyLine member place _ =>
      rcases OpenBody.overcloses_of_surplus_pos unclosed with still | overcloses
      · left
        simpa only [surplus, place] using still
      · exact .inr ⟨member, place, overcloses⟩

/-- Loops that stay to be closed come from a line that closes too many. -/
theorem exists_overcloses_of_surplus_pos
    {lines : List Line}
    {final : Reading}
    (reads : (start.readLines lines).result = .ok final)
    (unclosed : 0 < final.surplus) :
    ∃ front overclosing behind earlier,
      lines = front ++ overclosing :: behind ∧
        (start.readLines front).result = .ok earlier ∧
        earlier.Overcloses overclosing := by
  refine
    readLines_induction
      (motive := fun before reading =>
        0 < reading.surplus →
          ∃ front overclosing behind earlier,
            before = front ++ overclosing :: behind ∧
              (start.readLines front).result = .ok earlier ∧
              earlier.Overcloses overclosing)
      ?_ ?_ reads unclosed
  · intro nothing
    simp [surplus, start] at nothing
  · intro before line reading next readsBefore inductionHypothesis step stays
    rcases step.overcloses_of_surplus_pos stays with still | overcloses
    · obtain ⟨front, overclosing, behind, earlier, rfl, readsFront, overcloses⟩ :=
        inductionHypothesis still
      exact
        ⟨front, overclosing, behind ++ [line], earlier, by simp, readsFront,
          overcloses⟩
    · exact ⟨before, line, [], reading, rfl, readsBefore, overcloses⟩

end Reading

/-! ## Modules -/

namespace Module

/-- While a source is read, a line behind some others takes a reading on to the
next one. -/
structure Reaches
    (source : List Text)
    (before : List Line)
    (reading : Reading)
    (line : Line)
    (next : Reading) :
    Prop where
  inSource :
    ∃ header behind,
      (Header.read source).result = .ok header ∧
        bodyLines source header = before ++ line :: behind
  readsBefore : (Reading.start.readLines before).result = .ok reading
  readsLine : (reading.readLine line).result = .ok next

/-- Conditions are left on `End If` only.  Loops are left on lines without
`Next` exactly where the line spills, and then loops stay to be closed since an
earlier line that closes more loops than are open inside a condition. -/
theorem leaves_of_reaches
    {source : List Text}
    {before : List Line}
    {reading next : Reading}
    {line : Line}
    (reaches : Reaches source before reading line next) :
    (∀ region,
        reading.Leaves next region →
          region.kind = .condition → line.code = Terminator.endIf.text) ∧
      ((∃ region,
            reading.Leaves next region ∧
              region.kind = .loop ∧ nextCounters? line.code = none) ↔
          reading.Spills line) ∧
      (reading.Spills line →
        ∃ front overclosing behind earlier,
          before = front ++ overclosing :: behind ∧
            (Reading.start.readLines front).result = .ok earlier ∧
            earlier.Overcloses overclosing) := by
  have advances := Reading.advances_of_readLine reaches.readsLine
  refine ⟨?_, ?_, ?_⟩
  · intro region isLeft isCondition
    obtain ⟨member, place, leaves⟩ := advances.leaves_iff.mp isLeft
    exact OpenBody.endIf_of_mem_leaves leaves isCondition
  · constructor
    · rintro ⟨region, isLeft, isLoop, noNext⟩
      obtain ⟨member, place, leaves⟩ := advances.leaves_iff.mp isLeft
      exact
        ⟨member, place, OpenBody.spills_iff.mpr ⟨noNext, region, leaves, isLoop⟩⟩
    · rintro ⟨member, place, spills⟩
      obtain ⟨noNext, region, leaves, isLoop⟩ := OpenBody.spills_iff.mp spills
      exact
        ⟨region, advances.leaves_iff.mpr ⟨member, place, leaves⟩, isLoop, noNext⟩
  · rintro ⟨member, place, spills⟩
    refine Reading.exists_overcloses_of_surplus_pos reaches.readsBefore ?_
    simpa only [Reading.surplus, place] using spills.surplus_pos

/-- A method in which `Next i, j` stands in the only loop inside a condition. -/
def overclosingSource : List Text :=
  ["Attribute VB_Name = \"A\"", "Sub A()", "If x Then", "For i = 1 To 2",
    "Next i, j", "For k = 1 To 3", "y = 1", "z = 2", "Next k", "End If",
    "End Sub"]

/-- The lines in front of the first one that spills there. -/
def overclosingFront : List Line :=
  [⟨"Sub A()", 2⟩, ⟨"If x Then", 3⟩, ⟨"For i = 1 To 2", 4⟩, ⟨"Next i, j", 5⟩,
    ⟨"For k = 1 To 3", 6⟩]

/-- The assignment in the second loop is reached with that loop and the
condition open, and the loop is not open behind it. -/
theorem exists_reaches_overclosing :
    ∃ reading next,
      Reaches overclosingSource overclosingFront reading ⟨"y = 1", 7⟩ next ∧
        reading.regions.map (fun region => (region.kind, region.opening)) =
          [(.loop, ⟨"For k = 1 To 3", 6⟩), (.condition, ⟨"If x Then", 3⟩)] ∧
        next.regions.map (fun region => (region.kind, region.opening)) =
          [(.condition, ⟨"If x Then", 3⟩)] := by
  let view := fun (reading : Reading) =>
    reading.regions.map fun region => (region.kind, region.opening)
  have viewsLines :
      (Header.read overclosingSource).result.map (bodyLines overclosingSource) =
        .ok
          (overclosingFront ++
            ⟨"y = 1", 7⟩ ::
              [⟨"z = 2", 8⟩, ⟨"Next k", 9⟩, ⟨"End If", 10⟩, ⟨"End Sub", 11⟩]) := by
    decide +kernel
  have viewsBefore :
      (Reading.start.readLines overclosingFront).result.map view =
        .ok
          [(.loop, ⟨"For k = 1 To 3", 6⟩), (.condition, ⟨"If x Then", 3⟩)] := by
    decide +kernel
  have viewsBehind :
      (Reading.start.readLines (overclosingFront ++ [⟨"y = 1", 7⟩])).result.map
          view =
        .ok [(.condition, ⟨"If x Then", 3⟩)] := by
    decide +kernel
  obtain ⟨header, readsHeader, lines⟩ := Run.exists_ok_of_map viewsLines
  obtain ⟨next, readsNext, openBehind⟩ := Run.exists_ok_of_map viewsBehind
  obtain ⟨reading, readsBefore, readsLine⟩ :=
    Reading.readLines_concat_eq_ok_iff.mp readsNext
  rw [readsBefore] at viewsBefore
  exact
    ⟨reading, next, ⟨⟨header, _, readsHeader, lines⟩, readsBefore, readsLine⟩,
      Except.ok.inj viewsBefore, openBehind⟩

/-- The second loop is left on the assignment, and not on its `Next` line. -/
theorem loop_left_on_assignment :
    ∃ reading next region,
      Reaches overclosingSource overclosingFront reading ⟨"y = 1", 7⟩ next ∧
        reading.Leaves next region ∧
        region.kind = .loop ∧
        region.opening = ⟨"For k = 1 To 3", 6⟩ ∧
        nextCounters? (Line.code ⟨"y = 1", 7⟩) = none := by
  obtain ⟨reading, next, reaches, openBefore, openBehind⟩ :=
    exists_reaches_overclosing
  obtain ⟨region, outer, regions, opens, others⟩ :=
    List.map_eq_cons_iff.mp openBefore
  obtain ⟨isLoop, opening⟩ := Prod.mk.inj opens
  have lengthBefore := congrArg List.length openBefore
  have lengthBehind := congrArg List.length openBehind
  rw [List.length_map] at lengthBefore lengthBehind
  refine ⟨reading, next, region, reaches, ?_, isLoop, opening, by decide⟩
  unfold Reading.Leaves
  rw [lengthBefore, lengthBehind, regions]
  simp

/-- The assignment in the second loop spills behind `Next i, j`. -/
theorem leaves_of_reaches_overclosing :
    ∃ reading next,
      Reaches overclosingSource overclosingFront reading ⟨"y = 1", 7⟩ next ∧
        (∀ region,
            reading.Leaves next region →
              region.kind = .condition →
                Line.code ⟨"y = 1", 7⟩ = Terminator.endIf.text) ∧
          ((∃ region,
                reading.Leaves next region ∧
                  region.kind = .loop ∧
                    nextCounters? (Line.code ⟨"y = 1", 7⟩) = none) ↔
              reading.Spills ⟨"y = 1", 7⟩) ∧
          (reading.Spills ⟨"y = 1", 7⟩ →
            ∃ front overclosing behind earlier,
              overclosingFront = front ++ overclosing :: behind ∧
                (Reading.start.readLines front).result = .ok earlier ∧
                earlier.Overcloses overclosing) := by
  obtain ⟨reading, next, reaches, -, -⟩ := exists_reaches_overclosing
  exact ⟨reading, next, reaches, leaves_of_reaches reaches⟩

end Module

end ClassicBasic
