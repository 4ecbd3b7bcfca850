import ClassicBasic.Proofs.Node.Listing

namespace ClassicBasic

/-!
# No line of a member is lost

Every line inside a member states one attribute of the member, or stands for
one node of its body, or closes a region and is dropped.  A body that is being
read lists the lines of all its nodes, those of open regions included, in the
order in which they were read; so one more line comes last in that list or
does not come into it at all.  Regions and surplus counters only decide where
a node hangs, which the list does not tell.
-/

/-- Whether a line can close a region. -/
def Line.ClosesRegion (line : Line) : Prop :=
  line.code = Terminator.endIf.text ∨ (nextCounters? line.code).isSome

/-! ## Bodies -/

/-- The opening line of a region and all lines listed inside it. -/
def OpenRegion.listing (region : OpenRegion) : List Line :=
  region.opening :: Node.listing region.items.reverse

/-- A region that closes lists the lines that it listed while it was open. -/
theorem OpenRegion.listing_node
    (region : OpenRegion) :
    Node.listing [region.node] = region.listing := by
  rw [OpenRegion.node_eq, Node.listing_block]
  rfl

/-- A node in a region adds its lines behind those of the region. -/
theorem OpenRegion.listing_add
    (region : OpenRegion)
    (node : Node) :
    (region.add node).listing = region.listing ++ Node.listing [node] := by
  simp [OpenRegion.listing, OpenRegion.add]

namespace OpenBody

/-- The lines of all nodes of a body, in walking order: those outside regions,
and then those of its open regions, outermost first. -/
def listing (body : OpenBody) : List Line :=
  Node.listing body.items.reverse ++ body.regions.reverse.flatMap OpenRegion.listing

/-- An open region lists its lines behind those of all regions around it. -/
theorem listing_region
    (items : List Node)
    (region : OpenRegion)
    (outer : List OpenRegion)
    (surplus left : Nat) :
    listing ⟨items, region :: outer, surplus⟩ =
      listing ⟨items, outer, left⟩ ++ region.listing := by
  simp [listing]

/-- However many loops a node completes, it comes last. -/
theorem listing_settle
    (items : List Node)
    (surplus : Nat)
    (node : Node)
    (regions : List OpenRegion) :
    (settle items surplus node regions).1.listing =
      listing ⟨items, regions, surplus⟩ ++ Node.listing [node] := by
  induction regions generalizing surplus node with
  | nil =>
      simp [settle, listing]
  | cons region outer inductionHypothesis =>
      unfold settle
      split
      · rw [inductionHypothesis, OpenRegion.listing_node,
          OpenRegion.listing_add, ← List.append_assoc,
          ← listing_region items region outer surplus]
      · dsimp only
        rw [listing_region _ _ _ _ surplus, OpenRegion.listing_add,
          ← List.append_assoc, ← listing_region items region outer surplus]

/-- A line that does not close a region comes last. -/
theorem listing_readItem
    (body : OpenBody)
    (line : Line) :
    (body.readItem line).1.listing = body.listing ++ [line] := by
  unfold readItem
  split
  · next kind opens =>
      exact listing_region body.items ⟨kind, line, []⟩ body.regions _ _
  · have leaf : Node.leaf .codeBlock line.text line.number = line.block [] := rfl
    rw [leaf, listing_settle, Node.listing_block]
    rfl

/-- What closes a region that is open can close a region. -/
theorem closesRegion_of_closedBy?
    {region : OpenRegion}
    {line : Line}
    {surplus left : Nat}
    (closes : region.closedBy? surplus line.code = some left) :
    line.ClosesRegion := by
  unfold OpenRegion.closedBy? at closes
  split at closes
  · split at closes
    · next isEndIf =>
        exact .inl isEndIf
    · cases closes
  · obtain ⟨counters, lists, -⟩ := Option.map_eq_some_iff.mp closes
    exact .inr (Option.isSome_of_mem lists)

/-- A line comes last in its body, or it closes a region and is dropped. -/
theorem listing_readLine
    (body : OpenBody)
    (line : Line) :
    (body.readLine line).1.listing = body.listing ++ [line] ∨
      (body.readLine line).1.listing = body.listing ∧ line.ClosesRegion := by
  rcases body with ⟨items, regions, surplus⟩
  cases regions with
  | nil =>
      exact .inl (listing_readItem _ line)
  | cons region outer =>
      cases closes : region.closedBy? surplus line.code with
      | none =>
          rw [readLine_item (by simpa using closes)]
          exact .inl (listing_readItem _ line)
      | some left =>
          refine .inr ⟨?_, closesRegion_of_closedBy? closes⟩
          rw [readLine_closing closes, listing_settle, OpenRegion.listing_node,
            ← listing_region]

end OpenBody

/-! ## Members -/

/-- What became of the lines inside a member, in order: each states the next
attribute, stands for the next line of the listing, or is dropped because it
can close a region. -/
inductive Accounts : List Line → List Node → List Line → Prop where
  | nil : Accounts [] [] []
  | attributeLine
      {inside listing : List Line}
      {attributes : List Node}
      {line : Line}
      {stated : Node}
      (before : Accounts inside attributes listing)
      (states : Attribute.readNode? line.text line.number = some stated) :
      Accounts (inside ++ [line]) (attributes ++ [stated]) listing
  | kept
      {inside listing : List Line}
      {attributes : List Node}
      {line : Line}
      (before : Accounts inside attributes listing) :
      Accounts (inside ++ [line]) attributes (listing ++ [line])
  | dropped
      {inside listing : List Line}
      {attributes : List Node}
      {line : Line}
      (before : Accounts inside attributes listing)
      (closes : line.ClosesRegion) :
      Accounts (inside ++ [line]) attributes listing

/-- A line is the line of exactly one attribute, or it is listed exactly once,
or it is neither and can close a region. -/
def Line.AccountedOnce
    (line : Line)
    (attributes : List Node)
    (listing : List Line) :
    Prop :=
  attributes.countP (fun node => node.line = line.number) + listing.count line = 1 ∨
    attributes.countP (fun node => node.line = line.number) = 0 ∧
      listing.count line = 0 ∧ line.ClosesRegion

/-- An attribute has the number of its line. -/
theorem Attribute.line_of_readNode?
    {text : Text}
    {number : Nat}
    {node : Node}
    (read : readNode? text number = some node) :
    node.line = number := by
  obtain ⟨stated, -, rfl⟩ := Option.map_eq_some_iff.mp read
  rfl

namespace Accounts

variable
  {inside listing : List Line}
  {attributes : List Node}

/-- What is listed are lines of the member, in their order. -/
theorem listing_sublist
    (accounts : Accounts inside attributes listing) :
    listing.Sublist inside := by
  induction accounts with
  | nil =>
      exact List.Sublist.refl []
  | attributeLine before states inductionHypothesis =>
      exact inductionHypothesis.trans (List.sublist_append_left _ _)
  | kept before inductionHypothesis =>
      exact inductionHypothesis.append (List.Sublist.refl _)
  | dropped before closes inductionHypothesis =>
      exact inductionHypothesis.trans (List.sublist_append_left _ _)

/-- Every attribute is stated by a line inside the member. -/
theorem exists_states
    {node : Node}
    (accounts : Accounts inside attributes listing)
    (member : node ∈ attributes) :
    ∃ line ∈ inside, Attribute.readNode? line.text line.number = some node := by
  induction accounts with
  | nil =>
      simp at member
  | @attributeLine inside listing attributes last stated before states
      inductionHypothesis =>
      rcases List.mem_append.mp member with earlier | isLast
      · obtain ⟨line, isInside, isStated⟩ := inductionHypothesis earlier
        exact ⟨line, List.mem_append_left _ isInside, isStated⟩
      · rw [List.mem_singleton.mp isLast]
        exact ⟨last, by simp, states⟩
  | kept before inductionHypothesis =>
      obtain ⟨line, isInside, isStated⟩ := inductionHypothesis member
      exact ⟨line, List.mem_append_left _ isInside, isStated⟩
  | dropped before closes inductionHypothesis =>
      obtain ⟨line, isInside, isStated⟩ := inductionHypothesis member
      exact ⟨line, List.mem_append_left _ isInside, isStated⟩

/-- A line that is not of the member states none of its attributes. -/
theorem countP_eq_zero
    {number : Nat}
    (accounts : Accounts inside attributes listing)
    (fresh : number ∉ inside.map Line.number) :
    attributes.countP (fun node => node.line = number) = 0 := by
  rw [List.countP_eq_zero]
  intro node member sameLine
  obtain ⟨line, isInside, states⟩ := accounts.exists_states member
  have standsOnLine := Attribute.line_of_readNode? states
  rw [← of_decide_eq_true sameLine, standsOnLine] at fresh
  exact fresh (List.mem_map_of_mem isInside)

/-- A line that is not of the member is not listed. -/
theorem count_eq_zero
    {line : Line}
    (accounts : Accounts inside attributes listing)
    (fresh : line.number ∉ inside.map Line.number) :
    listing.count line = 0 := by
  rw [List.count_eq_zero]
  intro isListed
  exact fresh (List.mem_map_of_mem (accounts.listing_sublist.subset isListed))

/-- The last of lines with different numbers has a number of its own. -/
theorem distinct_of_concat
    {last : Line}
    (distinct : ((inside ++ [last]).map Line.number).Nodup) :
    (inside.map Line.number).Nodup ∧
      last.number ∉ inside.map Line.number ∧
        ∀ line ∈ inside, line.number ≠ last.number := by
  rw [List.map_append, List.nodup_append] at distinct
  obtain ⟨before, -, apart⟩ := distinct
  refine ⟨before, ?_, ?_⟩
  · intro isEarlier
    exact apart last.number isEarlier last.number (by simp) rfl
  · intro line member
    exact apart line.number (List.mem_map_of_mem member) last.number (by simp)

/-- Lines with different numbers are accounted for exactly once. -/
theorem accountedOnce
    {line : Line}
    (accounts : Accounts inside attributes listing)
    (distinct : (inside.map Line.number).Nodup)
    (member : line ∈ inside) :
    line.AccountedOnce attributes listing := by
  -- The last line is fresh, as the numbers differ, so it is counted once and the others
  -- as before.
  induction accounts with
  | nil =>
      simp at member
  | @attributeLine inside listing attributes last stated before states
      inductionHypothesis =>
      obtain ⟨distinctBefore, fresh, apart⟩ := distinct_of_concat distinct
      have standsOnLast := Attribute.line_of_readNode? states
      rcases List.mem_append.mp member with earlier | isLast
      · have other : ¬last.number = line.number := (apart line earlier).symm
        simpa [Line.AccountedOnce, List.countP_append, standsOnLast, other] using
          inductionHypothesis distinctBefore earlier
      · rw [List.mem_singleton.mp isLast]
        left
        rw [List.countP_append, before.countP_eq_zero fresh,
          before.count_eq_zero fresh]
        simp [standsOnLast]
  | @kept inside listing attributes last before inductionHypothesis =>
      obtain ⟨distinctBefore, fresh, apart⟩ := distinct_of_concat distinct
      rcases List.mem_append.mp member with earlier | isLast
      · have other : last ≠ line := by
          intro same
          exact apart line earlier (congrArg Line.number same.symm)
        simpa [Line.AccountedOnce, List.count_append, other] using
          inductionHypothesis distinctBefore earlier
      · rw [List.mem_singleton.mp isLast]
        left
        rw [List.count_append, before.countP_eq_zero fresh,
          before.count_eq_zero fresh]
        simp
  | @dropped inside listing attributes last before closes inductionHypothesis =>
      obtain ⟨distinctBefore, fresh, apart⟩ := distinct_of_concat distinct
      rcases List.mem_append.mp member with earlier | isLast
      · exact inductionHypothesis distinctBefore earlier
      · rw [List.mem_singleton.mp isLast]
        exact .inr
          ⟨before.countP_eq_zero fresh, before.count_eq_zero fresh, closes⟩

/-- One more line of the body is kept or dropped. -/
theorem readLine
    {body : OpenBody}
    (accounts : Accounts inside attributes body.listing)
    (line : Line) :
    Accounts (inside ++ [line]) attributes (body.readLine line).1.listing := by
  rcases body.listing_readLine line with isLast | ⟨unchanged, closes⟩
  · rw [isLast]
    exact accounts.kept
  · rw [unchanged]
    exact accounts.dropped closes

end Accounts

end ClassicBasic
