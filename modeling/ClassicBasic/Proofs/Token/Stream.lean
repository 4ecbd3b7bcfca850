import ClassicBasic.Proofs.Line.Columns
import ClassicBasic.Proofs.Line.Numbering
import ClassicBasic.Token.Stream

namespace ClassicBasic

/-!
# Tokens and instructions

The default table of matchers accepts every instruction, so the tokens of a
source are its instructions, each at its place.  A matcher only tells the kind of
an instruction.  Whatever table it stands in, it keeps text and place, and
matchers behind it do not change what it accepts.
-/

/-! ## Tables -/

namespace Matcher

variable
  {matchers : List Matcher}
  {text : Text}
  {location : Location}

/-- A matcher makes a token of the text at its place if it accepts the text, and of
the kind that it accepts. -/
theorem token?_eq_some_iff
    {matcher : Matcher}
    {token : Token} :
    matcher.token? text location = some token ↔
      matcher.kind? text = some token.kind ∧
        token.instruction = text ∧ token.location = location := by
  rcases token with ⟨kind, instruction, place⟩
  simp [token?, eq_comm (a := text), eq_comm (a := location)]

/-- The token of an instruction comes from a matcher of the table. -/
theorem exists_token?_of_classify?
    {token : Token}
    (classifies : classify? matchers text location = some token) :
    ∃ matcher ∈ matchers, matcher.token? text location = some token := by
  unfold classify? at classifies
  split at classifies
  · cases classifies
  · exact List.exists_of_findSome?_eq_some classifies

/-- More matchers behind those of a table do not change its tokens. -/
theorem classify?_append
    {token : Token}
    (classifies : classify? matchers text location = some token)
    (more : List Matcher) :
    classify? (matchers ++ more) text location = some token := by
  unfold classify? at classifies ⊢
  split at classifies
  · cases classifies
  · next visible =>
      rw [if_neg visible, List.findSome?_append, classifies, Option.some_or]

/-- Whatever is not blank is a procedure call, if it is nothing else. -/
theorem isSome_procedureCall?
    (visible : Text.trim text ≠ []) :
    (procedureCall? text).isSome := by
  have startVisible := Text.trimStart_ne_nil visible
  have opens := Text.head?_trimStart text
  unfold procedureCall?
  cases start : Text.trimStart text with
  | nil =>
      exact (startVisible start).elim
  | cons c rest =>
      rw [start, List.head?_cons] at opens
      have isVisible : Text.isBlank c = false := by
        simpa [Text.isVisible] using List.find?_some opens.symm
      simp [Text.leadingWord, isVisible]

/-- The default table accepts every instruction that is not blank. -/
theorem isSome_classify?_table
    (visible : Text.trim text ≠ [])
    (location : Location) :
    (classify? table text location).isSome := by
  rw [classify?, if_neg (by simpa using visible), List.findSome?_isSome_iff]
  refine ⟨.procedureCall, by decide, ?_⟩
  rw [token?, Option.isSome_map]
  exact isSome_procedureCall? visible

end Matcher

/-! ## Streams -/

/-- Whether a place comes before another one: on an earlier line, or on the same
line at a smaller column. -/
def Location.Before (first second : Location) : Prop :=
  first.line < second.line ∨
    first.line = second.line ∧ first.column < second.column

namespace Token

/-- Where a token stands, and its instruction. -/
def placed (token : Token) : Location × Text :=
  (token.location, token.instruction)

/-- The instructions of a logical line, each at its place. -/
def placesOfLine (line : Line) : List (Location × Text) :=
  (Instruction.split line.text).map fun instruction =>
    (⟨line.number, instruction.column⟩, instruction.text)

/-- The instructions of a source, each at its place. -/
def places (source : List Text) : List (Location × Text) :=
  (Line.logical 1 source).flatMap placesOfLine

/-- The token that a table makes of an instruction at its place. -/
def at? (matchers : List Matcher) (place : Location × Text) : Option Token :=
  Matcher.classify? matchers place.2 place.1

/-- The tokens of a source are made of its instructions one by one. -/
theorem ofSource_eq_filterMap
    (matchers : List Matcher)
    (source : List Text) :
    ofSource matchers source = (places source).filterMap (at? matchers) := by
  have lines :
      ∀ line, ofLine matchers line = (placesOfLine line).filterMap (at? matchers) := by
    intro line
    rw [ofLine, placesOfLine, List.filterMap_map]
    rfl
  rw [ofSource, places, List.filterMap_flatMap]
  exact congrArg (List.flatMap · _) (funext lines)

/-- A token keeps the place and the text of its instruction. -/
theorem placed_of_at?
    {matchers : List Matcher}
    {place : Location × Text}
    {token : Token}
    (classifies : at? matchers place = some token) :
    token.placed = place := by
  obtain ⟨matcher, -, accepts⟩ := Matcher.exists_token?_of_classify? classifies
  obtain ⟨-, sameText, sameLocation⟩ := Matcher.token?_eq_some_iff.mp accepts
  exact Prod.ext sameLocation sameText

/-- No instruction is blank. -/
theorem trim_ne_nil_of_mem_places
    {source : List Text}
    {place : Location × Text}
    (member : place ∈ places source) :
    Text.trim place.2 ≠ [] := by
  obtain ⟨line, -, onLine⟩ := List.mem_flatMap.mp member
  obtain ⟨instruction, isPart, rfl⟩ := List.mem_map.mp onLine
  exact (Instruction.trim_of_mem_split isPart).2

/-- Places grow from line to line and inside each line. -/
theorem places_increasing
    (source : List Text) :
    ((places source).map (·.1)).Pairwise Location.Before := by
  rw [List.pairwise_map, places, List.pairwise_flatMap]
  refine ⟨?_, ?_⟩
  · intro line _
    have columns := Instruction.split_increasing line.text
    rw [List.pairwise_map] at columns
    rw [placesOfLine, List.pairwise_map]
    exact columns.imp fun earlier => .inr ⟨rfl, earlier⟩
  · have numbers := Line.logical_increasing 1 source
    rw [List.pairwise_map] at numbers
    refine numbers.imp ?_
    intro line later earlier place onLine other onLater
    obtain ⟨instruction, -, rfl⟩ := List.mem_map.mp onLine
    obtain ⟨otherInstruction, -, rfl⟩ := List.mem_map.mp onLater
    exact .inl earlier

/-- A table keeps some of the instructions, each at its place. -/
theorem map_placed_sublist
    (matchers : List Matcher)
    (places : List (Location × Text)) :
    ((places.filterMap (at? matchers)).map placed).Sublist places := by
  induction places with
  | nil =>
      exact .slnil
  | cons place rest inductionHypothesis =>
      cases classifies : at? matchers place with
      | none =>
          rw [List.filterMap_cons_none classifies]
          exact inductionHypothesis.cons place
      | some token =>
          rw [List.filterMap_cons_some classifies, List.map_cons,
            placed_of_at? classifies]
          exact inductionHypothesis.cons_cons place

/-- The default table keeps all instructions. -/
theorem map_placed_table
    {places : List (Location × Text)}
    (visible : ∀ place ∈ places, Text.trim place.2 ≠ []) :
    (places.filterMap (at? Matcher.table)).map placed = places := by
  induction places with
  | nil =>
      rfl
  | cons place rest inductionHypothesis =>
      obtain ⟨token, classifies⟩ : ∃ token, at? Matcher.table place = some token :=
        Option.isSome_iff_exists.mp
          (Matcher.isSome_classify?_table (visible place (by simp)) place.1)
      rw [List.filterMap_cons_some classifies, List.map_cons,
        placed_of_at? classifies,
        inductionHypothesis fun other member => visible other (by simp [member])]

/-- Matchers behind those of a table add tokens and take none away. -/
theorem filterMap_append_sublist
    (matchers more : List Matcher)
    (places : List (Location × Text)) :
    (places.filterMap (at? matchers)).Sublist
      (places.filterMap (at? (matchers ++ more))) := by
  induction places with
  | nil =>
      exact .slnil
  | cons place rest inductionHypothesis =>
      cases classifies : at? matchers place with
      | none =>
          rw [List.filterMap_cons_none classifies]
          exact inductionHypothesis.trans
            ((List.sublist_cons_self place rest).filterMap _)
      | some token =>
          have still : at? (matchers ++ more) place = some token :=
            Matcher.classify?_append classifies more
          rw [List.filterMap_cons_some classifies, List.filterMap_cons_some still]
          exact inductionHypothesis.cons_cons token

/-- The tokens of a source are its instructions in order, each with its text and
its place, and their places grow strictly.  Other tables give some of them, and a
table that goes on with more matchers keeps every token it gave without these. -/
theorem map_placed_ofSource
    (source : List Text) :
    (ofSource Matcher.table source).map placed = places source ∧
      ((ofSource Matcher.table source).map location).Pairwise Location.Before ∧
      (∀ matchers more,
        (ofSource matchers source).Sublist (ofSource (matchers ++ more) source)) ∧
      ∀ matchers,
        ((ofSource matchers source).map placed).Sublist
          ((ofSource Matcher.table source).map placed) := by
  have keepsAll : (ofSource Matcher.table source).map placed = places source := by
    rw [ofSource_eq_filterMap]
    exact map_placed_table fun place member => trim_ne_nil_of_mem_places member
  refine ⟨keepsAll, ?_, ?_, ?_⟩
  · have increasing := places_increasing source
    rw [← keepsAll, List.map_map] at increasing
    exact increasing
  · intro matchers more
    rw [ofSource_eq_filterMap, ofSource_eq_filterMap]
    exact filterMap_append_sublist matchers more (places source)
  · intro matchers
    rw [keepsAll, ofSource_eq_filterMap]
    exact map_placed_sublist matchers (places source)

/-- A table without labels and calls leaves both out. -/
example :
    (ofSource [.comment, .expression] ["Start:", "x = 1: Run y 'z"]).map placed =
      [(Location.mk 2 1, "x = 1".toList), (Location.mk 2 14, "'z".toList)] := by
  decide +kernel

end Token

end ClassicBasic
