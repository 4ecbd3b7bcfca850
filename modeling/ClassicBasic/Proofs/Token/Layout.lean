import ClassicBasic.Proofs.Line.Layout
import ClassicBasic.Proofs.Line.Texts
import ClassicBasic.Token.Stream

namespace ClassicBasic.Token

/-!
# Sources behind each other

No logical line reaches over a physical line that is visible and has no
continuation marker.  So behind such a line the logical lines of a source, and its
tokens, are those of the rest alone, moved by the number of lines in front.
-/

/-! ## Moved tokens -/

/-- A token on another line. -/
def renumber (f : Nat → Nat) (token : Token) : Token :=
  { token with location := { token.location with line := f token.location.line } }

variable
  (f : Nat → Nat)
  (matchers : List Matcher)

/-- Matchers do not look at places. -/
theorem token?_renumber
    (matcher : Matcher)
    (text : Text)
    (line column : Nat) :
    matcher.token? text ⟨f line, column⟩ =
      (matcher.token? text ⟨line, column⟩).map (renumber f) := by
  simp only [Matcher.token?, Option.map_map]
  rfl

/-- What kind of token an instruction becomes does not depend on its line. -/
theorem classify?_renumber
    (text : Text)
    (line column : Nat) :
    Matcher.classify? matchers text ⟨f line, column⟩ =
      (Matcher.classify? matchers text ⟨line, column⟩).map (renumber f) := by
  unfold Matcher.classify?
  split
  · rfl
  · simp only [token?_renumber, List.map_findSome?]
    rfl

/-- A line that moves takes its tokens with it. -/
theorem ofLine_renumber
    (line : Line) :
    ofLine matchers (line.renumber f) = (ofLine matchers line).map (renumber f) := by
  rw [ofLine, ofLine, List.map_filterMap]
  simp only [Line.text_renumber, Line.number_renumber, classify?_renumber]

/-! ## Parts of a source -/

/-- Lines that are visible and have no continuation marker cut a source into parts.
Behind such a line, or in front of all lines, the logical lines of a source are those
of the part in front and then those of the rest, numbered from its place on; and so
are its tokens, for any table of matchers. -/
theorem ofSource_append
    {front : List Text}
    (closed :
      ∀ last ∈ front.getLast?,
        Text.trim last ≠ [] ∧ ¬ Line.EndsInMarker (Text.trim last))
    (back : List Text) :
    (∀ first,
      Line.logical first (front ++ back) =
        Line.logical first front ++ Line.logical (first + front.length) back) ∧
      ∀ matchers,
        ofSource matchers (front ++ back) =
          ofSource matchers front ++
            (ofSource matchers back).map (renumber (· + front.length)) := by
  have ends :
      ∀ last ∈ front.getLast?,
        Text.trim last ≠ [] ∧ Line.continued? (Text.trim last) = none := by
    intro last isLast
    obtain ⟨visible, noMarker⟩ := closed last isLast
    exact ⟨visible, Line.continued?_eq_none_iff.mpr noMarker⟩
  refine ⟨fun first => Line.logical_append ends first back, ?_⟩
  intro matchers
  rw [ofSource, Line.logical_append ends, List.flatMap_append, Line.logical_add]
  simp only [ofSource, List.flatMap_map, List.map_flatMap, ofLine_renumber]

/-- A source is cut behind a line that ends in an underscore and is continued from a
line with two markers; the part behind it opens with a continued line. -/
theorem ofSource_append_continued :
    let front : List Text := ["x = _ _", "", " y_ "]
    let back : List Text := ["Dim z _", "As Long: z = 1"]
    (∀ last ∈ front.getLast?,
        Text.trim last ≠ [] ∧ ¬ Line.EndsInMarker (Text.trim last)) ∧
      Line.logical 1 (front ++ back) =
        [⟨"x = y_", 1⟩, ⟨"Dim z As Long: z = 1", 4⟩] ∧
      ofSource Matcher.table (front ++ back) =
        [⟨.expression, "x = y_", ⟨1, 1⟩⟩,
          ⟨.declaration "Dim" false, "Dim z As Long", ⟨4, 1⟩⟩,
          ⟨.expression, "z = 1", ⟨4, 16⟩⟩] := by
  intro front back
  have closed :
      ∀ last ∈ front.getLast?,
        Text.trim last ≠ [] ∧ ¬ Line.EndsInMarker (Text.trim last) := by
    decide
  obtain ⟨lines, tokens⟩ := ofSource_append closed back
  refine ⟨closed, ?_, ?_⟩
  · rw [lines]
    decide
  · rw [tokens]
    decide +kernel

end ClassicBasic.Token
