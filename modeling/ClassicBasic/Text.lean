namespace ClassicBasic

/-!
# Source text

All text of a module is handled as the sequence of its characters.  String
literals are read as texts wherever a text is expected.
-/

/-- Source text: the sequence of its characters. -/
abbrev Text := List Char

instance : Coe String Text :=
  ⟨String.toList⟩

namespace Text

/-- What follows `word` in a text that opens with it. -/
def after? : Text → Text → Option Text
  | [], text => some text
  | _ :: _, [] => none
  | expected :: word, c :: text =>
      if expected = c then after? word text else none

/-- What precedes `ending` in a text that closes with it. -/
def before? (ending text : Text) : Option Text :=
  (after? ending.reverse text.reverse).map List.reverse

/-- A text opens with a word exactly when it is that word and what follows. -/
theorem after?_eq_some_iff
    {word text rest : Text} :
    after? word text = some rest ↔ text = word ++ rest := by
  induction word generalizing text with
  | nil =>
      simp [after?, eq_comm]
  | cons expected word inductionHypothesis =>
      cases text with
      | nil =>
          simp [after?]
      | cons c text =>
          by_cases same : expected = c
          · simp [after?, same, inductionHypothesis]
          · simp [after?, same, Ne.symm same]

/-- A text closes with an ending exactly when it is what precedes and that ending. -/
theorem before?_eq_some_iff
    {ending text rest : Text} :
    before? ending text = some rest ↔ text = rest ++ ending := by
  constructor
  · intro found
    obtain ⟨reversed, opens, rfl⟩ := Option.map_eq_some_iff.mp found
    have shape := after?_eq_some_iff.mp opens
    simpa using congrArg List.reverse shape
  · rintro rfl
    refine Option.map_eq_some_iff.mpr ⟨rest.reverse, ?_, by simp⟩
    exact after?_eq_some_iff.mpr (by simp)

/-- Texts written one behind the other. -/
def concat (parts : List Text) : Text :=
  parts.flatten

/-- Number of bytes that the text takes in UTF-8. -/
def utf8Size (text : Text) : Nat :=
  text.foldr (fun c size => c.utf8Size + size) 0

end Text

end ClassicBasic
