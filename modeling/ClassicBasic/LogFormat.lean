import ClassicBasic.Text

namespace ClassicBasic

/-!
# Log formats

Events can be written as plain lines or as JSON.
-/

/-- How events are written. -/
inductive LogFormat where
  | text
  | json
  deriving Repr, DecidableEq

/-- The format with the given name, whatever the case of its letters.  Any
other name stands for plain text. -/
def LogFormat.ofName (name : Text) : LogFormat :=
  if name.map Char.toLower = "json" then .json else .text

end ClassicBasic
