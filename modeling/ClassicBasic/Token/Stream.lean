import ClassicBasic.Token.Matcher

namespace ClassicBasic.Token

/-!
# Token streams

A source is read line by line and each line instruction by instruction.
Instructions that no matcher of the table accepts are left out.
-/

/-- The tokens of one logical line. -/
def ofLine (matchers : List Matcher) (line : Line) : List Token :=
  (Instruction.split line.text).filterMap fun instruction =>
    Matcher.classify? matchers instruction.text ⟨line.number, instruction.column⟩

/-- The tokens of a whole source. -/
def ofSource (matchers : List Matcher) (source : List Text) : List Token :=
  (Line.logical 1 source).flatMap (ofLine matchers)

end ClassicBasic.Token
