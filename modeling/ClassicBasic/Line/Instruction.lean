import ClassicBasic.Keyword.Reserved
import ClassicBasic.Line.Comment

namespace ClassicBasic

/-!
# Instructions

Colons outside literals split a logical line into instructions.  A label, a
line number or a `Case` clause keeps its colon where it leads the line or ends
it.  A comment is an instruction of its own and takes the rest of the line.
-/

/-- One instruction of a line, with the 1-based column that it starts at,
counted in characters. -/
structure Instruction where
  column : Nat
  text : Text
  deriving Repr, DecidableEq

namespace Instruction

/-- Separates the instructions of a line, and ends a label. -/
def separator : Char := ':'

/-- Whether a segment of a line keeps the colon behind it: a `Case` clause, a
line number, or a name that starts with a letter and is not reserved. -/
def isLabelHead (segment : Text) : Bool :=
  match Text.trim segment with
  | [] => false
  | first :: rest =>
      Text.startsWithWord "Case" (first :: rest) ||
        (first :: rest).all Char.isDigit ||
        (Text.isIdentifierLetter first &&
          (first :: rest).all Text.isIdentifierChar &&
          !isReservedWord (first :: rest))

/-- The instruction that a segment of a line holds, if it holds any.  `offset`
counts the characters of the line in front of the segment. -/
def piece (offset : Nat) (segment : Text) : List Instruction :=
  match Text.trim segment with
  | [] => []
  | text => [⟨offset + (segment.takeWhile Text.isBlank).length + 1, text⟩]

/-- Whether a character outside literals ends an instruction. -/
def endsInstruction (c : Char) : Bool :=
  c = Line.commentMarker || c = separator

/-- The instructions of the rest of a line.  `first` tells whether no
instruction stands in front of it, and `offset` counts the characters there. -/
def splitFrom (first : Bool) (offset : Nat) (text : Text) : List Instruction :=
  if Line.startsWithRem text then
    piece offset text
  else
    match Line.spanCode endsInstruction text,
        Line.length_spanCode_snd_le endsInstruction text with
    | (segment, []), _ => piece offset segment
    | (segment, marker :: rest), atMost =>
        have : rest.length < text.length := atMost
        let next := offset + segment.length
        if marker = separator then
          let keepsSeparator :=
            isLabelHead segment && (first || (Text.trim rest).isEmpty)
          let instruction :=
            piece offset (if keepsSeparator then segment ++ [separator] else segment)
          instruction ++ splitFrom (first && instruction.isEmpty) (next + 1) rest
        else
          piece offset segment ++ piece next (marker :: rest)
termination_by text.length

/-- The instructions of a logical line. -/
def split (text : Text) : List Instruction :=
  splitFrom true 0 text

end Instruction

end ClassicBasic
