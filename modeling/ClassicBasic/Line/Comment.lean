import ClassicBasic.Line
import ClassicBasic.Line.Scan
import ClassicBasic.Text.Word

namespace ClassicBasic.Line

/-!
# Comments

A comment runs from an apostrophe outside literals to the end of its line.
The older form, a line or instruction that opens with the word `Rem`, is
recognised where instructions are read.
-/

/-- Opens a comment. -/
def commentMarker : Char := '\''

/-- The older comment keyword. -/
def remKeyword : Text := "Rem"

/-- Whether a text opens with the comment keyword, blanks aside. -/
def startsWithRem (text : Text) : Bool :=
  Text.startsWithWord remKeyword (Text.trimStart text)

/-- A line cut at its comment: the text in front of the comment marker, and
the comment with its marker. -/
def cutComment (text : Text) : Text × Option Text :=
  match spanCode (fun c => c = commentMarker) text with
  | (code, []) => (code, none)
  | (code, comment) => (code, some comment)

/-- Position of the comment marker in bytes of UTF-8. -/
def commentOffset? (text : Text) : Option Nat :=
  (cutComment text).2.map fun _ => (cutComment text).1.utf8Size

/-- A line's code and its comment.  The code of a line with a comment ends in
front of the blanks before the marker. -/
def splitComment (text : Text) : Text × Option Text :=
  match cutComment text with
  | (_, none) => (text, none)
  | (code, some comment) => (Text.trimEnd code, some comment)

/-- The code of a line: neither its comment nor the blanks around it. -/
def codeText (text : Text) : Text :=
  Text.trim (splitComment text).1

/-- The code of a line, without its comment and the blanks around it. -/
def code (line : Line) : Text :=
  codeText line.text

end ClassicBasic.Line
