import ClassicBasic.Text
import ClassicBasic.Text.CharRange

namespace ClassicBasic.Text

/-!
# Blanks

Blanks are the characters with the Unicode property `White_Space`, line breaks
included.  Trimming removes runs of them from the ends of a text.
-/

/-- Blanks outside ASCII. -/
def wideBlanks : CharRanges :=
  [(0x85, 0x85), (0xA0, 0xA0), (0x1680, 0x1680), (0x2000, 0x200A), (0x2028, 0x2029),
   (0x202F, 0x202F), (0x205F, 0x205F), (0x3000, 0x3000)]

/-- Whether a character is a blank: a space, tab, line break or wide blank. -/
def isBlank (c : Char) : Bool :=
  if c.toNat < 0x80 then
    c = ' ' || (0x9 ≤ c.toNat && c.toNat ≤ 0xD)
  else
    wideBlanks.contains c

/-- The text without the blanks in front. -/
def trimStart (text : Text) : Text :=
  text.dropWhile isBlank

/-- The text without the blanks at its end. -/
def trimEnd (text : Text) : Text :=
  (trimStart text.reverse).reverse

/-- The text without the blanks at both ends. -/
def trim (text : Text) : Text :=
  trimEnd (trimStart text)

/-- What follows a run of at least one blank. -/
def afterBlanks? : Text → Option Text
  | [] => none
  | c :: rest =>
      if isBlank c then some (trimStart rest) else none

/-- The leading run of characters that are not blank. -/
def leadingWord (text : Text) : Text :=
  text.takeWhile fun c => !isBlank c

/-- What follows the leading run of characters that are not blank. -/
def afterLeadingWord (text : Text) : Text :=
  text.dropWhile fun c => !isBlank c

/-- The leading word and what follows the blanks behind it; a word that ends
the text has none. -/
def wordThenBlanks? (text : Text) : Option (Text × Text) :=
  (afterBlanks? (afterLeadingWord text)).map fun rest => (leadingWord text, rest)

end ClassicBasic.Text
