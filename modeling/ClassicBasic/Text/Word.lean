import ClassicBasic.Text
import ClassicBasic.Text.Alphabetic
import ClassicBasic.Text.Number
import ClassicBasic.Text.Mark

namespace ClassicBasic.Text

/-!
# Words and identifiers

Two classes of characters decide where a word ends.  Identifier characters
bound keywords; word characters, which also take in marks and joiners, bound
attribute names, lengths and whole words inside a text.  The two classes are
taken from different editions of the character tables.
-/

/-- Identifiers are made of the letters and numbers of edition 17. -/
def identifierEdition : Edition := .seventeen

/-- Words are made of the letters, digits and marks of edition 16. -/
def wordEdition : Edition := .sixteen

/-- Whether a character is a letter that an identifier can start with. -/
def isIdentifierLetter (c : Char) : Bool :=
  isAlphabetic identifierEdition c

/-- Whether a character continues an identifier. -/
def isIdentifierChar (c : Char) : Bool :=
  isIdentifierLetter c || isNumeric identifierEdition c || c = '_'

/-- Whether a character is a digit of a number written with word characters. -/
def isWordDigit (c : Char) : Bool :=
  isDecimalDigit wordEdition c

/-- Whether a character continues a word. -/
def isWordChar (c : Char) : Bool :=
  isAlphabetic wordEdition c || isWordDigit c || isMark c || isJoiner c

/-- Whether a text opens with a word that no identifier character continues. -/
def startsWithWord (word text : Text) : Bool :=
  match after? word text with
  | none => false
  | some rest => !rest.head?.any isIdentifierChar

/-- Whether a word stands in the text with no word character on either side.
`before` is the character in front of the text, if there is one. -/
def hasWholeWord (word : Text) (before : Option Char) : Text → Bool
  | [] => false
  | c :: rest =>
      (!before.any isWordChar &&
        (after? word (c :: rest)).any fun behind => !behind.head?.any isWordChar) ||
      hasWholeWord word (some c) rest

end ClassicBasic.Text
