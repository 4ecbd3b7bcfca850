namespace ClassicBasic

/-!
# Editions of the character tables

Letters, digits and marks beyond ASCII are those of the Unicode standard.  A
later edition of it keeps the characters of a class and adds new ones, so an
edition is given by the additions to the one before it.
-/

/-- The editions of the Unicode standard that character classes are taken
from. -/
inductive Edition where
  | sixteen
  | seventeen
  deriving Repr, DecidableEq

end ClassicBasic
