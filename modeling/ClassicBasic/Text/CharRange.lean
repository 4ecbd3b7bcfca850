namespace ClassicBasic

/-!
# Ranges of characters

Character classes beyond ASCII are given as lists of code point ranges.  A
range includes both of its ends.
-/

/-- A list of code point ranges, both ends included. -/
abbrev CharRanges := List (Nat × Nat)

namespace CharRanges

/-- Whether some range of the list holds the character. -/
def contains (ranges : CharRanges) (c : Char) : Bool :=
  ranges.any fun (first, last) => first ≤ c.toNat && c.toNat ≤ last

end CharRanges

end ClassicBasic
