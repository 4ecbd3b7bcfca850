import ClassicBasic.Text.Quoted

namespace ClassicBasic.Text

/-!
# Lists at the top level

A list such as the parameters of a signature is cut at its separators, except
inside parentheses and string literals.  A closing parenthesis that closes
nothing leaves the depth at zero.
-/

/-- Cut a text at its top-level separators, given whether it begins inside a
string literal and how many parentheses are open.  The result is the first
part and the parts after it. -/
def splitFrom (separator : Char) (inString : Bool) (depth : Nat) :
    Text → Text × List Text
  | [] => ([], [])
  | c :: rest =>
      if c = stringDelimiter then
        extend c (splitFrom separator (!inString) depth rest)
      else if inString then
        extend c (splitFrom separator inString depth rest)
      else if c = '(' then
        extend c (splitFrom separator inString (depth + 1) rest)
      else if c = ')' then
        extend c (splitFrom separator inString (depth - 1) rest)
      else if c = separator ∧ depth = 0 then
        let (first, others) := splitFrom separator inString depth rest
        ([], first :: others)
      else
        extend c (splitFrom separator inString depth rest)
where
  /-- Put a character in front of the first part. -/
  extend (c : Char) (parts : Text × List Text) : Text × List Text :=
    (c :: parts.1, parts.2)

/-- The parts between the separators that stand outside parentheses and string
literals.  There is always at least one part. -/
def splitTopLevel (separator : Char) (text : Text) : List Text :=
  let (first, others) := splitFrom separator false 0 text
  first :: others

end ClassicBasic.Text
