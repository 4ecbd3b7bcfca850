import ClassicBasic.Text.Blank

namespace ClassicBasic.IntegerLiteral

/-!
# Integer literals

An integer literal is decimal, or hexadecimal behind `&H`, or octal behind
`&O`, with an optional sign in front and any number of type suffixes behind.
Its magnitude has to fit a signed 64-bit integer.
-/

/-- Type suffixes of integer literals. -/
def suffixes : Text := "&%^"

/-- The value of a digit, letters counting on from ten. -/
def digitValue (c : Char) : Nat :=
  if c.isDigit then c.toNat - '0'.toNat
  else if c.isUpper then c.toNat - 'A'.toNat + 10
  else c.toNat - 'a'.toNat + 10

/-- Whether a character is a digit in the given base, at most sixteen. -/
def isDigitIn (base : Nat) (c : Char) : Bool :=
  (c.isDigit || ('a' ≤ c && c ≤ 'f') || ('A' ≤ c && c ≤ 'F')) && digitValue c < base

/-- The number that digits denote in a base. -/
def digitsValue (base : Nat) (digits : Text) : Nat :=
  digits.foldl (fun value c => value * base + digitValue c) 0

/-- The number that a non-empty run of digits denotes. -/
def magnitudeIn? (base : Nat) (digits : Text) : Option Nat :=
  if digits.isEmpty || !digits.all (isDigitIn base) then none
  else some (digitsValue base digits)

/-- What follows one of two markers. -/
def afterEither? (first second text : Text) : Option Text :=
  Text.after? first text <|> Text.after? second text

/-- The magnitude of a literal without sign and suffixes. -/
def magnitude? (text : Text) : Option Nat :=
  match afterEither? "&H" "&h" text, afterEither? "&O" "&o" text with
  | some digits, _ => magnitudeIn? 16 digits
  | none, some digits => magnitudeIn? 8 digits
  | none, none => magnitudeIn? 10 text

/-- A literal's sign, and what follows it. -/
def signed (text : Text) : Bool × Text :=
  match text with
  | '-' :: rest => (true, Text.trimStart rest)
  | '+' :: rest => (false, Text.trimStart rest)
  | _ => (false, Text.trimStart text)

/-- A literal without its type suffixes. -/
def withoutSuffixes (text : Text) : Text :=
  (text.reverse.dropWhile suffixes.contains).reverse

/-- The largest magnitude of a literal, that of the largest signed 64-bit
integer. -/
def maxMagnitude : Nat :=
  0x7FFFFFFFFFFFFFFF

/-- The integer that a text denotes, if it is an integer literal. -/
def read? (text : Text) : Option Int64 := do
  let (negative, rest) := signed (Text.trim text)
  let magnitude ← magnitude? (withoutSuffixes rest)
  if magnitude ≤ maxMagnitude then
    some (Int64.ofInt (if negative then -magnitude else magnitude))
  else
    none

end ClassicBasic.IntegerLiteral
