import ClassicBasic.Text.Blank
import ClassicBasic.Text.Quoted

namespace ClassicBasic.Line

/-!
# Scanning code

Quotes, number signs and apostrophes mean different things in code, in a
string literal and in a date literal.  A scan walks over a line with the
zone that it is in and stops at the first marker that stands in code.
-/

/-- The kind of text that a scan is in. -/
inductive Zone where
  | code
  | string
  | date
  deriving Repr, DecidableEq

/-- Delimits date and time literals. -/
def dateDelimiter : Char := '#'

/-- Characters after which a number sign can open a date literal. -/
def dateOperators : Text := "=<>(,+-*/&"

/-- Whether a number sign opens a date literal: it follows an operator, an
opening parenthesis or a comma, and another number sign comes later.
`before` is the last character in front that is not a blank. -/
def opensDate (before : Option Char) (rest : Text) : Bool :=
  before.any dateOperators.contains && rest.contains dateDelimiter

namespace Zone

/-- The zone behind a character, given the last visible character in front
of it and the text behind it. -/
def next (zone : Zone) (before : Option Char) (c : Char) (rest : Text) :
    Zone :=
  match zone with
  | .string => if c = Text.stringDelimiter then .code else .string
  | .date => if c = dateDelimiter then .code else .date
  | .code =>
      if c = Text.stringDelimiter then .string
      else if c = dateDelimiter ∧ opensDate before rest then .date
      else .code

end Zone

/-- The last visible character after reading one more character. -/
def visible (before : Option Char) (c : Char) : Option Char :=
  if Text.isBlank c then before else some c

/-- Cut a text at the first marker that stands in code: the text before the
marker, and the text from the marker on. -/
def spanFrom (marker : Char → Bool) (zone : Zone) (before : Option Char) :
    Text → Text × Text
  | [] => ([], [])
  | c :: rest =>
      if zone = .code ∧ marker c then
        ([], c :: rest)
      else
        let (code, behind) :=
          spanFrom marker (zone.next before c rest) (visible before c) rest
        (c :: code, behind)

/-- Cut a line at the first marker that stands outside its literals. -/
def spanCode (marker : Char → Bool) (text : Text) : Text × Text :=
  spanFrom marker .code none text

/-- Cutting loses no character. -/
theorem spanFrom_append
    (marker : Char → Bool)
    (zone : Zone)
    (before : Option Char)
    (text : Text) :
    (spanFrom marker zone before text).1 ++
        (spanFrom marker zone before text).2 =
      text := by
  induction text generalizing zone before with
  | nil =>
      rfl
  | cons c rest inductionHypothesis =>
      simp only [spanFrom]
      split
      · rfl
      · simp [inductionHypothesis]

/-- What is left behind a cut is no longer than the text. -/
theorem length_spanCode_snd_le
    (marker : Char → Bool)
    (text : Text) :
    (spanCode marker text).2.length ≤ text.length := by
  have whole :=
    congrArg List.length (spanFrom_append marker .code none text)
  simp only [List.length_append] at whole
  simp only [spanCode]
  omega

end ClassicBasic.Line
