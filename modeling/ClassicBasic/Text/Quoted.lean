import ClassicBasic.Text

namespace ClassicBasic.Text

/-!
# String literals

A string literal is delimited by quotes, and a quote inside it is written
twice.  Reading is lenient: the closing quote may be missing, and a quote that
stands alone inside the literal is kept.
-/

/-- The delimiter of string literals. -/
def stringDelimiter : Char := '"'

/-- Every quote written twice. -/
def doubleQuotes : Text → Text
  | [] => []
  | c :: rest =>
      if c = stringDelimiter then c :: c :: doubleQuotes rest
      else c :: doubleQuotes rest

/-- Every pair of adjacent quotes, taken from the left, written once. -/
def undoubleQuotes : Text → Text
  | [] => []
  | [c] => [c]
  | c :: next :: rest =>
      if c = stringDelimiter ∧ next = stringDelimiter then
        c :: undoubleQuotes rest
      else
        c :: undoubleQuotes (next :: rest)

/-- The string literal that stands for a text. -/
def quote (text : Text) : Text :=
  stringDelimiter :: (doubleQuotes text ++ [stringDelimiter])

/-- A value as written, and whether it was written as a string literal.  The
value of a literal is what it stands for; any other value stays as it is. -/
def unquote (raw : Text) : Text × Bool :=
  match after? [stringDelimiter] raw with
  | none => (raw, false)
  | some rest =>
      (undoubleQuotes ((before? [stringDelimiter] rest).getD rest), true)

/-- Undoubling takes back what doubling did. -/
theorem undoubleQuotes_doubleQuotes
    (text : Text) :
    undoubleQuotes (doubleQuotes text) = text := by
  induction text with
  | nil =>
      rfl
  | cons c rest inductionHypothesis =>
      by_cases quoted : c = stringDelimiter
      · simp [doubleQuotes, undoubleQuotes, quoted, inductionHypothesis]
      · cases doubled : doubleQuotes rest with
        | nil =>
            simp_all [doubleQuotes, undoubleQuotes]
        | cons next others =>
            simp_all [doubleQuotes, undoubleQuotes]

end ClassicBasic.Text
