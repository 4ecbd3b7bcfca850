import ClassicBasic.Text.Blank

namespace ClassicBasic

/-!
# Lines

A physical line that ends in a continuation marker is joined with the line
after it.  Joining physical lines gives logical lines, each numbered by the
physical line that it starts on; blank physical lines between them vanish.
-/

/-- A line of source text with its 1-based number. -/
structure Line where
  text : Text
  number : Nat
  deriving Repr, DecidableEq

namespace Line

/-- Number lines consecutively from a first number on. -/
def numbered (first : Nat) : List Text → List Line
  | [] => []
  | text :: rest => ⟨text, first⟩ :: numbered (first + 1) rest

/-- Joins a physical line with the next one. -/
def continuationMarker : Char := '_'

/-- What a continued line contributes: the text before its continuation
marker.  The marker stands alone or behind a blank, so that a name may end in
an underscore. -/
def continued? (text : Text) : Option Text :=
  match text.reverse with
  | [] => none
  | last :: before =>
      if last = continuationMarker ∧ before.head?.all Text.isBlank then
        some (Text.trimEnd before.reverse)
      else
        none

/-- A continued line followed by the next one, with one space between them
unless one of them is empty. -/
def joinTexts (head next : Text) : Text :=
  if head.isEmpty then next
  else if next.isEmpty then head
  else head ++ ' ' :: next

/-- The logical line that a physical line begins; a blank line begins none. -/
def opened? (line : Line) : Option Line :=
  match Text.trim line.text with
  | [] => none
  | text => some { line with text := text }

/-- Join physical lines into logical ones, given the logical line that is
still open.  A marker with no line left to join is dropped. -/
def joinFrom : Option Line → List Line → List Line
  | none, [] => []
  | some current, [] =>
      [{ current with text := (continued? current.text).getD current.text }]
  | none, next :: rest => joinFrom next.opened? rest
  | some current, next :: rest =>
      match continued? current.text with
      | some head =>
          joinFrom
            (some { current with text := joinTexts head (Text.trim next.text) })
            rest
      | none => current :: joinFrom next.opened? rest

/-- The logical lines of physical lines. -/
def join (physical : List Line) : List Line :=
  joinFrom none physical

/-- The logical lines of a source whose first line has the given number. -/
def logical (first : Nat) (source : List Text) : List Line :=
  join (numbered first source)

end Line

end ClassicBasic
