import ClassicBasic.Reading

namespace ClassicBasic

/-!
# Cursors

A cursor goes over the logical lines behind a header.  It knows the place among
them and the number of loops that the last `Next` line has still to close: from
one line to the next, this number is kept nowhere else.  A line of the
declaration section is looked at before it is taken, and every other line is
taken first.
-/

/-- Lines to be read, and how far they have been read. -/
structure Cursor where
  lines : List Line
  /-- The number of lines that have been taken. -/
  position : Nat
  /-- The number of loops that the last `Next` line has still to close. -/
  surplus : Nat
  deriving Repr, DecidableEq

namespace Reading

/-- The number of loops that stay to be closed, if a member is open. -/
def surplus? (reading : Reading) : Option Nat :=
  match reading.place with
  | .member member => some member.body.surplus
  | _ => none

/-- A reading with another number of loops that stay to be closed.  It has such
a number where a member is open. -/
def withSurplus (reading : Reading) (surplus : Nat) : Reading :=
  match reading.place with
  | .member member =>
      let body := { member.body with surplus := surplus }
      { reading with place := .member { member with body := body } }
  | _ => reading

end Reading

namespace Cursor

/-- A cursor that has never been used. -/
def start : Cursor :=
  ⟨[], 0, 0⟩

/-- A cursor in front of lines. -/
def inFrontOf (cursor : Cursor) (lines : List Line) : Cursor :=
  { cursor with lines := lines, position := 0 }

/-- The cursor behind a line, given the reading there. -/
def behind (cursor : Cursor) (next : Reading) : Cursor :=
  { cursor with
    position := cursor.position + 1
    surplus := next.surplus?.getD cursor.surplus }

/-- The cursor where a line stops the reading, given what was reported of the
line.  Nothing is reported before the first look. -/
def stoppedAt (cursor : Cursor) (reading : Reading) (log : List Event) : Cursor :=
  match reading.place, log with
  | .declarations, [] => cursor
  | _, _ => { cursor with position := cursor.position + 1 }

/-- What the reading of lines shows, and where it leaves the cursor. -/
structure Stretch where
  log : List Event
  result : Except Fault Reading
  cursor : Cursor

/-- Read the lines from the cursor on, with the number of events after which
the reading is cancelled, or none if it never is. -/
def readLines (cursor : Cursor) (patience : Option Nat) (reading : Reading) :
    Stretch :=
  if inside : cursor.position < cursor.lines.length then
    let line := cursor.lines[cursor.position]
    match ((reading.withSurplus cursor.surplus).readLine line).observe patience with
    | (log, .error fault) => ⟨log, .error fault, cursor.stoppedAt reading log⟩
    | (log, .ok next) =>
        let stretch :=
          (cursor.behind next).readLines (Run.remaining patience log)
            (next.withSurplus 0)
        { stretch with log := log ++ stretch.log }
  else
    ⟨[], .ok reading, cursor⟩
termination_by cursor.lines.length - cursor.position
decreasing_by
  simp only [behind]
  omega

end Cursor

end ClassicBasic
