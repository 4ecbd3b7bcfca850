import ClassicBasic.Cursor
import ClassicBasic.Module

namespace ClassicBasic

/-!
# Sessions

A session reads one source again and again.  It keeps its cursor from one
reading to the next, as that reading left it.  If the session can be cancelled,
then once it is cancelled every later reading stops where it first looks for
that.
-/

/-- A source with the state of its cancellation and of its last reading. -/
structure Session where
  source : List Text
  /-- The file name, which may be empty. -/
  file : Text
  /-- Whether cancelling has an effect. -/
  cancellable : Bool
  cancelled : Bool
  /-- Where the last reading stopped. -/
  cursor : Cursor
  deriving Repr, DecidableEq

namespace Session

/-- A session in which nothing has been read. -/
def fresh (source : List Text) (file : Text) (cancellable : Bool) : Session :=
  ⟨source, file, cancellable, false, .start⟩

/-- A session for a named file, which can be cancelled. -/
def named (file : Text) (source : List Text) : Session :=
  fresh source file true

/-- A session without a file, which cannot be cancelled. -/
def unnamed (source : List Text) : Session :=
  fresh source [] false

/-- Cancel all later readings of a session. -/
def cancel (session : Session) : Session :=
  { session with cancelled := true }

/-- The number of events after which a reading is cancelled, if the session is
cancelled when `moment` events have been reported. -/
def patience (session : Session) (moment : Option Nat) : Option Nat :=
  if session.cancellable then
    if session.cancelled then some 0 else moment
  else
    none

/-- Read the header. -/
def readHeader (session : Session) : Run Header := do
  Run.report (.readingStarts session.file session.source.length)
  Header.read session.source

/-- Put a module together from its header and the reading behind it. -/
def complete (session : Session) (header : Header) (reading : Reading) : Run Node := do
  let (declarations, members) ← Run.ofExcept reading.finish
  match Module.name? header.attributes with
  | none => Run.fail .missingModuleName
  | some name => do
      Run.report (.readingEnds name declarations.length members.length)
      pure ⟨name, 1, .module session.file header.classFlags,
        header.attributes ++ declarations ++ members⟩

/-- What a reading shows, and the session behind it. -/
def close
    (session : Session)
    (moment : Option Nat)
    (log : List Event)
    (result : Except Fault Node)
    (cursor : Cursor) :
    Module.Outcome × Session :=
  (⟨log, result.mapError (FileFault.inFile session.file)⟩,
    { session with
      cancelled := session.cancelled || moment.any (· ≤ log.length)
      cursor := cursor })

/-- Read the lines behind a header, given what was reported up to there.  The
cursor goes in front of them, with the number that it has. -/
def readBody
    (session : Session)
    (moment : Option Nat)
    (log : List Event)
    (header : Header) :
    Module.Outcome × Session :=
  let patience := Run.remaining (session.patience moment) log
  let lines := Line.logical (header.length + 1) (session.source.drop header.length)
  let stretch := (session.cursor.inFrontOf lines).readLines patience .start
  match stretch.result with
  | .error fault =>
      session.close moment (log ++ stretch.log) (.error fault) stretch.cursor
  | .ok reading =>
      let (last, result) :=
        (session.complete header reading).observe (Run.remaining patience stretch.log)
      session.close moment (log ++ (stretch.log ++ last)) result stretch.cursor

/-- Read the module of a session, which is cancelled when `moment` events have
been reported, or not during the reading. -/
def read (session : Session) (moment : Option Nat) : Module.Outcome × Session :=
  match session.readHeader.observe (session.patience moment) with
  | (log, .error fault) => session.close moment log (.error fault) session.cursor
  | (log, .ok header) => session.readBody moment log header

/-- What reading the module of a session shows. -/
def parse (session : Session) : Module.Outcome :=
  (session.read none).1

end Session

end ClassicBasic
