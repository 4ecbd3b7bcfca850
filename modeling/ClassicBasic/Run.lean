import ClassicBasic.Event
import ClassicBasic.Fault

namespace ClassicBasic

/-!
# Runs

A run is the record of a computation: the events that it reports and the lines
at which it looks whether it was cancelled, in order, and then its result.
Cancelling is a reading of this record.  A cancelled run is cut at the first
look behind the moment of cancellation, and nothing before it changes.
-/

/-- One step of a run. -/
inductive Step where
  | report (event : Event)
  /-- Stop here if the run was cancelled before this line. -/
  | look (line : Nat)
  deriving DecidableEq

/-- A computation with the record of its steps. -/
structure Run (α : Type) where
  steps : List Step
  result : Except Fault α

namespace Run

/-- A run of no steps. -/
def done (value : α) : Run α :=
  ⟨[], .ok value⟩

/-- A run that goes on with the result of another. -/
def andThen (run : Run α) (next : α → Run β) : Run β :=
  match run.result with
  | .ok value => ⟨run.steps ++ (next value).steps, (next value).result⟩
  | .error fault => ⟨run.steps, .error fault⟩

instance : Monad Run where
  pure := done
  bind := andThen

/-- Report an event. -/
def report (event : Event) : Run Unit :=
  ⟨[.report event], .ok ()⟩

/-- Report events in order. -/
def reportAll (events : List Event) : Run Unit :=
  ⟨events.map .report, .ok ()⟩

/-- Look at a line whether the run was cancelled. -/
def look (line : Nat) : Run Unit :=
  ⟨[.look line], .ok ()⟩

/-- Stop with a fault. -/
def fail (fault : Fault) : Run α :=
  ⟨[], .error fault⟩

/-- Go on with a value, or stop with a fault. -/
def ofExcept (result : Except Fault α) : Run α :=
  ⟨[], result⟩

/-- The events of a run that is cancelled once `patience` events have been
reported, or never, and the line at which it stops for that. -/
def cut (patience : Option Nat) : List Step → List Event × Option Nat
  | [] => ([], none)
  | .report event :: rest =>
      let (log, stop) := cut (patience.map (· - 1)) rest
      (event :: log, stop)
  | .look line :: rest =>
      if patience = some 0 then ([], some line) else cut patience rest

/-- The number of further events until a run is cancelled, behind those of a log. -/
def remaining (patience : Option Nat) (log : List Event) : Option Nat :=
  patience.map (· - log.length)

/-- What is seen of a run: its events, and its result or the line at which it
was cancelled. -/
def observe (patience : Option Nat) (run : Run α) : List Event × Except Fault α :=
  match cut patience run.steps with
  | (log, none) => (log, run.result)
  | (log, some line) => (log, .error (.cancelled line))

end Run

end ClassicBasic
