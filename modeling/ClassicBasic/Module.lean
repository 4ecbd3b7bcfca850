import ClassicBasic.Header
import ClassicBasic.Reading

namespace ClassicBasic.Module

/-!
# Modules

A module is read from its physical lines: the header at its fixed place, and
then the logical lines behind it.
-/

/-- The name that the attributes of a header give a module. -/
def name? (attributes : List Node) : Option Text :=
  (attributes.find? fun node => node.name = Node.nameAttribute).bind Node.value?

/-- The declarations and members behind a header. -/
def readBody (source : List Text) (header : Header) : Run (List Node × List Node) := do
  let lines := Line.logical (header.length + 1) (source.drop header.length)
  let reading ← Reading.start.readLines lines
  Run.ofExcept reading.finish

/-- Read a module from its physical lines.  The file name, which may be empty,
is kept in the root. -/
def read (file : Text) (source : List Text) : Run Node := do
  Run.report (.readingStarts file source.length)
  let header ← Header.read source
  let (declarations, members) ← readBody source header
  match name? header.attributes with
  | none => Run.fail .missingModuleName
  | some name => do
      Run.report (.readingEnds name declarations.length members.length)
      pure ⟨name, 1, .module file header.classFlags,
        header.attributes ++ declarations ++ members⟩

/-- What the reading of a module shows: the events it reports, and the module
or the fault that stops it. -/
structure Outcome where
  log : List Event
  result : Except FileFault Node

/-- Read a module, with the number of events after which the reading is
cancelled, or none if it never is. -/
def parse (file : Text) (source : List Text) (patience : Option Nat) : Outcome :=
  let (log, result) := (read file source).observe patience
  ⟨log, result.mapError (FileFault.inFile file)⟩

end ClassicBasic.Module
