import ClassicBasic.Terminator

namespace ClassicBasic

/-!
# Faults

What stops the reading of a module, with the physical line that is to blame,
and how it is told.
-/

/-- What is wrong with a line of a module header. -/
inductive HeaderFault where
  | endOfInput
  | noFlag
  | noAttribute
  | nameNotFirst
  deriving Repr, DecidableEq

/-- What stops the reading of a module. -/
inductive Fault where
  | malformedHeader (line : Nat) (text : Text) (reason : HeaderFault)
  | unterminatedBlock (terminator : Terminator) (openedAt : Nat)
  | missingModuleName
  | cancelled (line : Nat)
  deriving Repr, DecidableEq

/-- A fault in words. -/
def HeaderFault.message : HeaderFault → Text
  | .endOfInput => "unexpected end of input in header"
  | .noFlag => "expected `Key = <integer>` class flag"
  | .noAttribute => "expected an `Attribute` line"
  | .nameNotFirst => "first class attribute must be VB_Name"

namespace Fault

/-- The physical line that a fault is reported at. -/
def line : Fault → Nat
  | .malformedHeader line .. => line
  | .unterminatedBlock _ openedAt => openedAt
  | .missingModuleName => 1
  | .cancelled line => line

/-- A fault in words. -/
def message : Fault → Text
  | .malformedHeader _ text reason =>
      Text.concat ["malformed header: ", reason.message, " (found `", text, "`)"]
  | .unterminatedBlock terminator openedAt =>
      Text.concat
        ["expected `", terminator.text,
          "` to close the block opened at line ", toString openedAt]
  | .missingModuleName => "module has no VB_Name attribute"
  | .cancelled _ => "parse cancelled"

end Fault

/-- A fault in a file. -/
structure FileFault where
  file : Text
  fault : Fault
  deriving Repr, DecidableEq

namespace FileFault

/-- Stands for the name of a file without one. -/
def unnamed : Text := "<input>"

/-- A fault in the file with the given name, which may be empty. -/
def inFile (file : Text) (fault : Fault) : FileFault :=
  ⟨if file.isEmpty then unnamed else file, fault⟩

/-- A fault with its place in words. -/
def message (located : FileFault) : Text :=
  Text.concat
    [located.file, ":", toString located.fault.line, ": ", located.fault.message]

end FileFault

end ClassicBasic
