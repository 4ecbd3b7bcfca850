import ClassicBasic.CommandLine

/-!
# The program

Reads the file that the command line names and prints the answer to it.
-/

namespace ClassicBasic.CommandLine

/-- Read the bytes of a file. -/
def readFile (path : Text) : IO (Except ReadFault ByteArray) := do
  try
    return .ok (← IO.FS.readBinFile (String.ofList path))
  catch fault =>
    match fault with
    | .noFileOrDirectory .. => return .error .notFound
    | _ => return .error (.other (toString fault))

/-- The content of the file that a request names. -/
def contentFor (request : Request) : IO (Except ReadFault ByteArray) :=
  match request with
  | .print options => readFile options.file
  | _ => return .error .notFound

end ClassicBasic.CommandLine

open ClassicBasic.CommandLine in
/-- Answer the command line. -/
def main (arguments : List String) : IO UInt32 := do
  let request := Request.ofArguments (arguments.map String.toList)
  let response := respond request (← contentFor request)
  (← IO.getStdout).putStr (String.ofList response.output)
  (← IO.getStderr).putStr (String.ofList response.errors)
  return response.exit.toUInt32
