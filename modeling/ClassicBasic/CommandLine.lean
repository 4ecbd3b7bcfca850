import ClassicBasic.CommandLine.Arguments
import ClassicBasic.CommandLine.Source
import ClassicBasic.Module
import ClassicBasic.Node.Json
import ClassicBasic.Node.Walk
import ClassicBasic.Token.Stream

namespace ClassicBasic.CommandLine

/-!
# The command line

What the program prints for its arguments, given how files are read.  A file
is printed as a tree, one node a line; as JSON; or as its tokens, one a line.
-/

/-- What the program leaves behind. -/
structure Response where
  exit : Nat
  output : Text
  errors : Text
  deriving Repr, DecidableEq

/-- The name and version of the program. -/
def versionText : Text := "vbtree 0.1.0\n"

/-- How the program is called. -/
def usageText : Text := "Usage: vbtree [OPTIONS] <FILE>\n"

/-- What the program does and how it is called. -/
def helpText : Text :=
  Text.concat
    ["Parse a VB6 module and print its structure\n\n", usageText,
      "\nArguments:\n  <FILE>  Module to parse (.cls or .bas)\n",
      "\nOptions:\n",
      "      --tokens           Print the classified instruction stream instead of the tree\n",
      "      --format <FORMAT>  [default: tree] [possible values: tree, json]\n",
      "  -h, --help             Print help\n",
      "  -V, --version          Print version\n"]

/-- A text with spaces in front up to a width. -/
def padLeft (width : Nat) (text : Text) : Text :=
  List.replicate (width - text.length) ' ' ++ text

/-- A text with spaces behind it up to a width. -/
def padRight (width : Nat) (text : Text) : Text :=
  text ++ List.replicate (width - text.length) ' '

/-- The printed line of a token. -/
def tokenLine (token : Token) : Text :=
  Text.concat
    [padLeft 5 (toString token.location.line), ":",
      padRight 3 (toString token.location.column), " ", token.display, "\n"]

/-- The printed line of a node at a depth. -/
def nodeLine (visit : Nat × Node) : Text :=
  Text.concat
    [padLeft 5 (toString visit.2.line), " ", List.replicate (2 * visit.1) ' ',
      visit.2.display, "\n"]

/-- A module as it is printed. -/
def printModule (module : Node) : OutputFormat → Text
  | .tree => Text.concat (module.walk.map nodeLine)
  | .json => Text.concat [module.toJson.pretty, "\n"]

/-- The response to success. -/
def succeed (output : Text) : Response :=
  ⟨0, output, []⟩

/-- The response to a failure to read or to parse. -/
def fail (message : Text) : Response :=
  ⟨1, [], Text.concat ["Error: ", message, "\n"]⟩

/-- The response to a wrong command line. -/
def refuse : Response :=
  ⟨2, [], Text.concat ["error: invalid arguments\n\n", usageText]⟩

/-- Print what is asked for about the lines of a file. -/
def printLines (options : Options) (source : List Text) : Response :=
  if options.tokens then
    succeed (Text.concat ((Token.ofSource Matcher.table source).map tokenLine))
  else
    match (Module.parse (displayName options.file) source none).result with
    | .ok module => succeed (printModule module options.format)
    | .error fault => fail fault.message

/-- Print what is asked for about a file that has been read, or say why it
could not be read. -/
def printFile (options : Options) (content : Except ReadFault ByteArray) : Response :=
  match content.bind decode with
  | .ok text => printLines options (lines text)
  | .error fault =>
      fail
        (Text.concat
          ["failed to read ", options.file, "\n\nCaused by:\n    ", fault.message])

/-- Answer a command line, given what reading the file it names gives. -/
def respond (request : Request) (content : Except ReadFault ByteArray) : Response :=
  match request with
  | .print options => printFile options content
  | .help => succeed helpText
  | .version => succeed versionText
  | .invalid => refuse

end ClassicBasic.CommandLine
