import ClassicBasic.Text

namespace ClassicBasic.CommandLine

/-!
# Arguments

The command line names one file and may choose what is printed.  Arguments are
read from the left, and the first fault, or the first request for help or for
the version, ends the reading.
-/

/-- How a tree is printed. -/
inductive OutputFormat where
  | tree
  | json
  deriving Repr, DecidableEq

/-- What is to be printed about which file. -/
structure Options where
  file : Text
  /-- Print the tokens and not the tree. -/
  tokens : Bool
  format : OutputFormat
  deriving Repr, DecidableEq

/-- What a command line asks for. -/
inductive Request where
  | print (options : Options)
  | help
  | version
  | invalid
  deriving Repr, DecidableEq

/-- What the arguments so far have settled. -/
structure Settled where
  file : Option Text
  tokens : Bool
  format : Option OutputFormat
  deriving Repr, DecidableEq

namespace OutputFormat

/-- The format with the given name. -/
def ofName? (name : Text) : Option OutputFormat :=
  if name = "tree" then some .tree
  else if name = "json" then some .json
  else none

end OutputFormat

/-- One argument by its form. -/
inductive Argument where
  /-- Ends the options. -/
  | separator
  | long (name : Text) (value : Option Text)
  | short (name : Char)
  | positional (text : Text)
  deriving Repr, DecidableEq

namespace Argument

/-- The form of an argument.  A single hyphen is positional. -/
def ofText : Text → Argument
  | ['-', '-'] => .separator
  | '-' :: '-' :: option =>
      match option.dropWhile (· ≠ '=') with
      | [] => .long option none
      | _ :: value => .long (option.takeWhile (· ≠ '=')) (some value)
  | '-' :: name :: _ => .short name
  | text => .positional text

end Argument

namespace Settled

/-- Nothing is settled. -/
def nothing : Settled :=
  ⟨none, false, none⟩

/-- Settle the file.  There is only one, and its name is not empty. -/
def withFile? (settled : Settled) (file : Text) : Option Settled :=
  if settled.file.isSome || file.isEmpty then none
  else some { settled with file := some file }

/-- Ask for tokens, which can be done once. -/
def withTokens? (settled : Settled) : Option Settled :=
  if settled.tokens then none else some { settled with tokens := true }

/-- Settle the format, which can be done once. -/
def withFormat? (settled : Settled) (name : Text) : Option Settled :=
  match settled.format, OutputFormat.ofName? name with
  | none, some format => some { settled with format := some format }
  | _, _ => none

/-- The request that settled arguments make. -/
def request (settled : Settled) : Request :=
  match settled.file with
  | some file => .print ⟨file, settled.tokens, settled.format.getD .tree⟩
  | none => .invalid

/-- Read arguments that are all positional. -/
def readFiles (settled : Settled) : List Text → Request
  | [] => settled.request
  | file :: rest =>
      match settled.withFile? file with
      | some settled => settled.readFiles rest
      | none => .invalid

/-- Read arguments.  A format that is asked for without its name takes the
next argument for it. -/
def read (settled : Settled) : List Text → Request
  | [] => settled.request
  | text :: rest =>
      match Argument.ofText text with
      | .separator => settled.readFiles rest
      | .positional file => (settled.withFile? file).elim .invalid (·.read rest)
      | .long name none =>
          if name = "tokens" then settled.withTokens?.elim .invalid (·.read rest)
          else if name = "format" then
            match rest with
            | [] => .invalid
            | format :: behind =>
                (settled.withFormat? format).elim .invalid (·.read behind)
          else if name = "help" then .help
          else if name = "version" then .version
          else .invalid
      | .long name (some value) =>
          if name = "format" then
            (settled.withFormat? value).elim .invalid (·.read rest)
          else
            .invalid
      | .short name =>
          if name = 'h' then .help
          else if name = 'V' then .version
          else .invalid

end Settled

/-- What a command line asks for. -/
def Request.ofArguments (arguments : List Text) : Request :=
  Settled.nothing.read arguments

end ClassicBasic.CommandLine
