import ClassicBasic.Text

namespace ClassicBasic.CommandLine

/-!
# Source files

A file is read as UTF-8 and cut into lines.  A line ends in a line feed, with
or without a carriage return in front of it.
-/

/-- Why a file cannot be read. -/
inductive ReadFault where
  | notFound
  | notText
  | other (reason : Text)
  deriving Repr, DecidableEq

/-- A fault in words. -/
def ReadFault.message : ReadFault → Text
  | .notFound => "No such file or directory (os error 2)"
  | .notText => "stream did not contain valid UTF-8"
  | .other reason => reason

/-- The text of a file's bytes. -/
def decode (bytes : ByteArray) : Except ReadFault Text :=
  match String.fromUTF8? bytes with
  | some text => .ok text.toList
  | none => .error .notText

/-- A text cut behind every line feed. -/
def rows : Text → List Text
  | [] => []
  | c :: rest =>
      if c = '\n' then
        [c] :: rows rest
      else
        match rows rest with
        | [] => [[c]]
        | row :: others => (c :: row) :: others

/-- A row without its line ending. -/
def withoutEnding (row : Text) : Text :=
  match Text.before? "\n" row with
  | none => row
  | some line => (Text.before? "\r" line).getD line

/-- The lines of a text. -/
def lines (text : Text) : List Text :=
  (rows text).map withoutEnding

/-- The directory names of a path, and the name at its end, without the empty
ones and those that stand for the directory they are in. -/
def components (path : Text) : List Text :=
  (separate path).filter fun name => !name.isEmpty && name ≠ ['.']
where
  /-- A path cut at its slashes. -/
  separate : Text → List Text
    | [] => [[]]
    | c :: rest =>
        match separate rest with
        | [] => [[c]]
        | name :: others =>
            if c = '/' then [] :: name :: others else (c :: name) :: others

/-- The name that a file is shown under: the last component of its path, or
the whole path if that ends in no name. -/
def displayName (path : Text) : Text :=
  match (components path).getLast? with
  | none => path
  | some name => if name = ['.', '.'] then path else name

end ClassicBasic.CommandLine
