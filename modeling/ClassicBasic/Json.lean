import ClassicBasic.Text

namespace ClassicBasic

/-!
# JSON

JSON values whose records keep the order of their fields, and their printed
form with one field or item a line.
-/

/-- A JSON value.  Numbers are integers. -/
inductive Json where
  | null
  | bool (value : Bool)
  | number (value : Int)
  | text (value : Text)
  | list (items : List Json)
  | record (fields : List (Text × Json))

namespace Json

/-- A value that may be missing. -/
def option (value : Option Json) : Json :=
  value.getD .null

/-- A hexadecimal digit. -/
def hexDigit (value : Nat) : Char :=
  Char.ofNat (if value < 10 then value + '0'.toNat else value - 10 + 'a'.toNat)

/-- A character inside a string.  Quotes, backslashes and control characters
are escaped, and nothing else is. -/
def escape (c : Char) : Text :=
  if c = '"' then "\\\""
  else if c = '\\' then "\\\\"
  else if c = '\x08' then "\\b"
  else if c = '\x0c' then "\\f"
  else if c = '\n' then "\\n"
  else if c = '\r' then "\\r"
  else if c = '\t' then "\\t"
  else if c.toNat < 0x20 then
    Text.concat ["\\u00", [hexDigit (c.toNat / 16), hexDigit (c.toNat % 16)]]
  else [c]

/-- A string with its quotes. -/
def string (text : Text) : Text :=
  Text.concat ["\"", text.flatMap escape, "\""]

/-- A new line, indented to a depth. -/
def newLine (depth : Nat) : Text :=
  '\n' :: List.replicate (2 * depth) ' '

mutual

/-- The printed form of a value that stands at the given depth. -/
def render (depth : Nat) : Json → Text
  | .null => "null"
  | .bool value => if value then "true" else "false"
  | .number value => toString value
  | .text value => string value
  | .list [] => "[]"
  | .list (item :: items) =>
      Text.concat
        ["[", newLine (depth + 1), render (depth + 1) item,
          renderItems (depth + 1) items, newLine depth, "]"]
  | .record [] => ['\x7b', '\x7d']
  | .record ((name, value) :: fields) =>
      Text.concat
        [['\x7b'], newLine (depth + 1), string name, ": ", render (depth + 1) value,
          renderFields (depth + 1) fields, newLine depth, ['\x7d']]

/-- The printed form of the items behind the first one. -/
def renderItems (depth : Nat) : List Json → Text
  | [] => []
  | item :: items =>
      Text.concat [",", newLine depth, render depth item, renderItems depth items]

/-- The printed form of the fields behind the first one. -/
def renderFields (depth : Nat) : List (Text × Json) → Text
  | [] => []
  | (name, value) :: fields =>
      Text.concat
        [",", newLine depth, string name, ": ", render depth value,
          renderFields depth fields]

end

/-- The printed form of a value. -/
def pretty (value : Json) : Text :=
  render 0 value

end Json

end ClassicBasic
