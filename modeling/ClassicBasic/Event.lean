import ClassicBasic.Node

namespace ClassicBasic

/-!
# Events

What a reader reports while it reads a module.  Every event has a level, a
message and named fields, all of them texts.
-/

/-- How important an event is. -/
inductive EventLevel where
  | debug
  | trace
  deriving Repr, DecidableEq

/-- A report about the reading of a module. -/
inductive Event where
  | readingStarts (file : Text) (lines : Nat)
  | classHeader (flags : ClassFlags)
  | nothingDeclared (line : Nat) (instruction : Text)
  | fieldSkipped (line : Nat) (code : Text)
  | enumMemberSkipped (line : Nat) (code : Text)
  | valueNotLiteral (line : Nat) (value : Text)
  | declarationsEnd (line : Nat)
  | parameterSkipped (line : Nat) (segment : Text)
  | memberOpens (line : Nat) (member : Text)
  | lineOutsideMembers (line : Nat) (text : Text)
  | loopsOverclosed (line : Nat)
  | readingEnds (module : Text) (declarations members : Nat)
  deriving DecidableEq

namespace ClassFlags

/-- Class flags in words. -/
def display (flags : ClassFlags) : Text :=
  Text.concat
    ["ClassFlags \x7b multi_use: ", toString flags.multiUse.toInt,
      ", persistable: ", toString flags.persistable.toInt,
      ", data_binding_behavior: ", toString flags.dataBindingBehavior.toInt,
      ", data_source_behavior: ", toString flags.dataSourceBehavior.toInt,
      ", mts_transaction_mode: ", toString flags.mtsTransactionMode.toInt,
      " \x7d"]

end ClassFlags

namespace Event

/-- The level of an event. -/
def level : Event → EventLevel
  | .readingStarts .. | .classHeader .. | .declarationsEnd .. | .memberOpens ..
  | .readingEnds .. => .debug
  | .nothingDeclared .. | .fieldSkipped .. | .enumMemberSkipped ..
  | .valueNotLiteral .. | .parameterSkipped .. | .lineOutsideMembers ..
  | .loopsOverclosed .. => .trace

/-- The message of an event. -/
def message : Event → Text
  | .readingStarts .. => "parsing module"
  | .classHeader .. => "class header"
  | .nothingDeclared .. => "no declaration in instruction"
  | .fieldSkipped .. => "unrecognized type field"
  | .enumMemberSkipped .. => "unrecognized enum member"
  | .valueNotLiteral .. => "enum value is not a literal"
  | .declarationsEnd .. => "declaration section ends"
  | .parameterSkipped .. => "unrecognized parameter skipped"
  | .memberOpens .. => "member"
  | .lineOutsideMembers .. => "line outside any member"
  | .loopsOverclosed .. => "Next closes more loops than are open"
  | .readingEnds .. => "module parsed"

/-- A number as the text of a field. -/
def number (value : Nat) : Text :=
  toString value

/-- The fields of an event by name. -/
def fields : Event → List (Text × Text)
  | .readingStarts file lines => [("file", file), ("lines", number lines)]
  | .classHeader flags => [("class_flags", flags.display)]
  | .nothingDeclared line instruction =>
      [("line", number line), ("text", instruction)]
  | .fieldSkipped line code => [("line", number line), ("code", code)]
  | .enumMemberSkipped line code => [("line", number line), ("code", code)]
  | .valueNotLiteral line value => [("line", number line), ("value", value)]
  | .declarationsEnd line => [("line", number line)]
  | .parameterSkipped line segment =>
      [("line", number line), ("parameter", segment)]
  | .memberOpens line member => [("line", number line), ("member", member)]
  | .lineOutsideMembers line text => [("line", number line), ("text", text)]
  | .loopsOverclosed line => [("line", number line)]
  | .readingEnds module declarations members =>
      [("module", module), ("declarations", number declarations),
        ("members", number members)]

end Event

end ClassicBasic
