import ClassicBasic.Json
import ClassicBasic.Node.Display

namespace ClassicBasic

/-!
# Nodes as JSON

A node is a record of its name, its line, its payload and its children.  The
payload names its kind first, and then all fields of that kind.
-/

/-- Class flags as a record. -/
def ClassFlags.toJson (flags : ClassFlags) : Json :=
  .record
    [("multi_use", .number flags.multiUse.toInt),
      ("persistable", .number flags.persistable.toInt),
      ("data_binding_behavior", .number flags.dataBindingBehavior.toInt),
      ("data_source_behavior", .number flags.dataSourceBehavior.toInt),
      ("mts_transaction_mode", .number flags.mtsTransactionMode.toInt)]

/-- An external procedure as a record. -/
def ExternalProcedure.toJson (procedure : ExternalProcedure) : Json :=
  .record
    [("kind", .text procedure.kind.keyword),
      ("library", .text procedure.library),
      ("alias", .option (procedure.aliasName.map .text))]

namespace Payload

/-- A modifier that may be missing. -/
def modifierJson (modifier : Option AccessModifier) : Json :=
  .option (modifier.map fun modifier => .text modifier.keyword)

/-- The fields of a payload. -/
def fields : Payload → List (Text × Json)
  | .module fileName flags =>
      [("file_name", .text fileName),
        ("class_flags", .option (flags.map ClassFlags.toJson))]
  | .attributeLine value quoted =>
      [("value", .text value), ("quoted", .bool quoted)]
  | .declaration modifier keyword constantValue withEvents externalProcedure =>
      [("modifier", modifierJson modifier),
        ("keyword", .text keyword.keyword),
        ("constant_value", .option (constantValue.map .text)),
        ("with_events", .bool withEvents),
        ("external", .option (externalProcedure.map ExternalProcedure.toJson))]
  | .property modifier isStatic accessor =>
      [("modifier", modifierJson modifier),
        ("is_static", .bool isStatic),
        ("accessor", .text accessor.keyword)]
  | .method modifier isStatic kind =>
      [("modifier", modifierJson modifier),
        ("is_static", .bool isStatic),
        ("method_kind", .text kind.keyword)]
  | .parameter passing isOptional isParamArray defaultValue =>
      [("passing", .text passing.name),
        ("is_optional", .bool isOptional),
        ("is_param_array", .bool isParamArray),
        ("default_value", .option (defaultValue.map .text))]
  | .enumMember value isExplicit =>
      [("value", .number value.toInt), ("explicit", .bool isExplicit)]
  | .identifier | .typeReference | .arraySpec | .initializer | .interface
  | .codeBlock | .comment | .memberReference => []

/-- A payload as a record. -/
def toJson (payload : Payload) : Json :=
  .record (("kind", .text payload.kind.name) :: payload.fields)

end Payload

namespace Node

mutual

/-- A node as a record. -/
def toJson : Node → Json
  | ⟨name, line, payload, children⟩ =>
      .record
        [("name", .text name), ("line", .number line), ("payload", payload.toJson),
          ("children", .list (toJsonAll children))]

/-- Several nodes as records. -/
def toJsonAll : List Node → List Json
  | [] => []
  | node :: rest => toJson node :: toJsonAll rest

end

end Node

end ClassicBasic
