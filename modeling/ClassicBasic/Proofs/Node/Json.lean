import ClassicBasic.Node.Json
import ClassicBasic.Proofs.Json
import ClassicBasic.Proofs.Keyword

namespace ClassicBasic

/-!
# Nodes are told from their JSON

The fields of a payload have names of their own, which its kind fixes, so payloads that
say the same are of one kind and agree field by field.  A field that is missing is told
from one that is there, and no two keywords of a field are spelled alike.
-/

open Json

/-! ## Names -/

/-- Kinds of nodes have different names. -/
theorem NodeKind.name_injective : Function.Injective NodeKind.name :=
  injective_of_nodup all (by rintro ⟨⟩ <;> decide) (by decide)

/-- Ways to pass a parameter have different names. -/
theorem PassingMode.name_injective : Function.Injective PassingMode.name :=
  injective_of_nodup [.unspecified, .byReference, .byValue]
    (by rintro ⟨⟩ <;> decide) (by decide)

/-! ## Fields -/

/-- Texts that may be missing are told apart, and from none. -/
theorem agrees_optionalText_iff
    {first second : Option Text} :
    Agrees (option (first.map .text)) (option (second.map .text)) ↔ first = second := by
  have faithful : IsFaithful .text := by
    simp [IsFaithful]
  exact (faithful.option (by simp)).agrees_iff

/-- Access modifiers that may be missing are told apart, and from none. -/
theorem Payload.agrees_modifierJson_iff
    {first second : Option AccessModifier} :
    Agrees (modifierJson first) (modifierJson second) ↔ first = second := by
  have faithful : IsFaithful fun modifier : AccessModifier => .text modifier.keyword := by
    simp [IsFaithful, AccessModifier.keyword_injective.eq_iff]
  exact (faithful.option (by simp)).agrees_iff

/-- Class flags are told apart by their five values. -/
theorem ClassFlags.isFaithful_toJson : IsFaithful ClassFlags.toJson := by
  intro first second agree
  have values :=
    forall₂_values_of_agrees agree
      ["multi_use", "persistable", "data_binding_behavior", "data_source_behavior",
        "mts_transaction_mode"]
      (by decide) rfl rfl
  cases first
  cases second
  simpa [Int32.toInt_inj] using values

/-- Class flags that may be missing are told apart, and from none. -/
theorem agrees_optionalFlags_iff
    {first second : Option ClassFlags} :
    Agrees (option (first.map ClassFlags.toJson)) (option (second.map ClassFlags.toJson)) ↔
      first = second :=
  (ClassFlags.isFaithful_toJson.option (by simp [ClassFlags.toJson])).agrees_iff

/-- External procedures are told apart by what is written for them. -/
theorem ExternalProcedure.isFaithful_toJson : IsFaithful ExternalProcedure.toJson := by
  intro first second agree
  have values :=
    forall₂_values_of_agrees agree ["kind", "library", "alias"] (by decide) rfl rfl
  cases first
  cases second
  simpa [MethodKind.keyword_injective.eq_iff, agrees_optionalText_iff] using values

/-- External procedures that may be missing are told apart, and from none. -/
theorem agrees_optionalProcedure_iff
    {first second : Option ExternalProcedure} :
    Agrees (option (first.map ExternalProcedure.toJson))
        (option (second.map ExternalProcedure.toJson)) ↔
      first = second :=
  (ExternalProcedure.isFaithful_toJson.option
    (by simp [ExternalProcedure.toJson])).agrees_iff

namespace Payload

/-- The names of the fields of a payload, by its kind. -/
def fieldNames : NodeKind → List Text
  | .module => ["file_name", "class_flags"]
  | .attributeLine => ["value", "quoted"]
  | .declaration => ["modifier", "keyword", "constant_value", "with_events", "external"]
  | .property => ["modifier", "is_static", "accessor"]
  | .method => ["modifier", "is_static", "method_kind"]
  | .parameter => ["passing", "is_optional", "is_param_array", "default_value"]
  | .enumMember => ["value", "explicit"]
  | .identifier | .typeReference | .arraySpec | .initializer | .interface
  | .codeBlock | .comment | .memberReference => []

/-- No field is named twice, and none as the kind is. -/
theorem nodup_fieldNames
    (kind : NodeKind) :
    (("kind" : Text) :: fieldNames kind).Nodup := by
  cases kind <;>
    decide

/-- The names of the fields of a node depend on its kind only. -/
theorem map_fst_fields
    (payload : Payload) :
    payload.fields.map Prod.fst = fieldNames payload.kind := by
  cases payload <;>
    rfl

variable {first second : Payload}

/-- Payloads that say the same are of one kind. -/
theorem kind_eq_of_agrees
    (agree : Agrees first.toJson second.toJson) :
    first.kind = second.kind := by
  cases agree with
  | record agree =>
      have kinds := agree "kind"
      rw [List.lookup_cons_self, List.lookup_cons_self, Option.rel_some_some,
        agrees_text_iff] at kinds
      exact NodeKind.name_injective kinds

/-- Payloads that say the same agree field by field. -/
theorem forall₂_fields_of_agrees
    (agree : Agrees first.toJson second.toJson) :
    List.Forall₂ Agrees (first.fields.map Prod.snd) (second.fields.map Prod.snd) := by
  have sameNames : second.fields.map Prod.fst = fieldNames first.kind := by
    rw [map_fst_fields, kind_eq_of_agrees agree]
  have values :=
    forall₂_values_of_agrees agree ("kind" :: fieldNames first.kind)
      (nodup_fieldNames first.kind)
      (congrArg (_ :: ·) first.map_fst_fields) (congrArg (_ :: ·) sameNames)
  rw [List.map_cons, List.map_cons, List.forall₂_cons] at values
  exact values.2

/-- No two payloads say the same. -/
theorem isFaithful_toJson : IsFaithful toJson := by
  intro first second agree
  have sameKind := kind_eq_of_agrees agree
  have values := forall₂_fields_of_agrees agree
  cases first with
  | module =>
      cases second with
      | module =>
          simpa [fields, agrees_optionalFlags_iff] using values
      | _ =>
          cases sameKind
  | attributeLine =>
      cases second with
      | attributeLine =>
          simpa [fields] using values
      | _ =>
          cases sameKind
  | declaration =>
      cases second with
      | declaration =>
          simpa [fields, agrees_modifierJson_iff,
            DeclarationKeyword.keyword_injective.eq_iff, agrees_optionalText_iff,
            agrees_optionalProcedure_iff] using values
      | _ =>
          cases sameKind
  | property =>
      cases second with
      | property =>
          simpa [fields, agrees_modifierJson_iff, Accessor.keyword_injective.eq_iff]
            using values
      | _ =>
          cases sameKind
  | method =>
      cases second with
      | method =>
          simpa [fields, agrees_modifierJson_iff, MethodKind.keyword_injective.eq_iff]
            using values
      | _ =>
          cases sameKind
  | parameter =>
      cases second with
      | parameter =>
          simpa [fields, PassingMode.name_injective.eq_iff, agrees_optionalText_iff]
            using values
      | _ =>
          cases sameKind
  | enumMember =>
      cases second with
      | enumMember =>
          simpa [fields, Int64.toInt_inj] using values
      | _ =>
          cases sameKind
  | identifier | typeReference | arraySpec | initializer | interface | codeBlock
  | comment | memberReference =>
      -- Nothing but the kind tells these apart.
      cases second <;>
        first
          | rfl
          | cases sameKind

end Payload

namespace Node

mutual

/-- Nodes that say the same are equal, as are all nodes below them. -/
theorem eq_of_agrees
    {first second : Node}
    (agree : Agrees first.toJson second.toJson) :
    first = second := by
  cases first with
  | mk name line payload children =>
      cases second with
      | mk name' line' payload' children' =>
          rw [toJson, toJson] at agree
          have values :=
            forall₂_values_of_agrees agree ["name", "line", "payload", "children"]
              (by decide) rfl rfl
          simp only [List.map_cons, List.map_nil, List.forall₂_cons, agrees_text_iff,
            agrees_number_iff, Payload.isFaithful_toJson.agrees_iff, Int.ofNat_inj] at values
          obtain ⟨rfl, rfl, rfl, below, -⟩ := values
          rw [eq_of_forall₂_agrees (forall₂_of_agrees below)]

/-- Lists of nodes are told apart node by node. -/
theorem eq_of_forall₂_agrees
    {first second : List Node}
    (agree : List.Forall₂ Agrees (toJsonAll first) (toJsonAll second)) :
    first = second := by
  cases first with
  | nil =>
      cases second with
      | nil =>
          rfl
      | cons node' rest' =>
          rw [toJsonAll, toJsonAll] at agree
          cases agree
  | cons node rest =>
      cases second with
      | nil =>
          rw [toJsonAll, toJsonAll] at agree
          cases agree
      | cons node' rest' =>
          rw [toJsonAll, toJsonAll, List.forall₂_cons] at agree
          rw [eq_of_agrees agree.1, eq_of_forall₂_agrees agree.2]

end

/-- No two nodes are written as the same JSON, be its records compared with the order of
their fields or without.  Nor are two payloads: a value that is missing, a text and a
keyword never look alike. -/
theorem toJson_unambiguous
    (first second : Node) :
    [first = second, first.toJson = second.toJson,
        Agrees first.toJson second.toJson].TFAE ∧
      ∀ payload payload' : Payload,
        [payload = payload', payload.toJson = payload'.toJson,
          Agrees payload.toJson payload'.toJson].TFAE := by
  have faithful : IsFaithful Node.toJson :=
    fun _ _ agree => eq_of_agrees agree
  exact ⟨faithful.tfae, fun _ _ => Payload.isFaithful_toJson.tfae⟩

end Node

end ClassicBasic
