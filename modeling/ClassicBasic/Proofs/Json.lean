import ClassicBasic.Json
import Mathlib.Data.List.Forall2
import Mathlib.Data.List.Nodup
import Mathlib.Tactic.TFAE

namespace ClassicBasic.Json

/-!
# Values that say the same

The fields of a record have no order, so two values say the same if they differ in the
order of fields only.  Records of the same names, each given once, then agree name by
name, and a value that may be missing agrees with one that is missing as well or with
one that is there.
-/

/-- Whether two values say the same: records give agreeing values to each name. -/
inductive Agrees : Json → Json → Prop where
  | null : Agrees .null .null
  | bool (value : Bool) : Agrees (.bool value) (.bool value)
  | number (value : Int) : Agrees (.number value) (.number value)
  | text (value : Text) : Agrees (.text value) (.text value)
  | list
      {items items' : List Json}
      (agree : List.Forall₂ Agrees items items') :
      Agrees (.list items) (.list items')
  | record
      {fields fields' : List (Text × Json)}
      (agree : ∀ name, Option.Rel Agrees (fields.lookup name) (fields'.lookup name)) :
      Agrees (.record fields) (.record fields')

namespace Agrees

mutual

/-- Every value says the same as itself. -/
theorem refl : (value : Json) → Agrees value value
  | .null => .null
  | .bool value => .bool value
  | .number value => .number value
  | .text value => .text value
  | .list items => .list (items_refl items)
  | .record fields => .record fun name => fields_refl name fields

/-- The values in a list say the same as themselves. -/
theorem items_refl : (items : List Json) → List.Forall₂ Agrees items items
  | [] => .nil
  | item :: items => .cons (refl item) (items_refl items)

/-- What a record has under a name says the same as itself. -/
theorem fields_refl
    (name : Text) :
    (fields : List (Text × Json)) →
      Option.Rel Agrees (fields.lookup name) (fields.lookup name)
  | [] => .none
  | (key, value) :: fields => by
      rw [List.lookup_cons]
      split
      · exact .some (refl value)
      · exact fields_refl name fields

end

end Agrees

/-- Only null says the same as null. -/
@[simp] theorem agrees_null_left
    {value : Json} :
    Agrees .null value ↔ value = .null := by
  constructor
  · rintro ⟨⟩
    rfl
  · rintro rfl
    exact .null

/-- Only null says the same as null. -/
@[simp] theorem agrees_null_right
    {value : Json} :
    Agrees value .null ↔ value = .null := by
  constructor
  · rintro ⟨⟩
    rfl
  · rintro rfl
    exact .null

/-- Whether what is written for values tells them apart, be the fields of records in any
order. -/
def IsFaithful (encode : α → Json) : Prop :=
  ∀ first second, Agrees (encode first) (encode second) → first = second

namespace IsFaithful

variable
  {encode : α → Json}
  (faithful : IsFaithful encode)
  {first second : α}

include faithful

/-- What is written faithfully says the same for equal values only. -/
theorem agrees_iff :
    Agrees (encode first) (encode second) ↔ first = second := by
  constructor
  · exact faithful first second
  · rintro rfl
    exact .refl _

/-- Faithful writing tells values apart by what is written and by what it says. -/
theorem tfae :
    [first = second, encode first = encode second,
      Agrees (encode first) (encode second)].TFAE := by
  tfae_have 1 → 2 := congrArg encode
  tfae_have 2 → 3 := fun same => same ▸ .refl (encode first)
  tfae_have 3 → 1 := faithful first second
  tfae_finish

end IsFaithful

/-- Truth values say the same only if they are equal. -/
@[simp] theorem agrees_bool_iff
    {first second : Bool} :
    Agrees (.bool first) (.bool second) ↔ first = second :=
  IsFaithful.agrees_iff (by rintro first second ⟨⟩; rfl)

/-- Numbers say the same only if they are equal. -/
@[simp] theorem agrees_number_iff
    {first second : Int} :
    Agrees (.number first) (.number second) ↔ first = second :=
  IsFaithful.agrees_iff (by rintro first second ⟨⟩; rfl)

/-- Texts say the same only if they are equal. -/
@[simp] theorem agrees_text_iff
    {first second : Text} :
    Agrees (.text first) (.text second) ↔ first = second :=
  IsFaithful.agrees_iff (by rintro first second ⟨⟩; rfl)

/-- Lists that say the same do so value by value. -/
theorem forall₂_of_agrees
    {items items' : List Json}
    (agree : Agrees (.list items) (.list items')) :
    List.Forall₂ Agrees items items' := by
  cases agree with
  | list agree =>
      exact agree

/-- A record has nothing under a name that is not among its names. -/
theorem lookup_eq_none
    {names : List Text}
    {fields : List (Text × Json)}
    {name : Text}
    (keys : fields.map Prod.fst = names)
    (unknown : name ∉ names) :
    fields.lookup name = none := by
  subst keys
  refine List.lookup_eq_none_iff.mpr fun field member => bne_iff_ne.mpr ?_
  rintro rfl
  exact unknown (List.mem_map_of_mem member)

/-- Records of the same distinct names agree in their values, in the order of the
names. -/
theorem forall₂_values_of_agrees
    {fields fields' : List (Text × Json)}
    (agree : Agrees (.record fields) (.record fields'))
    (names : List Text)
    (distinct : names.Nodup)
    (keys : fields.map Prod.fst = names)
    (keys' : fields'.map Prod.fst = names) :
    List.Forall₂ Agrees (fields.map Prod.snd) (fields'.map Prod.snd) := by
  replace agree :
      ∀ name, Option.Rel Agrees (fields.lookup name) (fields'.lookup name) := by
    cases agree with
    | record agree =>
        exact agree
  induction names generalizing fields fields' with
  | nil =>
      rw [List.map_eq_nil_iff] at keys keys'
      subst keys keys'
      exact .nil
  | cons name names inductionHypothesis =>
      obtain ⟨⟨_, value⟩, rest, rfl, rfl, keysRest⟩ := List.map_eq_cons_iff.mp keys
      obtain ⟨⟨key, value'⟩, rest', rfl, same, keysRest'⟩ := List.map_eq_cons_iff.mp keys'
      obtain rfl : key = _ := same
      obtain ⟨fresh, distinctRest⟩ := List.nodup_cons.mp distinct
      have here := agree key
      rw [List.lookup_cons_self, List.lookup_cons_self, Option.rel_some_some] at here
      refine .cons here (inductionHypothesis distinctRest keysRest keysRest' fun name => ?_)
      by_cases isKey : name = key
      · subst isKey
        rw [lookup_eq_none keysRest fresh, lookup_eq_none keysRest' fresh]
        exact .none
      · have behind := agree name
        rwa [List.lookup_cons, List.lookup_cons, beq_false_of_ne isKey] at behind

/-- A value that may be missing is told from one that is there, if nothing is written as
what stands for a missing one. -/
theorem IsFaithful.option
    {encode : α → Json}
    (faithful : IsFaithful encode)
    (visible : ∀ value, encode value ≠ .null) :
    IsFaithful fun value : Option α => Json.option (value.map encode) := by
  intro first second agree
  cases first with
  | none =>
      cases second with
      | none =>
          rfl
      | some second =>
          exact absurd (agrees_null_left.mp agree) (visible second)
  | some first =>
      cases second with
      | none =>
          exact absurd (agrees_null_right.mp agree) (visible first)
      | some second =>
          exact congrArg some (faithful first second agree)

end ClassicBasic.Json
