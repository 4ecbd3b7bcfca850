import ClassicBasic.Keyword
import ClassicBasic.Proofs.Phrase.Written
import Mathlib.Data.List.Nodup

namespace ClassicBasic

/-!
# Keywords are read back

Every keyword is a word, and no two of one place are spelled alike, so a keyword that
is written is read as itself.
-/

/-- Words that are spelled for the values of an enumeration tell these apart if no two
of them are alike. -/
theorem injective_of_nodup
    {spell : α → Text}
    (all : List α)
    (complete : ∀ value, value ∈ all)
    (distinct : (all.map spell).Nodup) :
    Function.Injective spell :=
  fun first second same =>
    List.inj_on_of_nodup_map distinct (complete first) (complete second) same

namespace AccessModifier

/-- An access modifier is recognised by its keyword. -/
theorem ofKeyword?_keyword
    (modifier : AccessModifier) :
    ofKeyword? modifier.keyword = some modifier := by
  cases modifier <;>
    decide

/-- The keyword of an access modifier is a word. -/
theorem isWord_keyword
    (modifier : AccessModifier) :
    Phrase.IsWord modifier.keyword := by
  cases modifier <;>
    decide

/-- Access modifiers have different keywords. -/
theorem keyword_injective : Function.Injective keyword :=
  injective_of_nodup all (by rintro ⟨⟩ <;> decide) (by decide)

end AccessModifier

namespace DeclarationKeyword

/-- The keyword of a declaration is a word. -/
theorem isWord_keyword
    (keyword : DeclarationKeyword) :
    Phrase.IsWord keyword.keyword := by
  cases keyword <;>
    decide

/-- Kinds of declarations have different keywords. -/
theorem keyword_injective : Function.Injective keyword :=
  injective_of_nodup (.field :: written) (by rintro ⟨⟩ <;> decide) (by decide)

end DeclarationKeyword

namespace Accessor

/-- An accessor is recognised by its keyword. -/
theorem ofKeyword?_keyword
    (accessor : Accessor) :
    ofKeyword? accessor.keyword = some accessor := by
  cases accessor <;>
    decide

/-- The keyword of an accessor is a word. -/
theorem isWord_keyword
    (accessor : Accessor) :
    Phrase.IsWord accessor.keyword := by
  cases accessor <;>
    decide

/-- Accessors have different keywords. -/
theorem keyword_injective : Function.Injective keyword :=
  injective_of_nodup all (by rintro ⟨⟩ <;> decide) (by decide)

end Accessor

namespace MethodKind

/-- A kind of method is recognised by its keyword. -/
theorem ofKeyword?_keyword
    (kind : MethodKind) :
    ofKeyword? kind.keyword = some kind := by
  cases kind <;>
    decide

/-- The keyword of a kind of method is a word. -/
theorem isWord_keyword
    (kind : MethodKind) :
    Phrase.IsWord kind.keyword := by
  cases kind <;>
    decide

/-- Kinds of methods have different keywords. -/
theorem keyword_injective : Function.Injective keyword :=
  injective_of_nodup all (by rintro ⟨⟩ <;> decide) (by decide)

end MethodKind

end ClassicBasic
