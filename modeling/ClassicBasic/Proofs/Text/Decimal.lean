import ClassicBasic.Proofs.Phrase

namespace ClassicBasic.Text

/-!
# Numbers in decimal

A natural number is written with its decimal digits, and an integer with the
digits of its magnitude behind its sign.
-/

/-- A natural number is written with its decimal digits. -/
theorem toList_toString_nat
    (value : Nat) :
    (toString value).toList = Nat.toDigits 10 value := by
  rw [Nat.toString_eq_repr, Nat.toList_repr]

/-- An integer is written with its sign, if it is negative, and its decimal
digits. -/
theorem toList_toString_int
    (value : Int) :
    (toString value).toList =
      (if value < 0 then ['-'] else []) ++ Nat.toDigits 10 value.natAbs := by
  cases value with
  | ofNat magnitude =>
      change magnitude.repr.toList = _
      simp [Nat.toList_repr]
  | negSucc lessOne =>
      change ("-" ++ lessOne.succ.repr).toList = _
      rw [if_pos (Int.negSucc_lt_zero lessOne), String.toList_append, Nat.toList_repr]
      rfl

/-- Decimal digits are digits. -/
theorem isDigit_of_mem_toDigits
    {value : Nat}
    {c : Char}
    (member : c ∈ Nat.toDigits 10 value) :
    c.isDigit = true :=
  Nat.isDigit_of_mem_toDigits (by decide) (by decide) member

/-- A number in decimal opens with a digit or a minus sign. -/
theorem exists_cons_toString_int
    (value : Int) :
    ∃ c rest, (toString value).toList = c :: rest ∧ isBlank c = false := by
  rw [toList_toString_int]
  by_cases negative : value < 0
  · exact ⟨'-', Nat.toDigits 10 value.natAbs, by simp [negative], by decide⟩
  · rw [if_neg negative, List.nil_append]
    obtain ⟨c, rest, digits⟩ :=
      List.exists_cons_of_ne_nil (Nat.toDigits_ne_nil (n := value.natAbs) (b := 10))
    have isFirst : c ∈ Nat.toDigits 10 value.natAbs := by
      rw [digits]
      exact List.mem_cons_self
    have isDigit := isDigit_of_mem_toDigits isFirst
    exact
      ⟨c, rest, digits,
        Phrase.isBlank_of_isNameChar
          (by simp [Phrase.isNameChar, Char.isAlphanum, isDigit])⟩

end ClassicBasic.Text
