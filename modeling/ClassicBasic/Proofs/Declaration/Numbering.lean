import ClassicBasic.Declaration.Block
import Mathlib.Data.List.Basic

namespace ClassicBasic

/-!
# The values of enumeration members

A member whose value is written as a literal has that value.  Every other member
counts on from the one in front of it, whether that value was written or counted,
and the largest value is followed by the smallest.
-/

/-- Values of members: those that are written as literals, and values counted on
from them, from a given one where no member stands in front. -/
structure IsNumbering
    (start : Int64)
    (members : List EnumMember)
    (values : List Int64) :
    Prop where
  length : values.length = members.length
  literal :
    ∀ {index : Nat} {member : EnumMember} {value : Int64},
      members[index]? = some member →
        member.literal? = some value → values[index]? = some value
  first :
    ∀ {member : EnumMember},
      members[0]? = some member →
        member.literal? = none → values[0]? = some start
  next :
    ∀ {index : Nat} {member : EnumMember},
      members[index + 1]? = some member →
        member.literal? = none →
          ∃ previous value,
            values[index]? = some previous ∧
              values[index + 1]? = some value ∧
                value.toInt =
                  if previous.toInt = 0x7FFFFFFFFFFFFFFF then -0x8000000000000000
                  else previous.toInt + 1

namespace IsNumbering

/-- Counting on wraps around from the largest value to the smallest. -/
theorem toInt_add_one
    (value : Int64) :
    (value + 1).toInt =
      if value.toInt = 0x7FFFFFFFFFFFFFFF then -0x8000000000000000
      else value.toInt + 1 := by
  have least := value.le_toInt
  have most := value.toInt_lt
  rw [Int64.toInt_add]
  split
  · next isLargest =>
      rw [isLargest]
      decide
  · next smaller =>
      refine Int.bmod_eq_of_le ?_ ?_ <;>
        simp <;>
        omega

/-- Without members there is nothing to number. -/
theorem nil (start : Int64) : IsNumbering start [] [] where
  length := rfl
  literal := by simp
  first := by simp
  next := by simp

/-- A member is numbered, and the members behind it from the value behind its own. -/
theorem cons
    {start : Int64}
    {member : EnumMember}
    {rest : List EnumMember}
    {values : List Int64}
    (numbers : IsNumbering (member.literal?.getD start + 1) rest values) :
    IsNumbering start (member :: rest) (member.literal?.getD start :: values) where
  length := congrArg (· + 1) numbers.length
  literal := by
    intro index other value isOther isLiteral
    cases index with
    | zero =>
        obtain rfl : member = other := by simpa using isOther
        simp [isLiteral]
    | succ index =>
        exact numbers.literal isOther isLiteral
  first := by
    intro other isOther noLiteral
    obtain rfl : member = other := by simpa using isOther
    simp [noLiteral]
  next := by
    intro index other isOther noLiteral
    cases index with
    | zero =>
        exact
          ⟨_, _, rfl, numbers.first isOther noLiteral, toInt_add_one _⟩
    | succ index =>
        exact numbers.next isOther noLiteral

end IsNumbering

/-- The members that lines of an enumeration declare, each with the number of its line.
Empty lines, comments and lines that are no members declare none. -/
def OpenBlock.declaredMembers (lines : List Line) : List (EnumMember × Nat) :=
  (lines.filter fun line => !isSilent line.code).filterMap enumMember?

/-- Members are numbered in their order, each with the line that it stands on. -/
theorem OpenBlock.exists_numberMembers
    (start : Int64)
    (members : List (EnumMember × Nat)) :
    ∃ values,
      IsNumbering start (members.map Prod.fst) values ∧
        numberMembers start members =
          List.zipWith (fun member value => member.1.node value member.2)
            members values := by
  induction members generalizing start with
  | nil =>
      exact ⟨[], .nil start, rfl⟩
  | cons first rest inductionHypothesis =>
      obtain ⟨values, numbers, nodes⟩ :=
        inductionHypothesis (first.1.literal?.getD start + 1)
      refine ⟨first.1.literal?.getD start :: values, numbers.cons, ?_⟩
      rw [numberMembers, nodes]
      rfl

end ClassicBasic
