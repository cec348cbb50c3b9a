import Mathlib.Logic.Basic

/-!
# Integer types of C++

An integer type is a range. Signed arithmetic that leaves the range has no result, and a conversion to a type
is modulo the number of its values.
-/

namespace WfcCore.Foundation

structure IntType where
  least : Int
  greatest : Int
  ordered : least ≤ greatest

namespace IntType

def int : IntType := ⟨-2147483648, 2147483647, by decide⟩

def unsignedInt : IntType := ⟨0, 4294967295, by decide⟩

def longInt : IntType := ⟨-9223372036854775808, 9223372036854775807, by decide⟩

variable (τ : IntType)

def Holds (n : Int) : Prop := τ.least ≤ n ∧ n ≤ τ.greatest

instance (n : Int) : Decidable (τ.Holds n) := inferInstanceAs (Decidable (_ ∧ _))

theorem int_holds {n : Int} : int.Holds n ↔ -2147483648 ≤ n ∧ n ≤ 2147483647 := Iff.rfl

theorem unsignedInt_holds {n : Int} : unsignedInt.Holds n ↔ 0 ≤ n ∧ n ≤ 4294967295 := Iff.rfl

theorem longInt_holds {n : Int} : longInt.Holds n ↔ -9223372036854775808 ≤ n ∧ n ≤ 9223372036854775807 := Iff.rfl

theorem long_of_int {n : Int} (holds : int.Holds n) : longInt.Holds n := by
  obtain ⟨low, high⟩ := int_holds.mp holds
  exact longInt_holds.mpr ⟨by omega, by omega⟩

abbrev Value := { n : Int // τ.Holds n }

/-- The result of an operation that is undefined outside the range. -/
def checked (n : Int) : Option τ.Value := if holds : τ.Holds n then some ⟨n, holds⟩ else none

theorem holds_wrapped (n : Int) : τ.Holds (τ.least + (n - τ.least) % (τ.greatest - τ.least + 1)) := by
  have := τ.ordered
  have := Int.emod_nonneg (n - τ.least) (b := τ.greatest - τ.least + 1) (by omega)
  have := Int.emod_lt_of_pos (n - τ.least) (b := τ.greatest - τ.least + 1) (by omega)
  constructor <;> omega

/-- `static_cast` to the type. -/
def convert (n : Int) : τ.Value := ⟨τ.least + (n - τ.least) % (τ.greatest - τ.least + 1), τ.holds_wrapped n⟩

/-- What a program gives where the result of an operation is outside the type. The language leaves it open, and
most machines convert. -/
abbrev Overflow := Int → τ.Value

def compute (overflow : τ.Overflow) (n : Int) : τ.Value := (τ.checked n).getD (overflow n)

variable {τ}

theorem checked_eq_some {n : Int} {v : τ.Value} : τ.checked n = some v ↔ v.val = n := by
  unfold checked
  split
  · rw [Option.some.injEq, Subtype.ext_iff, eq_comm]
  · rename_i outside
    constructor
    · intro impossible
      contradiction
    · rintro rfl
      exact absurd v.property outside

theorem convert_of_holds {n : Int} (holds : τ.Holds n) : (τ.convert n).val = n := by
  have fits : (n - τ.least) % (τ.greatest - τ.least + 1) = n - τ.least := by
    apply Int.emod_eq_of_lt
    · exact Int.sub_nonneg_of_le holds.1
    · have := holds.2
      omega
  show τ.least + (n - τ.least) % (τ.greatest - τ.least + 1) = n
  rw [fits]
  omega

theorem compute_of_holds {overflow : τ.Overflow} {n : Int} (holds : τ.Holds n) : (τ.compute overflow n).val = n := by
  rw [compute, checked, dif_pos holds, Option.getD_some]

theorem compute_of_not {overflow : τ.Overflow} {n : Int} (outside : ¬ τ.Holds n) :
    τ.compute overflow n = overflow n := by
  rw [compute, checked, dif_neg outside, Option.getD_none]

end IntType

end WfcCore.Foundation
