import Mathlib.Algebra.Order.Ring.Int

/-!
# Signed overflow

`Int32` arithmetic wraps. An operation of C on `int` is defined only when its exact result
is an `int`; then it is the exact result.
-/

namespace CInt

/-- An `int` of 32 bits can hold the number. -/
def IsInt (x : Int) : Prop := -2 ^ 31 ≤ x ∧ x < 2 ^ 31

instance (x : Int) : Decidable (IsInt x) := inferInstanceAs (Decidable (_ ∧ _))

/-- `a + b` does not overflow. -/
def AddFits (a b : Int32) : Prop := IsInt (a.toInt + b.toInt)

/-- `a - b` does not overflow. -/
def SubFits (a b : Int32) : Prop := IsInt (a.toInt - b.toInt)

/-- `a * b` does not overflow. -/
def MulFits (a b : Int32) : Prop := IsInt (a.toInt * b.toInt)

instance (a b : Int32) : Decidable (AddFits a b) := inferInstanceAs (Decidable (IsInt _))
instance (a b : Int32) : Decidable (SubFits a b) := inferInstanceAs (Decidable (IsInt _))
instance (a b : Int32) : Decidable (MulFits a b) := inferInstanceAs (Decidable (IsInt _))

theorem isInt_toInt (a : Int32) : IsInt a.toInt := ⟨a.le_toInt, a.toInt_lt⟩

theorem AddFits.toInt {a b : Int32} (h : AddFits a b) : (a + b).toInt = a.toInt + b.toInt := by
  rw [Int32.toInt_add]
  exact Int.bmod_eq_of_le h.1 h.2

theorem SubFits.toInt {a b : Int32} (h : SubFits a b) : (a - b).toInt = a.toInt - b.toInt := by
  rw [Int32.toInt_sub]
  exact Int.bmod_eq_of_le h.1 h.2

theorem MulFits.toInt {a b : Int32} (h : MulFits a b) : (a * b).toInt = a.toInt * b.toInt := by
  rw [Int32.toInt_mul]
  exact Int.bmod_eq_of_le h.1 h.2

end CInt
