import Mathlib.Tactic

/-!
# Differences of `int32` values

`a - b` wraps around, so its sign is the sign of the true difference only while that difference
fits in 32 bits.
-/

namespace Signatory.Lib.Int32

/-- The sign of a wrapping difference: positive when the true difference is positive and fits, or
when it is so far below zero that it wraps around to a positive number. -/
theorem sub_pos_iff (a b : Int32) :
    0 < a - b ↔ (b.toInt < a.toInt ∧ a.toInt < b.toInt + 2 ^ 31) ∨ a.toInt < b.toInt - 2 ^ 31 := by
  have ha := a.toInt_lt
  have ha' := a.le_toInt
  have hb := b.toInt_lt
  have hb' := b.le_toInt
  rw [Int32.lt_iff_toInt_lt, Int32.toInt_sub, Int32.toInt_zero, Int.bmod_def]
  split <;> omega

theorem sub_eq_zero_iff (a b : Int32) : a - b = 0 ↔ a = b := by
  constructor
  · intro h
    have := congrArg (· + b) h
    simpa using this
  · rintro rfl
    simp

end Signatory.Lib.Int32
