import Mathlib.Data.Int.Order.Basic
import Mathlib.Algebra.Ring.Int.Defs

/-! # Sums of machine integers

A sum or a difference of machine integers of 64 bits is exact if it stays in their range.  A
sum of two integers that are not negative shows in its sign whether it left the range. -/

namespace Word

variable {a b c : Int64}

theorem toInt_add (h : -2 ^ 63 ≤ a.toInt + b.toInt) (h' : a.toInt + b.toInt < 2 ^ 63) :
    (a + b).toInt = a.toInt + b.toInt := by
  rw [Int64.toInt_add]
  apply Int.bmod_eq_of_le <;> omega

theorem toInt_sub (h : -2 ^ 63 ≤ a.toInt - b.toInt) (h' : a.toInt - b.toInt < 2 ^ 63) :
    (a - b).toInt = a.toInt - b.toInt := by
  rw [Int64.toInt_sub]
  apply Int.bmod_eq_of_le <;> omega

theorem toInt_neg (h : 0 ≤ a.toInt) : (-a).toInt = -a.toInt := by
  have := Int64.toInt_lt a
  rw [Int64.toInt_neg]
  apply Int.bmod_eq_of_le <;> omega

theorem nonneg_iff : ¬ a < 0 ↔ 0 ≤ a.toInt := by
  rw [Int64.lt_iff_toInt_lt, Int64.toInt_zero, Int.not_lt]

theorem le_iff : ¬ b < a ↔ a.toInt ≤ b.toInt := by
  rw [Int64.lt_iff_toInt_lt, Int.not_lt]

theorem toInt_add_of_nonneg (ha : 0 ≤ a.toInt) (hb : 0 ≤ b.toInt) (h : ¬ a + b < 0) :
    (a + b).toInt = a.toInt + b.toInt := by
  rw [nonneg_iff, Int64.toInt_add] at h
  have := Int64.toInt_lt a
  have := Int64.toInt_lt b
  rw [Int64.toInt_add]
  rw [Int.bmod_def] at h ⊢
  omega

theorem le_maxValue_sub (hb : 0 ≤ b.toInt) :
    ¬ a > Int64.maxValue - b ↔ a.toInt + b.toInt < 2 ^ 63 := by
  have := Int64.toInt_lt b
  have hmax : Int64.maxValue.toInt = 2 ^ 63 - 1 := rfl
  have hsub : (Int64.maxValue - b).toInt = 2 ^ 63 - 1 - b.toInt := by
    rw [toInt_sub] <;> omega
  rw [gt_iff_lt, le_iff, hsub]
  omega

end Word
