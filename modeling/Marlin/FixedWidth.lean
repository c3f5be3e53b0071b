import Mathlib.Algebra.Group.Int.Defs
import Mathlib.Algebra.Group.Nat.Defs

/-!
# Integers of 32 Bits

The signed integers of 32 bits as the integers that `toInt32` keeps, and the division of C, which cuts the
fraction off, in inequalities without a quotient.

## Main results

* `toInt32_eq`: where an integer is kept.
* `nonneg_tdiv_iff`, `tdiv_le_iff`: a quotient against a bound.
* `tdiv_mul_le`: how far a quotient is from the fraction.
-/

namespace FixedWidth

/-- The integer can be kept in 32 bits with a sign. -/
def InInt32 (x : ℤ) : Prop := -2 ^ 31 ≤ x ∧ x < 2 ^ 31
deriving Decidable

/-- What of an integer 32 bits with a sign keep. -/
def toInt32 (x : ℤ) : ℤ := x.bmod (2 ^ 32)

theorem toInt32_eq {x : ℤ} (h : InInt32 x) : toInt32 x = x :=
  Int.bmod_eq_of_le_mul_two (by have := h.1; omega) (by have := h.2; omega)

theorem toInt32_of_le {x : ℤ} (hlow : 2 ^ 31 ≤ x) (hhigh : x < 2 ^ 32) : toInt32 x = x - 2 ^ 32 := by
  rw [toInt32, Int.bmod_def]
  omega

section Division

variable {a d n : ℤ}

theorem tdiv_mul_eq (a d : ℤ) : a.tdiv d * d = a - a.tmod d := by
  have h := Int.tdiv_mul_add_tmod a d
  omega

theorem tmod_nonpos (d : ℤ) (ha : a ≤ 0) : a.tmod d ≤ 0 := by
  have h := Int.tmod_nonneg d (Int.neg_nonneg_of_nonpos ha)
  rw [Int.neg_tmod] at h
  omega

/-- A quotient is not negative exactly if the dividend is not a whole divisor below 0. -/
theorem nonneg_tdiv_iff (hd : 0 < d) : 0 ≤ a.tdiv d ↔ -d < a := by
  have heq := tdiv_mul_eq a d
  have hlt := Int.lt_tmod_of_pos a hd
  have hgt := Int.tmod_lt_of_pos a hd
  constructor
  · intro h
    have hmul : 0 ≤ a.tdiv d * d := Int.mul_nonneg h (Int.le_of_lt hd)
    omega
  · intro h
    refine Int.not_lt.mp fun hneg => ?_
    have hmul : a.tdiv d * d ≤ -1 * d := Int.mul_le_mul_of_nonneg_right (by omega) (Int.le_of_lt hd)
    have hneg' : a ≤ 0 := by omega
    have hrest : a.tmod d ≤ 0 := tmod_nonpos d hneg'
    omega

/-- A quotient is at most `n`, which is not negative, exactly if the dividend stays below the next multiple. -/
theorem tdiv_le_iff (hd : 0 < d) (hn : 0 ≤ n) : a.tdiv d ≤ n ↔ a < (n + 1) * d := by
  have heq := tdiv_mul_eq a d
  have hgt := Int.tmod_lt_of_pos a hd
  constructor
  · intro h
    have hmul : a.tdiv d * d ≤ n * d := Int.mul_le_mul_of_nonneg_right h (Int.le_of_lt hd)
    have hsucc : (n + 1) * d = n * d + d := by rw [Int.add_mul, Int.one_mul]
    omega
  · intro h
    refine Int.not_lt.mp fun hhigh => ?_
    have hmul : (n + 1) * d ≤ a.tdiv d * d := Int.mul_le_mul_of_nonneg_right (by omega) (Int.le_of_lt hd)
    have hnd : 0 ≤ n * d := Int.mul_nonneg hn (Int.le_of_lt hd)
    have hsucc : (n + 1) * d = n * d + d := by rw [Int.add_mul, Int.one_mul]
    rcases Int.le_total 0 a with ha | ha
    · have hrest : 0 ≤ a.tmod d := Int.tmod_nonneg d ha
      omega
    · have hlt := Int.lt_tmod_of_pos a hd
      omega

/-- The quotient of an integer that is not negative is at most the fraction, and less than 1 below it. -/
theorem tdiv_mul_le (hd : 0 < d) (ha : 0 ≤ a) : a.tdiv d * d ≤ a ∧ a < a.tdiv d * d + d := by
  have heq := tdiv_mul_eq a d
  have hgt := Int.tmod_lt_of_pos a hd
  have hrest : 0 ≤ a.tmod d := Int.tmod_nonneg d ha
  omega

end Division

end FixedWidth
