import Mathlib.Data.Nat.Bitwise

/-!
# Padding to a Power of Two

`size + (padding - 1)` with the bits of `padding - 1` cleared: for a power of two, the least multiple of it that is
not less than `size`.

## Main results

* `padToSize_eq`: the padded size by division.
* `le_padToSize`, `dvd_padToSize`: it is an upper bound and a multiple.
-/

namespace Marlin

/-- `PAD_TO_SIZE`. -/
def padToSize (size padding : ℕ) : ℕ := Nat.ldiff (size + (padding - 1)) (padding - 1)

theorem ldiff_two_pow_sub_one (n k : ℕ) : Nat.ldiff n (2 ^ k - 1) = n / 2 ^ k * 2 ^ k := by
  apply Nat.eq_of_testBit_eq
  intro i
  rw [Nat.testBit_ldiff, Nat.testBit_two_pow_sub_one, Nat.testBit_mul_two_pow]
  by_cases hi : i < k
  · rw [decide_eq_true hi, decide_eq_false (Nat.not_le.mpr hi), Bool.not_true, Bool.and_false, Bool.false_and]
  · have hik := Nat.le_of_not_lt hi
    rw [decide_eq_false hi, decide_eq_true hik, Nat.testBit_div_two_pow, Nat.sub_add_cancel hik]
    exact Bool.and_true _

theorem padToSize_eq {padding : ℕ} (h : padding.isPowerOfTwo) (size : ℕ) :
    padToSize size padding = (size + (padding - 1)) / padding * padding := by
  obtain ⟨k, rfl⟩ := h
  exact ldiff_two_pow_sub_one ..

theorem isPowerOfTwo_pos {padding : ℕ} (h : padding.isPowerOfTwo) : 0 < padding := by
  obtain ⟨k, rfl⟩ := h
  exact Nat.two_pow_pos k

theorem dvd_padToSize {padding : ℕ} (h : padding.isPowerOfTwo) (size : ℕ) : padding ∣ padToSize size padding :=
  padToSize_eq h size ▸ Nat.dvd_mul_left ..

theorem le_padToSize {padding : ℕ} (h : padding.isPowerOfTwo) (size : ℕ) : size ≤ padToSize size padding := by
  have hpos := isPowerOfTwo_pos h
  have hdiv := Nat.div_add_mod (size + (padding - 1)) padding
  have hmod := Nat.mod_lt (size + (padding - 1)) hpos
  rw [Nat.mul_comm] at hdiv
  rw [padToSize_eq h]
  omega

theorem padToSize_of_dvd {padding : ℕ} (h : padding.isPowerOfTwo) {size : ℕ} (hdvd : padding ∣ size) :
    padToSize size padding = size := by
  obtain ⟨k, rfl⟩ := hdvd
  have hpos := isPowerOfTwo_pos h
  rw [padToSize_eq h, Nat.mul_add_div hpos, Nat.div_eq_of_lt (Nat.sub_lt hpos Nat.one_pos), Nat.add_zero, Nat.mul_comm]

end Marlin
