import Mathlib.Data.Nat.Digits.Lemmas

/-!
# Decimal Numbers in Text

Text is bytes. `text z` is what `%d` prints, and `strtol w` reads a number of `w` bits at the front of a text, with what
is behind it.

## Main results

* `strtol_text`: a number that is printed is read back, whatever is behind it that is no digit.
* `length_text_le`: the length of a number in its range.
-/

namespace Decimal

open List

/-- `isdigit`. -/
def isDigit (c : UInt8) : Bool := 48 ≤ c && c ≤ 57

/-- `isspace`. -/
def isSpace (c : UInt8) : Bool := c == 32 || 9 ≤ c && c ≤ 13

/-- If there is a minus, and the text behind the sign. -/
def sign : List UInt8 → Bool × List UInt8
  | 45 :: text => (true, text)
  | 43 :: text => (false, text)
  | text => (false, text)

/-- The number with the given digits. -/
def value (digits : List UInt8) : ℕ := digits.foldl (fun v c => 10 * v + (c.toNat - 48)) 0

/-- The number of `w` bits that is nearest. -/
def clamp (w : ℕ) (z : ℤ) : ℤ := max (-2 ^ (w - 1)) (min z (2 ^ (w - 1) - 1))

/-- `strtol` to the base 10, for a `long` of `w` bits: the number and the text behind it; without a digit, 0 and the
whole text. -/
def strtol (w : ℕ) (text : List UInt8) : ℤ × List UInt8 :=
  let body := sign (text.dropWhile isSpace)
  let digits := body.2.takeWhile isDigit
  if digits = [] then (0, text)
  else (clamp w (if body.1 then -value digits else value digits), body.2.dropWhile isDigit)

/-- The digits of a number. -/
def natText (n : ℕ) : List UInt8 :=
  if n = 0 then [48] else ((Nat.digits 10 n).map fun d => UInt8.ofNat (48 + d)).reverse

/-- `%d`. -/
def text (z : ℤ) : List UInt8 := if z < 0 then 45 :: natText z.natAbs else natText z.natAbs

variable {n k w : ℕ} {z : ℤ} {c : UInt8} {rest : List UInt8}

theorem toNat_ofDigit {d : ℕ} (h : d < 10) : (UInt8.ofNat (48 + d)).toNat = 48 + d := by
  rw [UInt8.toNat_ofNat']
  omega

theorem isSpace_of_isDigit (h : isDigit c = true) : isSpace c = false := by
  simp only [isDigit, Bool.and_eq_true, decide_eq_true_iff, UInt8.le_iff_toNat_le] at h
  rw [Bool.eq_false_iff]
  intro hspace
  simp only [isSpace, Bool.or_eq_true, beq_iff_eq, Bool.and_eq_true, decide_eq_true_iff,
    UInt8.le_iff_toNat_le] at hspace
  obtain ⟨hlow, -⟩ := h
  change 48 ≤ c.toNat at hlow
  rcases hspace with rfl | ⟨-, hhigh⟩
  · exact absurd hlow (by decide)
  · change c.toNat ≤ 13 at hhigh
    omega

theorem isDigit_natText (h : c ∈ natText n) : isDigit c = true := by
  rw [isDigit, Bool.and_eq_true, decide_eq_true_iff, decide_eq_true_iff, UInt8.le_iff_toNat_le, UInt8.le_iff_toNat_le]
  rw [natText] at h
  split at h
  · obtain rfl := mem_singleton.mp h
    exact ⟨Nat.le_refl _, by decide⟩
  · obtain ⟨d, hd, rfl⟩ := mem_map.mp (mem_reverse.mp h)
    have hlt := Nat.digits_lt_base (by decide : 1 < 10) hd
    rw [toNat_ofDigit hlt]
    change 48 ≤ 48 + d ∧ 48 + d ≤ 57
    omega

theorem natText_ne_nil (n : ℕ) : natText n ≠ [] := by
  rw [natText]
  split
  · exact cons_ne_nil _ _
  · rename_i hn
    simpa [Nat.digits_eq_nil_iff_eq_zero] using hn

theorem value_natText (n : ℕ) : value (natText n) = n := by
  rw [natText]
  split
  · rename_i hn
    rw [hn]
    rfl
  · rw [value, foldl_reverse, foldr_map]
    conv_rhs => rw [← Nat.ofDigits_digits 10 n, Nat.ofDigits_eq_foldr]
    have hdigits : ∀ d ∈ Nat.digits 10 n, d < 10 := fun d hd => Nat.digits_lt_base (by decide) hd
    generalize Nat.digits 10 n = l at hdigits
    induction l with
    | nil => rfl
    | cons d l ih =>
      rw [foldr_cons, foldr_cons, ih fun d hd => hdigits d (mem_cons_of_mem _ hd),
        toNat_ofDigit (hdigits d mem_cons_self), Nat.add_sub_cancel_left, Nat.add_comm, Nat.cast_id]

theorem length_natText_le (hk : k ≠ 0) (h : n < 10 ^ k) : (natText n).length ≤ k := by
  rw [natText]
  split
  · exact Nat.one_le_iff_ne_zero.mpr hk
  · rw [length_reverse, length_map]
    exact (Nat.digits_length_le_iff (by decide) n).mpr h

/-- **The length of a number.** -/
theorem length_text_le (hk : k ≠ 0) (h : z.natAbs < 10 ^ k) : (text z).length ≤ k + 1 := by
  have hnat := length_natText_le hk h
  rw [text]
  split
  · exact Nat.succ_le_succ hnat
  · omega

theorem clamp_of_mem (hlow : -2 ^ (w - 1) ≤ z) (hhigh : z < 2 ^ (w - 1)) : clamp w z = z := by
  rw [clamp, min_eq_left (by omega), max_eq_right hlow]

/-- Digits are no blank and no sign. -/
theorem sign_natText (n : ℕ) (rest : List UInt8) :
    sign ((natText n ++ rest).dropWhile isSpace) = (false, natText n ++ rest) := by
  cases hn : natText n with
  | nil => exact absurd hn (natText_ne_nil n)
  | cons c l =>
    have hc : isDigit c = true := isDigit_natText (hn ▸ mem_cons_self)
    rw [cons_append, dropWhile_cons_of_neg (by simp [isSpace_of_isDigit hc])]
    rw [sign.eq_def]
    split
    · rename_i heq
      cases heq
      cases hc
    · rename_i heq
      cases heq
      cases hc
    · rfl

/-- **A number that is printed is read back,** also behind blanks. -/
theorem strtol_text (j : ℕ) (hlow : -2 ^ (w - 1) ≤ z) (hhigh : z < 2 ^ (w - 1))
    (hrest : ∀ c ∈ rest.head?, isDigit c = false) : strtol w (replicate j 32 ++ (text z ++ rest)) = (z, rest) := by
  have htake : (natText z.natAbs ++ rest).takeWhile isDigit = natText z.natAbs := by
    rw [takeWhile_append_of_pos fun c => isDigit_natText]
    cases rest with
    | nil => rw [takeWhile_nil, append_nil]
    | cons c rest => rw [takeWhile_cons_of_neg (by simp [hrest c rfl]), append_nil]
  have hdrop : (natText z.natAbs ++ rest).dropWhile isDigit = rest := by
    rw [dropWhile_append_of_pos fun c => isDigit_natText]
    cases rest with
    | nil => rfl
    | cons c rest => rw [dropWhile_cons_of_neg (by simp [hrest c rfl])]
  have hblank : (replicate j (32 : UInt8) ++ (text z ++ rest)).dropWhile isSpace = (text z ++ rest).dropWhile isSpace :=
    dropWhile_append_of_pos fun c hc => by rw [eq_of_mem_replicate hc]; rfl
  rw [strtol, hblank, text]
  split
  · rename_i hz
    have hsign : sign (((45 :: natText z.natAbs) ++ rest).dropWhile isSpace) = (true, natText z.natAbs ++ rest) := rfl
    rw [hsign]
    dsimp only
    rw [htake, hdrop, if_neg (natText_ne_nil _), if_pos rfl, value_natText, clamp_of_mem (by omega) (by omega)]
    exact Prod.ext (by omega) rfl
  · rename_i hz
    rw [sign_natText]
    dsimp only
    rw [htake, hdrop, if_neg (natText_ne_nil _), if_neg Bool.false_ne_true, value_natText,
      clamp_of_mem (by omega) (by omega)]
    exact Prod.ext (by omega) rfl

end Decimal
