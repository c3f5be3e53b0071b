import Mathlib.Algebra.Group.Nat.Defs
import Mathlib.Data.List.Basic

/-!
# Numbers and Blocks in a Byte Buffer

A buffer is a list of bytes. A number stands in it in one of two byte orders, on two
bytes (`ByteOrder.short`) or on four (`ByteOrder.long`), and is read back by
`ByteOrder.ofLong` and `ByteOrder.ofShort`. A block of the buffer is overwritten in
place by `overwrite`, which keeps the length of the buffer.

## Main results

* `ByteOrder.long_injective`: what the bytes of a number tell of it.
* `overwrite_block`: overwriting the middle of `pre ++ old ++ post` by a block of the
  same length gives `pre ++ new ++ post`.
* `set_four`: four assignments of single bytes replace a block of four.
-/

namespace Marlin.Bytes

open List

/-- The two byte orders. -/
inductive ByteOrder
  | little
  | big
  deriving DecidableEq

/-- Byte `i` of the number `v`, counted from the least significant one. -/
def byte (v i : ℕ) : UInt8 := UInt8.ofNat (v >>> (8 * i))

theorem byte_toNat (v i : ℕ) : (byte v i).toNat = v / 2 ^ (8 * i) % 256 := by
  simp [byte, Nat.shiftRight_eq_div_pow]

namespace ByteOrder

/-- The four bytes of the low 32 bits of `v`. -/
def long : ByteOrder → ℕ → List UInt8
  | big, v => [byte v 3, byte v 2, byte v 1, byte v 0]
  | little, v => [byte v 0, byte v 1, byte v 2, byte v 3]

/-- The two bytes of the low 16 bits of `v`. -/
def short : ByteOrder → ℕ → List UInt8
  | big, v => [byte v 1, byte v 0]
  | little, v => [byte v 0, byte v 1]

/-- The number that four bytes stand for. -/
def ofLong : ByteOrder → UInt8 → UInt8 → UInt8 → UInt8 → ℕ
  | big, a, b, c, d => a.toNat * 2 ^ 24 + b.toNat * 2 ^ 16 + c.toNat * 2 ^ 8 + d.toNat
  | little, a, b, c, d => d.toNat * 2 ^ 24 + c.toNat * 2 ^ 16 + b.toNat * 2 ^ 8 + a.toNat

/-- The number that two bytes stand for. -/
def ofShort : ByteOrder → UInt8 → UInt8 → ℕ
  | big, a, b => a.toNat * 2 ^ 8 + b.toNat
  | little, a, b => b.toNat * 2 ^ 8 + a.toNat

@[simp] theorem length_long (o : ByteOrder) (v : ℕ) : (o.long v).length = 4 := by
  cases o <;> rfl

@[simp] theorem length_short (o : ByteOrder) (v : ℕ) : (o.short v).length = 2 := by
  cases o <;> rfl

theorem long_eq (o : ByteOrder) (v : ℕ) : ∃ a b c d, o.long v = [a, b, c, d] ∧ o.ofLong a b c d = v % 2 ^ 32 := by
  cases o with
  | big =>
    refine ⟨_, _, _, _, rfl, ?_⟩
    simp only [ofLong, byte_toNat]
    omega
  | little =>
    refine ⟨_, _, _, _, rfl, ?_⟩
    simp only [ofLong, byte_toNat]
    omega

theorem short_eq (o : ByteOrder) (v : ℕ) : ∃ a b, o.short v = [a, b] ∧ o.ofShort a b = v % 2 ^ 16 := by
  cases o with
  | big =>
    refine ⟨_, _, rfl, ?_⟩
    simp only [ofShort, byte_toNat]
    omega
  | little =>
    refine ⟨_, _, rfl, ?_⟩
    simp only [ofShort, byte_toNat]
    omega

/-- Two numbers with the same long agree on their low 32 bits. -/
theorem long_injective {o : ByteOrder} {v w : ℕ} (h : o.long v = o.long w) : v % 2 ^ 32 = w % 2 ^ 32 := by
  obtain ⟨a, b, c, d, hv, hv'⟩ := o.long_eq v
  obtain ⟨a', b', c', d', hw, hw'⟩ := o.long_eq w
  rw [hv, hw] at h
  simp only [cons.injEq, and_true] at h
  obtain ⟨rfl, rfl, rfl, rfl⟩ := h
  exact hv'.symm.trans hw'

end ByteOrder

/-! ### Reading and overwriting a block -/

theorem getD_block {pre block post : List UInt8} {n i : ℕ} (hn : n = pre.length)
    (hi : i < block.length) : (pre ++ (block ++ post)).getD (n + i) 0 = block.getD i 0 := by
  subst hn
  rw [getD_eq_getElem?_getD, getElem?_append_right (by omega),
    Nat.add_sub_cancel_left, getElem?_append_left hi, getD_eq_getElem?_getD]

/-- The buffer with the bytes from `start` on replaced by `new`. -/
def overwrite (b : List UInt8) (start : ℕ) (new : List UInt8) : List UInt8 :=
  b.take start ++ (new ++ b.drop (start + new.length))

/-- Overwriting a block of a buffer by one of the same length. -/
theorem overwrite_block {pre old post new : List UInt8} {n : ℕ} (hn : n = pre.length) (hlen : new.length = old.length) :
    overwrite (pre ++ (old ++ post)) n new = pre ++ (new ++ post) := by
  subst hn
  rw [overwrite, take_left, hlen, ← drop_drop, drop_left, drop_left]

/-- Four assignments of single bytes of a block of four. -/
theorem set_four {pre post : List UInt8} {n : ℕ} (hn : n = pre.length) (a b c d a' b' c' d' : UInt8) :
    ((((pre ++ ([a, b, c, d] ++ post)).set n a').set (n + 1) b').set (n + 2) c').set (n + 3) d'
      = pre ++ ([a', b', c', d'] ++ post) := by
  subst hn
  simp

end Marlin.Bytes
