import Mathlib.Data.List.Range

/-!
# Tilings of the Naturals by Intervals

A list of intervals, each a pair of its first and its last number, tiles the numbers from `a` up
to `b` when each interval starts where the one before ended.

## Main results

* `Tiles.snoc`: an interval that starts at the end extends the tiling.
* `Tiles.numbers_eq`: the numbers of the intervals, one interval after the other, are those from
  `a` up to `b`.
* `Tiles.ordered`: the intervals are disjoint and in order.
-/

namespace Tiling

open List

/-- The intervals tile the numbers from `a` up to and without `b`. -/
inductive Tiles : ℕ → List (ℕ × ℕ) → ℕ → Prop
  | nil (a : ℕ) : Tiles a [] a
  | cons {a last b : ℕ} {l : List (ℕ × ℕ)} (hle : a ≤ last) (h : Tiles (last + 1) l b) :
      Tiles a ((a, last) :: l) b

/-- The numbers of the intervals. -/
def numbers (l : List (ℕ × ℕ)) : List ℕ := l.flatMap fun i => List.range' i.1 (i.2 + 1 - i.1)

@[simp] theorem numbers_snoc (l : List (ℕ × ℕ)) (i : ℕ × ℕ) :
    numbers (l ++ [i]) = numbers l ++ List.range' i.1 (i.2 + 1 - i.1) := by
  simp [numbers]

variable {a b : ℕ} {l : List (ℕ × ℕ)}

/-- The end is not before the start. -/
theorem Tiles.le (h : Tiles a l b) : a ≤ b := by
  induction h with
  | nil a => exact Nat.le_refl a
  | cons hle _ ih => omega

/-- An interval that starts at the end. -/
theorem Tiles.snoc (h : Tiles a l b) {last : ℕ} (hle : b ≤ last) : Tiles a (l ++ [(b, last)]) (last + 1) := by
  induction h with
  | nil a => exact .cons hle (.nil _)
  | cons hle' _ ih => exact .cons hle' (ih hle)

theorem Tiles.mem (h : Tiles a l b) {i : ℕ × ℕ} (hi : i ∈ l) : a ≤ i.1 ∧ i.1 ≤ i.2 ∧ i.2 < b := by
  induction h with
  | nil a => cases hi
  | cons hle htail ih =>
    have hend := htail.le
    rcases mem_cons.mp hi with rfl | hi
    · exact ⟨Nat.le_refl _, hle, by omega⟩
    · obtain ⟨h₁, h₂, h₃⟩ := ih hi
      exact ⟨by omega, h₂, h₃⟩

/-- **The numbers of a tiling** are all from its start up to its end, each once and in order. -/
theorem Tiles.numbers_eq (h : Tiles a l b) : numbers l = List.range' a (b - a) := by
  induction h with
  | nil a => simp [numbers]
  | @cons a last b l hle htail ih =>
    have hend := htail.le
    have hsplit : b - a = (last + 1 - a) + (b - (last + 1)) := by omega
    have hnext : last + 1 = a + 1 * (last + 1 - a) := by omega
    rw [hsplit, ← range'_append, ← hnext, ← ih]
    rfl

/-- **The intervals of a tiling are disjoint and in order.** -/
theorem Tiles.ordered (h : Tiles a l b) : l.Pairwise fun i j => i.2 < j.1 := by
  induction h with
  | nil a => exact List.Pairwise.nil
  | cons hle htail ih => exact pairwise_cons.mpr ⟨fun j hj => (htail.mem hj).1, ih⟩

theorem Tiles.last_ne (h : Tiles a l b) : l.Pairwise fun i j => i.2 ≠ j.2 := by
  have hlt : l.Pairwise fun i j => i.2 < j.1 ∧ j.1 ≤ j.2 :=
    h.ordered.imp_of_mem fun _ hj hij => ⟨hij, (h.mem hj).2.1⟩
  exact hlt.imp fun hij => by omega

end Tiling
