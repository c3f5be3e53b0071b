import Mathlib.Data.Finset.Card

/-!
# Tables of Slots

A table with a fixed number of slots, some of which are in use: which ones are when one slot is set.

## Main results

* `used_update`, `used_update_free`: the slots in use after one is taken or freed.
-/

namespace Marlin

open Function

namespace SlotTable

variable {σ : Type} {n i : ℕ} {busy : σ → Prop} [DecidablePred busy] {slots : ℕ → σ} {s : σ}

/-- The slots in use. -/
def used (n : ℕ) (busy : σ → Prop) [DecidablePred busy] (slots : ℕ → σ) : Finset ℕ :=
  (Finset.range n).filter fun i => busy (slots i)

theorem mem_used : i ∈ used n busy slots ↔ i < n ∧ busy (slots i) := by
  rw [used, Finset.mem_filter, Finset.mem_range]

/-- Setting a slot that is then in use. -/
theorem used_update (hi : i < n) (hs : busy s) :
    used n busy (Function.update slots i s) = insert i (used n busy slots) := by
  ext j
  rw [Finset.mem_insert, mem_used, mem_used]
  by_cases hj : j = i
  · rw [hj, update_self]
    exact iff_of_true ⟨hi, hs⟩ (.inl rfl)
  · rw [update_of_ne hj, or_iff_right hj]

/-- Setting a slot that is then free. -/
theorem used_update_free (hs : ¬ busy s) : used n busy (Function.update slots i s) = (used n busy slots).erase i := by
  ext j
  rw [Finset.mem_erase, mem_used, mem_used]
  by_cases hj : j = i
  · rw [hj, update_self]
    exact iff_of_false (fun h => hs h.2) fun h => h.1 rfl
  · rw [update_of_ne hj, and_iff_right hj]

end SlotTable

end Marlin
