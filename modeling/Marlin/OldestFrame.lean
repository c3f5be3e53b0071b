import Marlin.StreamMem

/-!
# The Oldest Frame Number of a Stream

`getOldestFrameNumber` searches the heap buffers and those of the framework for the lowest frame number, and
is to skip buffers without one. Each search starts from its first buffer whatever that has, and the lower
result wins, also where it is -1. So one unmarked buffer in front of a pool hides all frame numbers.

## Main results

* `oldest_spec`: what the search of a pool finds, whatever the numbers are.
* `findsLeast_iff`: when the least frame number is found.
-/

namespace Marlin

open List

namespace StreamMem

variable {m : StreamMem}

/-- The buffers of both pools: their frame numbers and their indices. -/
def buffers (m : StreamMem) : List (ℤ × ℕ) := m.heap.zipIdx ++ m.registered

/-- What `getOldestFrameNumber` is for: it finds the least of the frame numbers and a buffer with it, and -1
where there is none. -/
structure FindsLeast (m : StreamMem) : Prop where
  least : ∀ e ∈ m.buffers, e.1 ≠ -1 → m.getOldestFrameNumber ∈ m.buffers ∧
    m.getOldestFrameNumber.1 ≠ -1 ∧ m.getOldestFrameNumber.1 ≤ e.1
  none : (∀ e ∈ m.buffers, e.1 = -1) → m.getOldestFrameNumber.1 = -1

/-- The first buffer of a pool has a frame number. -/
def FirstMarked (pool : List (ℤ × ℕ)) : Prop := ∀ e ∈ pool.head?, e.1 ≠ -1

theorem foldl_older_spec (l : List (ℤ × ℕ)) (o : ℤ × ℕ) :
    ∃ r ∈ o :: l, l.foldl older (some o) = some r ∧ r.1 ≤ o.1 ∧ (o.1 ≠ -1 → r.1 ≠ -1) ∧
      ∀ e ∈ l, e.1 ≠ -1 → r.1 ≤ e.1 := by
  induction l generalizing o with
  | nil => exact ⟨o, mem_cons_self, rfl, Int.le_refl _, id, fun _ => nofun⟩
  | cons e l ih =>
    rw [foldl_cons, older]
    split
    · rename_i hlower
      obtain ⟨r, hr, heq, hle, hne, hall⟩ := ih e
      refine ⟨r, mem_cons_of_mem _ hr, heq, by omega, fun _ => hne hlower.2, fun e' he' hne' => ?_⟩
      rcases mem_cons.mp he' with rfl | he'
      · exact hle
      · exact hall e' he' hne'
    · rename_i hnot
      obtain ⟨r, hr, heq, hle, hne, hall⟩ := ih o
      refine ⟨r, ?_, heq, hle, hne, fun e' he' hne' => ?_⟩
      · rcases mem_cons.mp hr with rfl | hr
        · exact mem_cons_self
        · exact mem_cons_of_mem _ (mem_cons_of_mem _ hr)
      · rcases mem_cons.mp he' with rfl | he'
        · omega
        · exact hall e' he' hne'

/-- **The search of a pool.** It finds no buffer with a higher number than another one has, and a number at
all if the first buffer has one or some number is below -1. -/
theorem oldest_spec {pool : List (ℤ × ℕ)} {r : ℤ × ℕ} (h : oldest pool = some r) :
    r ∈ pool ∧ (∀ e ∈ pool, e.1 ≠ -1 → r.1 ≤ e.1) ∧ (FirstMarked pool → r.1 ≠ -1) ∧
      (¬ FirstMarked pool → r.1 ≤ -1) := by
  cases pool with
  | nil => cases h
  | cons o l =>
    obtain ⟨r', hr', heq, hle, hne, hall⟩ := foldl_older_spec l o
    obtain rfl : r' = r := Option.some.inj (heq.symm.trans h)
    refine ⟨hr', fun e he hne' => ?_, fun hfirst => hne (hfirst o rfl), fun hfirst => ?_⟩
    · rcases mem_cons.mp he with rfl | he
      · exact hle
      · exact hall e he hne'
    · have ho : o.1 = -1 := by
        by_contra ho
        exact hfirst fun e he => (Option.some.inj he) ▸ ho
      omega

theorem oldest_eq_none {pool : List (ℤ × ℕ)} (h : oldest pool = none) : pool = [] := by
  cases pool with
  | nil => rfl
  | cons o l =>
    obtain ⟨r, -, heq, -⟩ := foldl_older_spec l o
    exact absurd (h.symm.trans heq) (by nofun)

theorem firstMarked_nil : FirstMarked [] := fun _ => nofun

theorem getOldestFrameNumber_of_empty (h : m.buffers = []) : m.getOldestFrameNumber.1 = -1 := by
  obtain ⟨hheap, hgralloc⟩ := append_eq_nil_iff.mp h
  rw [getOldestFrameNumber, hheap, hgralloc]
  rfl

theorem getOldestFrameNumber_le (hne : m.buffers ≠ []) : m.getOldestFrameNumber ∈ m.buffers ∧
    (∀ e ∈ m.buffers, e.1 ≠ -1 → m.getOldestFrameNumber.1 ≤ e.1) ∧
      (FirstMarked m.heap.zipIdx ∧ FirstMarked m.registered → m.getOldestFrameNumber.1 ≠ -1) ∧
        (¬ (FirstMarked m.heap.zipIdx ∧ FirstMarked m.registered) → m.getOldestFrameNumber.1 ≤ -1) := by
  rw [buffers] at hne ⊢
  rcases hheap : oldest m.heap.zipIdx with _ | r <;> rcases hgralloc : oldest m.registered with _ | q
  · rw [oldest_eq_none hheap, oldest_eq_none hgralloc] at hne
    exact absurd rfl hne
  · have hvalue : m.getOldestFrameNumber = q := by rw [getOldestFrameNumber, hheap, hgralloc]
    obtain ⟨hq, hle, hmarked, hunmarked⟩ := oldest_spec hgralloc
    rw [hvalue, oldest_eq_none hheap]
    exact ⟨hq, hle, fun h => hmarked h.2, fun h => hunmarked fun hfirst => h ⟨firstMarked_nil, hfirst⟩⟩
  · have hvalue : m.getOldestFrameNumber = r := by rw [getOldestFrameNumber, hheap, hgralloc]
    obtain ⟨hr, hle, hmarked, hunmarked⟩ := oldest_spec hheap
    rw [hvalue, oldest_eq_none hgralloc, append_nil]
    exact ⟨hr, hle, fun h => hmarked h.1, fun h => hunmarked fun hfirst => h ⟨hfirst, firstMarked_nil⟩⟩
  obtain ⟨hr, hle, hmarked, hunmarked⟩ := oldest_spec hheap
  obtain ⟨hq, hle', hmarked', hunmarked'⟩ := oldest_spec hgralloc
  have hvalue : m.getOldestFrameNumber = if q.1 < r.1 then q else r := by
    rw [getOldestFrameNumber, hheap, hgralloc]
  obtain ⟨hmem, hr', hq'⟩ : (m.getOldestFrameNumber = r ∨ m.getOldestFrameNumber = q) ∧
      m.getOldestFrameNumber.1 ≤ r.1 ∧ m.getOldestFrameNumber.1 ≤ q.1 := by
    rw [hvalue]
    split
    · exact ⟨.inr rfl, by omega, Int.le_refl _⟩
    · exact ⟨.inl rfl, Int.le_refl _, by omega⟩
  refine ⟨?_, fun e he hne' => ?_, fun h => ?_, fun h => ?_⟩
  · rcases hmem with hmem | hmem
    · exact hmem ▸ mem_append_left _ hr
    · exact hmem ▸ mem_append_right _ hq
  · rcases mem_append.mp he with he | he
    · exact Int.le_trans hr' (hle e he hne')
    · exact Int.le_trans hq' (hle' e he hne')
  · rcases hmem with hmem | hmem
    · exact hmem ▸ hmarked h.1
    · exact hmem ▸ hmarked' h.2
  · by_cases hfirst : FirstMarked m.heap.zipIdx
    · exact Int.le_trans hq' (hunmarked' fun hfirst' => h ⟨hfirst, hfirst'⟩)
    · exact Int.le_trans hr' (hunmarked hfirst)

/-- **When the least frame number is found**: no buffer has a frame number, or some number is below -1, or
the first buffer of each pool that has buffers has one. -/
theorem findsLeast_iff (m : StreamMem) : m.FindsLeast ↔ (∀ e ∈ m.buffers, e.1 = -1) ∨ (∃ e ∈ m.buffers, e.1 < -1) ∨
      (FirstMarked m.heap.zipIdx ∧ FirstMarked m.registered) := by
  by_cases hempty : m.buffers = []
  · have hnone := getOldestFrameNumber_of_empty hempty
    refine iff_of_true ⟨fun e he => ?_, fun _ => hnone⟩ (.inl fun e he => ?_)
    all_goals
      rw [hempty] at he
      cases he
  obtain ⟨hmem, hle, hmarked, hunmarked⟩ := getOldestFrameNumber_le hempty
  constructor
  · intro h
    by_contra hnot
    obtain ⟨hsome, hnot⟩ := not_or.mp hnot
    obtain ⟨hlow, hfirst⟩ := not_or.mp hnot
    obtain ⟨e, he, hne⟩ : ∃ e ∈ m.buffers, e.1 ≠ -1 := by
      by_contra hall
      exact hsome fun e he => by_contra fun hne => hall ⟨e, he, hne⟩
    have hresult := (h.least e he hne).2.1
    have hlast := hunmarked hfirst
    exact hlow ⟨_, hmem, by omega⟩
  · intro h
    refine ⟨fun e he hne => ⟨hmem, ?_, hle e he hne⟩, fun hall => hall _ hmem⟩
    rcases h with hall | ⟨e', he', hlow⟩ | hfirst
    · exact absurd (hall e he) hne
    · have hle' := hle e' he' (by omega)
      omega
    · exact hmarked hfirst

/-- A heap buffer that is not used, before one with a frame number. -/
theorem unmarked_first_hides : ¬ FindsLeast { mMaxHeapBuffers := 2, heap := [-1, 7] } := fun h => by
  have hleast := h.least (7, 1) (by decide) (by decide)
  exact hleast.2.1 (by decide)

end StreamMem

end Marlin
