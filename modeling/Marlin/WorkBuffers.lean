import Marlin.JpegSession
import Mathlib.Data.Nat.Find

/-!
# The Work Buffers of the Encoder

The JPEG object has a table of work buffers that `mm_jpeg_alloc_workbuffer` fills from its first free entry up
to as many as are needed. When an allocation fails it gives all buffers of the table back, also those of earlier
calls. `mm_jpeg_release_workbuffer` goes from the first free entry on, where nothing is allocated.

## Conventions

A descriptor shows nothing, memory that the HAL passed, or the ION buffer that was allocated as the `n`-th. It
is not changed when the buffer is deallocated; `freed` lists the buffers as they are. Which allocations fail,
entry by entry, is taken from the environment.

## Main results

* `Sound.allocated_iff`: in a sound table the allocated entries are the first ones, and are counted.
* `Sound.allocWorkbuffer`, `Sound.deallocateAll`: all calls keep the table sound, whether they fail or not.
* `allocWorkbuffer_ok`, `Sound.allocWorkbuffer_failed`: what is returned and left where nothing fails, and where
  an allocation does.
* `startBuffer_spec`: what the result for a job can be.
-/

namespace Marlin

open List Function

namespace MmJpeg

/-- `buffer_t`: what the descriptor shows. -/
inductive BufferT
  | null
  | hal (vaddr : ℕ)
  | ion (n : ℕ)
  deriving DecidableEq

/-- The work buffers of `mm_jpeg_obj`. `next` is the number of the next allocation. -/
structure WorkBuffers where
  work_buf_cnt : ℕ := 0
  ionBuffer : ℕ → BufferT := fun _ => .null
  next : ℕ := 0
  freed : List ℕ := []

namespace WorkBuffers

/-- `buffer_allocate` for an entry, which succeeds. -/
def push (w : WorkBuffers) : WorkBuffers :=
  { w with
    ionBuffer := Function.update w.ionBuffer w.work_buf_cnt (.ion w.next)
    next := w.next + 1
    work_buf_cnt := w.work_buf_cnt + 1 }

/-- `buffer_deallocate` for the buffer of a descriptor. -/
def deallocate (w : WorkBuffers) : BufferT → WorkBuffers
  | .ion n => { w with freed := w.freed ++ [n] }
  | _ => w

/-- The entry of an allocation that fails shows nothing. -/
def clear (w : WorkBuffers) : WorkBuffers :=
  { w with ionBuffer := Function.update w.ionBuffer w.work_buf_cnt .null }

/-- The entries below `i` are deallocated from the last one on, each with the count one less. -/
def unwind : ℕ → WorkBuffers → WorkBuffers
  | 0, w => w
  | i + 1, w =>
    unwind i { w.deallocate (w.ionBuffer i) with work_buf_cnt := w.work_buf_cnt - 1 }

/-- The loop of `mm_jpeg_alloc_workbuffer`, with the allocations still to do. -/
def allocLoop (bufferAllocate : ℕ → Bool) : ℕ → ℤ → WorkBuffers → ℤ × WorkBuffers
  | 0, rc, w => (rc, w)
  | todo + 1, _, w =>
    if bufferAllocate w.work_buf_cnt then allocLoop bufferAllocate todo w.work_buf_cnt w.push
    else (-1, unwind w.work_buf_cnt w.clear)

/-- `mm_jpeg_alloc_workbuffer`. -/
def allocWorkbuffer (bufferAllocate : ℕ → Bool) (work_bufs_need : ℕ) (w : WorkBuffers) : ℤ × WorkBuffers :=
  allocLoop bufferAllocate (work_bufs_need - w.work_buf_cnt) 0 w

/-- `mm_jpeg_release_workbuffer`. -/
def releaseWorkbuffer (work_bufs_need : ℕ) (w : WorkBuffers) : WorkBuffers :=
  (List.range' w.work_buf_cnt (work_bufs_need - w.work_buf_cnt)).foldl (fun w' i => w'.deallocate (w'.ionBuffer i)) w

/-- The loop of `mm_jpeg_deinit`: the entries in use are deallocated from the first one on. -/
def deallocateAll (w : WorkBuffers) : WorkBuffers :=
  { (List.range w.work_buf_cnt).foldl (fun w' i => w'.deallocate (w'.ionBuffer i)) w with work_buf_cnt := 0 }

/-- The entry shows a buffer that is allocated. -/
def Allocated (w : WorkBuffers) (i : ℕ) : Prop := ∃ n, w.ionBuffer i = .ion n ∧ n ∉ w.freed

/-- The table is sound: the buffers that it has are those of its first entries, each is there once, and none is
deallocated twice. -/
structure Sound (w : WorkBuffers) : Prop where
  entries : ∀ i < w.work_buf_cnt, ∃ n < w.next, w.ionBuffer i = .ion n ∧ n ∉ w.freed
  distinct : ∀ i < w.work_buf_cnt, ∀ j < w.work_buf_cnt, w.ionBuffer i = w.ionBuffer j → i = j
  rest : ∀ i, w.work_buf_cnt ≤ i → ∀ n, w.ionBuffer i = .ion n → n ∈ w.freed
  once : w.freed.Nodup
  known : ∀ n ∈ w.freed, n < w.next

variable {w : WorkBuffers}

theorem sound_fresh : Sound {} where
  entries _ h := absurd h (Nat.not_lt_zero _)
  distinct _ h := absurd h (Nat.not_lt_zero _)
  rest _ _ _ h := nomatch h
  once := nodup_nil
  known _ h := absurd h not_mem_nil

/-- **The count is that of the allocated entries**, which come first. -/
theorem Sound.allocated_iff (h : w.Sound) (i : ℕ) : w.Allocated i ↔ i < w.work_buf_cnt := by
  constructor
  · rintro ⟨n, hi, hn⟩
    by_contra hge
    exact hn (h.rest i (Nat.le_of_not_lt hge) n hi)
  · intro hi
    obtain ⟨n, -, heq, hn⟩ := h.entries i hi
    exact ⟨n, heq, hn⟩

theorem Sound.push (h : w.Sound) : w.push.Sound := by
  have hself : w.push.ionBuffer w.work_buf_cnt = .ion w.next := update_self ..
  have hother {i : ℕ} (hi : i ≠ w.work_buf_cnt) : w.push.ionBuffer i = w.ionBuffer i :=
    update_of_ne hi ..
  have hnew : w.next ∉ w.freed := fun hmem => Nat.lt_irrefl _ (h.known _ hmem)
  have hold {i : ℕ} (hi : i < w.work_buf_cnt) : w.push.ionBuffer i ≠ .ion w.next := by
    obtain ⟨n, hn, heq, -⟩ := h.entries i hi
    rw [hother (Nat.ne_of_lt hi), heq]
    exact fun hsame => Nat.ne_of_lt hn (BufferT.ion.inj hsame)
  refine ⟨fun i hi => ?_, fun i hi j hj heq => ?_, fun i hi n heq => ?_, h.once, fun n hn => ?_⟩
  · rcases Nat.lt_succ_iff_lt_or_eq.mp hi with hi | rfl
    · obtain ⟨n, hn, heq, hfree⟩ := h.entries i hi
      exact ⟨n, Nat.lt_succ_of_lt hn, (hother (Nat.ne_of_lt hi)).trans heq, hfree⟩
    · exact ⟨w.next, Nat.lt_succ_self _, hself, hnew⟩
  · rcases Nat.lt_succ_iff_lt_or_eq.mp hi with hi | rfl <;> rcases Nat.lt_succ_iff_lt_or_eq.mp hj with hj | rfl
    · rw [hother (Nat.ne_of_lt hi), hother (Nat.ne_of_lt hj)] at heq
      exact h.distinct i hi j hj heq
    · exact absurd (heq.trans hself) (hold hi)
    · exact absurd (heq.symm.trans hself) (hold hj)
    · rfl
  · have hne : i ≠ w.work_buf_cnt := Nat.ne_of_gt hi
    exact h.rest i (Nat.le_of_lt hi) n ((hother hne).symm.trans heq)
  · exact Nat.lt_succ_of_lt (h.known n hn)

theorem clear_ionBuffer {i : ℕ} (hi : i < w.work_buf_cnt) : w.clear.ionBuffer i = w.ionBuffer i :=
  update_of_ne (Nat.ne_of_lt hi) ..

theorem Sound.clear (h : w.Sound) : w.clear.Sound := by
  have hother {i : ℕ} (hi : i < w.work_buf_cnt) : w.clear.ionBuffer i = w.ionBuffer i := clear_ionBuffer hi
  refine ⟨fun i hi => ?_, fun i hi j hj heq => ?_, fun i hi n heq => ?_, h.once, h.known⟩
  · obtain ⟨n, hn, heq, hfree⟩ := h.entries i hi
    exact ⟨n, hn, (hother hi).trans heq, hfree⟩
  · exact h.distinct i hi j hj ((hother hi).symm.trans (heq.trans (hother hj)))
  · by_cases hic : i = w.work_buf_cnt
    · change update w.ionBuffer w.work_buf_cnt .null i = .ion n at heq
      rw [hic] at heq
      exact nomatch (update_self (β := fun _ => BufferT) ..).symm.trans heq
    · exact h.rest i hi n ((update_of_ne (β := fun _ => BufferT) hic ..).symm.trans heq)

theorem Sound.pop (h : w.Sound) {i : ℕ} (hi : w.work_buf_cnt = i + 1) :
    ∃ n < w.next, w.ionBuffer i = .ion n ∧ n ∉ w.freed ∧
      Sound { w with freed := w.freed ++ [n], work_buf_cnt := i } := by
  obtain ⟨n, hn, heq, hfree⟩ := h.entries i (by omega)
  have hlt {j : ℕ} (hj : j < i) : j < w.work_buf_cnt := by omega
  refine ⟨n, hn, heq, hfree, fun j hj => ?_, fun j hj k hk => h.distinct j (hlt hj) k (hlt hk),
    fun j hj m hm => ?_, ?_, fun m hm => ?_⟩
  · obtain ⟨m, hm, heqm, hfreem⟩ := h.entries j (hlt hj)
    refine ⟨m, hm, heqm, fun hmem => ?_⟩
    rcases mem_append.mp hmem with hmem | hmem
    · exact hfreem hmem
    · obtain rfl := mem_singleton.mp hmem
      exact Nat.ne_of_lt hj (h.distinct j (hlt hj) i (by omega) (heqm.trans heq.symm))
  · rcases Nat.eq_or_lt_of_le (show i ≤ j from hj) with hji | hji
    · rw [← hji] at hm
      obtain rfl := BufferT.ion.inj (heq.symm.trans hm)
      exact mem_append_right _ (mem_singleton_self _)
    · exact mem_append_left _ (h.rest j (by omega) m hm)
  · exact nodup_append.mpr ⟨h.once, nodup_singleton n, fun m hm k hk hmk =>
      hfree (mem_singleton.mp hk ▸ hmk ▸ hm)⟩
  · rcases mem_append.mp hm with hm | hm
    · exact h.known m hm
    · exact mem_singleton.mp hm ▸ hn

/-- **What the unwinding leaves**: a sound table without buffers. What it deallocates was in the table. -/
theorem Sound.unwind (i : ℕ) (h : w.Sound) (hi : w.work_buf_cnt = i) :
    (unwind i w).Sound ∧ (unwind i w).work_buf_cnt = 0 ∧ (unwind i w).next = w.next ∧
      ∀ n, n ∈ (unwind i w).freed ↔ n ∈ w.freed ∨ ∃ j < i, w.ionBuffer j = .ion n := by
  induction i generalizing w with
  | zero => exact ⟨h, hi, rfl, fun n => ⟨.inl, fun hn => hn.resolve_right fun ⟨j, hj, _⟩ => nomatch hj⟩⟩
  | succ i ih =>
    obtain ⟨n, hn, heq, hfree, hsound⟩ := h.pop hi
    have hstep : WorkBuffers.unwind (i + 1) w =
        WorkBuffers.unwind i { w with freed := w.freed ++ [n], work_buf_cnt := i } := by
      rw [WorkBuffers.unwind, heq, deallocate, hi]
      rfl
    rw [hstep]
    obtain ⟨hsound', hcnt, hnext, hfreed⟩ := ih hsound rfl
    refine ⟨hsound', hcnt, hnext, fun m => (hfreed m).trans ?_⟩
    rw [mem_append, mem_singleton, or_assoc]
    refine or_congr_right ⟨?_, ?_⟩
    · rintro (rfl | ⟨j, hj, hm⟩)
      · exact ⟨i, Nat.lt_succ_self i, heq⟩
      · exact ⟨j, Nat.lt_succ_of_lt hj, hm⟩
    · rintro ⟨j, hj, hm⟩
      rcases Nat.lt_succ_iff_lt_or_eq.mp hj with hj | rfl
      · exact .inr ⟨j, hj, hm⟩
      · exact .inl (BufferT.ion.inj (hm.symm.trans heq))

/-- Pushing several buffers. -/
def pushN : ℕ → WorkBuffers → WorkBuffers
  | 0, w => w
  | k + 1, w => pushN k w.push

theorem pushN_cnt (k : ℕ) (w : WorkBuffers) : (pushN k w).work_buf_cnt = w.work_buf_cnt + k := by
  induction k generalizing w with
  | zero => rfl
  | succ k ih =>
    rw [pushN, ih]
    change w.work_buf_cnt + 1 + k = _
    omega

theorem Sound.pushN (k : ℕ) (h : w.Sound) : (pushN k w).Sound ∧ (pushN k w).freed = w.freed ∧
    w.next ≤ (pushN k w).next ∧ (∀ i < w.work_buf_cnt, (pushN k w).ionBuffer i = w.ionBuffer i) ∧
      ∀ i, w.work_buf_cnt ≤ i → i < w.work_buf_cnt + k → ∃ n, w.next ≤ n ∧ (pushN k w).ionBuffer i = .ion n := by
  induction k generalizing w with
  | zero => exact ⟨h, rfl, Nat.le_refl _, fun _ _ => rfl, fun i hi hi' => absurd hi' (Nat.not_lt.mpr hi)⟩
  | succ k ih =>
    obtain ⟨hsound, hfreed, hnext, hold, hnew⟩ := ih h.push
    refine ⟨hsound, hfreed, Nat.le_of_succ_le hnext, fun i hi => ?_, fun i hi hi' => ?_⟩
    · exact (hold i (Nat.lt_succ_of_lt hi)).trans (update_of_ne (Nat.ne_of_lt hi) ..)
    · rcases Nat.eq_or_lt_of_le hi with rfl | hi
      · exact ⟨w.next, Nat.le_refl _, (hold w.work_buf_cnt (Nat.lt_succ_self _)).trans (update_self ..)⟩
      · obtain ⟨n, hn, heq⟩ := hnew i hi (by change i < w.work_buf_cnt + 1 + k; omega)
        exact ⟨n, Nat.le_of_succ_le hn, heq⟩

theorem allocLoop_ok {bufferAllocate : ℕ → Bool} (todo : ℕ) (rc : ℤ)
    (hall : ∀ i, w.work_buf_cnt ≤ i → i < w.work_buf_cnt + todo → bufferAllocate i = true) :
    allocLoop bufferAllocate todo rc w = (if todo = 0 then rc else w.work_buf_cnt + todo - 1, pushN todo w) := by
  induction todo generalizing w rc with
  | zero => rfl
  | succ todo ih =>
    rw [allocLoop, if_pos (hall _ (Nat.le_refl _) (by omega)), ih, pushN]
    · refine Prod.ext ?_ rfl
      change (if todo = 0 then (w.work_buf_cnt : ℤ) else ((w.work_buf_cnt + 1 : ℕ) : ℤ) + todo - 1) =
        if todo + 1 = 0 then rc else w.work_buf_cnt + ((todo + 1 : ℕ) : ℤ) - 1
      split <;> omega
    · intro i hi hi'
      change w.work_buf_cnt + 1 ≤ i at hi
      change i < w.work_buf_cnt + 1 + todo at hi'
      exact hall i (by omega) (by omega)

theorem allocLoop_failed {bufferAllocate : ℕ → Bool} (todo k : ℕ) (rc : ℤ) (hk : k < todo)
    (hall : ∀ i, w.work_buf_cnt ≤ i → i < w.work_buf_cnt + k → bufferAllocate i = true)
    (hfails : bufferAllocate (w.work_buf_cnt + k) = false) :
    allocLoop bufferAllocate todo rc w = (-1, unwind (pushN k w).work_buf_cnt (pushN k w).clear) := by
  induction k generalizing w rc todo with
  | zero =>
    obtain ⟨todo, rfl⟩ := Nat.exists_eq_succ_of_ne_zero (Nat.ne_of_gt hk)
    rw [Nat.add_zero] at hfails
    rw [allocLoop, hfails, if_neg Bool.false_ne_true]
    rfl
  | succ k ih =>
    obtain ⟨todo, rfl⟩ := Nat.exists_eq_succ_of_ne_zero (Nat.ne_of_gt (Nat.zero_lt_of_lt hk))
    have hcnt : w.push.work_buf_cnt + k = w.work_buf_cnt + (k + 1) := by
      change w.work_buf_cnt + 1 + k = _
      omega
    rw [allocLoop, if_pos (hall _ (Nat.le_refl _) (by omega)), ih todo _ (Nat.lt_of_succ_lt_succ hk) ?_
      (hcnt ▸ hfails), pushN]
    intro i hi hi'
    change w.work_buf_cnt + 1 ≤ i at hi
    exact hall i (by omega) (by omega)

/-! ### The calls -/

variable {bufferAllocate : ℕ → Bool} {need : ℕ}

/-- No allocation that is needed fails. -/
def Served (w : WorkBuffers) (bufferAllocate : ℕ → Bool) (need : ℕ) : Prop :=
  ∀ i < need, w.work_buf_cnt ≤ i → bufferAllocate i = true

instance (w : WorkBuffers) (bufferAllocate : ℕ → Bool) (need : ℕ) : Decidable (w.Served bufferAllocate need) :=
  inferInstanceAs (Decidable (∀ i < need, w.work_buf_cnt ≤ i → bufferAllocate i = true))

/-- **What a call that succeeds returns**: the last entry that it filled, and 0 also where it filled none. -/
theorem allocWorkbuffer_ok (h : w.Served bufferAllocate need) : w.allocWorkbuffer bufferAllocate need =
      (if need ≤ w.work_buf_cnt then 0 else (need : ℤ) - 1, pushN (need - w.work_buf_cnt) w) := by
  rw [allocWorkbuffer, allocLoop_ok _ _ fun i hi hi' => h i (by omega) hi]
  refine Prod.ext ?_ rfl
  change (if need - w.work_buf_cnt = 0 then (0 : ℤ) else w.work_buf_cnt + (need - w.work_buf_cnt : ℕ) - 1) =
    if need ≤ w.work_buf_cnt then 0 else (need : ℤ) - 1
  split <;> split <;> omega

theorem exists_first_failed (h : ¬ w.Served bufferAllocate need) : ∃ k < need - w.work_buf_cnt,
      (∀ i, w.work_buf_cnt ≤ i → i < w.work_buf_cnt + k → bufferAllocate i = true) ∧
        bufferAllocate (w.work_buf_cnt + k) = false := by
  have hex : ∃ k, bufferAllocate (w.work_buf_cnt + k) = false ∧ w.work_buf_cnt + k < need := by
    by_contra hall
    refine h fun i hi hle => ?_
    obtain ⟨k, rfl⟩ := Nat.exists_eq_add_of_le hle
    exact Bool.of_not_eq_false fun hfalse => hall ⟨k, hfalse, hi⟩
  obtain ⟨hfalse, hlt⟩ := Nat.find_spec hex
  refine ⟨Nat.find hex, by omega, fun i hle hi => ?_, hfalse⟩
  obtain ⟨k, rfl⟩ := Nat.exists_eq_add_of_le hle
  exact Bool.of_not_eq_false fun hf => Nat.find_min hex (by omega) ⟨hf, by omega⟩

theorem allocWorkbuffer_eq_neg_one_iff :
    (w.allocWorkbuffer bufferAllocate need).1 = -1 ↔ ¬ w.Served bufferAllocate need := by
  constructor
  · intro h hserved
    rw [allocWorkbuffer_ok hserved] at h
    change (if need ≤ w.work_buf_cnt then 0 else (need : ℤ) - 1) = -1 at h
    split at h <;> omega
  · intro h
    obtain ⟨k, hk, hall, hfails⟩ := exists_first_failed h
    rw [allocWorkbuffer, allocLoop_failed _ k 0 hk hall hfails]

/-- **What a call that fails leaves**: no buffer at all. Those of earlier calls are given back, too. -/
theorem Sound.allocWorkbuffer_failed (hw : w.Sound) (h : ¬ w.Served bufferAllocate need) :
    (w.allocWorkbuffer bufferAllocate need).1 = -1 ∧ (w.allocWorkbuffer bufferAllocate need).2.Sound ∧
        (w.allocWorkbuffer bufferAllocate need).2.work_buf_cnt = 0 ∧
          w.next ≤ (w.allocWorkbuffer bufferAllocate need).2.next ∧
            ∀ n < w.next, n ∈ (w.allocWorkbuffer bufferAllocate need).2.freed ↔
              n ∈ w.freed ∨ ∃ j < w.work_buf_cnt, w.ionBuffer j = .ion n := by
  obtain ⟨k, hk, hall, hfails⟩ := exists_first_failed h
  obtain ⟨hsound, hfreed, hnext, hold, hnew⟩ := hw.pushN k
  have hcnt := pushN_cnt k w
  obtain ⟨hsound', hcnt', hnext', hfreed'⟩ := hsound.clear.unwind _ rfl
  rw [allocWorkbuffer, allocLoop_failed _ k 0 hk hall hfails]
  refine ⟨rfl, hsound', hcnt', hnext'.symm ▸ hnext, fun n hn => (hfreed' n).trans ?_⟩
  have hentry {j : ℕ} (hj : j < (WorkBuffers.pushN k w).work_buf_cnt) :
      (WorkBuffers.pushN k w).clear.ionBuffer j = (WorkBuffers.pushN k w).ionBuffer j :=
    clear_ionBuffer hj
  refine Iff.or (by rw [← hfreed]; rfl) ⟨?_, ?_⟩
  · rintro ⟨j, hj, heq⟩
    rcases Nat.lt_or_ge j w.work_buf_cnt with hlt | hge
    · exact ⟨j, hlt, (hold j hlt).symm.trans ((hentry hj).symm.trans heq)⟩
    · obtain ⟨m, hm, heqm⟩ := hnew j hge (hcnt ▸ hj)
      obtain rfl := BufferT.ion.inj (heqm.symm.trans ((hentry hj).symm.trans heq))
      exact absurd hn (Nat.not_lt.mpr hm)
  · rintro ⟨j, hj, heq⟩
    have hj' : j < (WorkBuffers.pushN k w).work_buf_cnt := by omega
    exact ⟨j, hj', (hentry hj').trans ((hold j hj).trans heq)⟩

/-- Allocating keeps the table sound, whether it fails or not. -/
theorem Sound.allocWorkbuffer (hw : w.Sound) (bufferAllocate : ℕ → Bool) (need : ℕ) :
    (w.allocWorkbuffer bufferAllocate need).2.Sound := by
  by_cases h : w.Served bufferAllocate need
  · rw [allocWorkbuffer_ok h]
    exact (hw.pushN _).1
  · exact (hw.allocWorkbuffer_failed h).2.1

theorem releaseWorkbuffer_eq (h : need ≤ w.work_buf_cnt) : w.releaseWorkbuffer need = w := by
  rw [releaseWorkbuffer, Nat.sub_eq_zero_of_le h]
  rfl

/-- The first `k` buffers are given back, with the count as it was. -/
theorem Sound.deallocate (hw : w.Sound) (k : ℕ) (hk : k ≤ w.work_buf_cnt) :
    let w' := (range k).foldl (fun w' i => w'.deallocate (w'.ionBuffer i)) w
    w'.ionBuffer = w.ionBuffer ∧ w'.next = w.next ∧ w'.freed.Nodup ∧
      ∀ n, n ∈ w'.freed ↔ n ∈ w.freed ∨ ∃ j < k, w.ionBuffer j = .ion n := by
  induction k with
  | zero => exact ⟨rfl, rfl, hw.once, fun n => ⟨.inl, fun hn => hn.resolve_right fun ⟨j, hj, _⟩ => nomatch hj⟩⟩
  | succ k ih =>
    obtain ⟨hbuf, hnext, hnodup, hfreed⟩ := ih (Nat.le_of_succ_le hk)
    obtain ⟨n, -, heq, hn⟩ := hw.entries k hk
    rw [range_succ, foldl_append, foldl_cons, foldl_nil, hbuf, heq]
    refine ⟨hbuf, hnext, nodup_append.mpr ⟨hnodup, nodup_singleton n, ?_⟩, fun m => ?_⟩
    · intro m hm j hj hmj
      rw [mem_singleton.mp hj] at hmj
      rw [hmj] at hm
      rcases (hfreed n).mp hm with hm | ⟨i, hi, hm⟩
      · exact hn hm
      · exact Nat.ne_of_lt hi (hw.distinct i (by omega) k hk (hm.trans heq.symm))
    · change m ∈ _ ++ [n] ↔ _
      rw [mem_append, mem_singleton, hfreed, or_assoc]
      refine or_congr_right ⟨?_, ?_⟩
      · rintro (⟨j, hj, hm⟩ | rfl)
        · exact ⟨j, Nat.lt_succ_of_lt hj, hm⟩
        · exact ⟨k, Nat.lt_succ_self k, heq⟩
      · rintro ⟨j, hj, hm⟩
        rcases Nat.lt_succ_iff_lt_or_eq.mp hj with hj | rfl
        · exact .inl ⟨j, hj, hm⟩
        · exact .inr (BufferT.ion.inj (hm.symm.trans heq))

/-- **What `mm_jpeg_deinit` leaves**: a sound table without buffers. What it deallocates was in the table. -/
theorem Sound.deallocateAll (hw : w.Sound) :
    w.deallocateAll.Sound ∧ w.deallocateAll.next = w.next ∧ w.deallocateAll.work_buf_cnt = 0 ∧
      ∀ n, n ∈ w.deallocateAll.freed ↔ n ∈ w.freed ∨ ∃ j < w.work_buf_cnt, w.ionBuffer j = .ion n := by
  obtain ⟨hbuf, hnext, hnodup, hfreed⟩ := hw.deallocate w.work_buf_cnt (Nat.le_refl _)
  refine ⟨⟨?_, ?_, fun i _ n heq => (hfreed n).mpr ?_, hnodup, fun n hn => hnext.symm ▸ ?_⟩, hnext, rfl, hfreed⟩
  · exact fun i hi => absurd hi (Nat.not_lt_zero i)
  · exact fun i hi => absurd hi (Nat.not_lt_zero i)
  · change _ = BufferT.ion n at heq
    replace heq := (congrFun hbuf i).symm.trans heq
    rcases Nat.lt_or_ge i w.work_buf_cnt with hlt | hge
    · exact .inr ⟨i, hlt, heq⟩
    · exact .inl (hw.rest i hge n heq)
  · rcases (hfreed n).mp hn with hn | ⟨j, hj, heq⟩
    · exact hw.known n hn
    · obtain ⟨m, hm, heqm, -⟩ := hw.entries j hj
      exact BufferT.ion.inj (heqm.symm.trans heq) ▸ hm

/-! ### The work buffer of a job -/

/-- `work_bufs_need` of `mm_jpeg_start_job`, where `concurrent` is `MM_JPEG_CONCURRENT_SESSIONS_COUNT` and
`buf_vaddr` is 0 unless the HAL passes a work buffer. -/
def workBufsNeed (concurrent num_sessions buf_vaddr : ℕ) : ℕ :=
  min (num_sessions + 1) concurrent - if buf_vaddr = 0 then 0 else 1

/-- What the session's descriptor shows before `mm_jpeg_start_job` allocates. -/
def givenBuffer (w : WorkBuffers) (buf_vaddr : ℕ) : BufferT :=
  if buf_vaddr = 0 then w.ionBuffer 0 else .hal buf_vaddr

/-- What `mm_jpeg_start_job` does for the work buffer of the session: `rc`, and whether it goes on with it, the
session's descriptor, and the table. -/
structure StartBuffer where
  rc : ℤ
  goesOn : Bool
  work_buffer : BufferT
  bufs : WorkBuffers

/-- The part of `mm_jpeg_start_job` for `reuse_reproc_buffer`. -/
def startBuffer (concurrent num_sessions buf_vaddr : ℕ) (bufferAllocate : ℕ → Bool) (w : WorkBuffers) :
    StartBuffer :=
  let need := workBufsNeed concurrent num_sessions buf_vaddr
  if need = 0 then { rc := -1, goesOn := true, work_buffer := w.givenBuffer buf_vaddr, bufs := w }
  else
    let r := w.allocWorkbuffer bufferAllocate need
    if r.1 = -1 then { rc := -1, goesOn := false, work_buffer := w.givenBuffer buf_vaddr, bufs := r.2 }
    else { rc := r.1, goesOn := true, work_buffer := r.2.ionBuffer r.1.toNat, bufs := r.2 }

/-- **When the call goes on**, and with an index that is 0. -/
theorem startBuffer_spec (concurrent num_sessions buf_vaddr : ℕ) (bufferAllocate : ℕ → Bool) (w : WorkBuffers) :
    let need := workBufsNeed concurrent num_sessions buf_vaddr
    let r := w.startBuffer concurrent num_sessions buf_vaddr bufferAllocate
    (r.goesOn = true ↔ w.Served bufferAllocate need) ∧
      (w.Served bufferAllocate need → (r.rc = 0 ↔ need ≠ 0 ∧ (need ≤ w.work_buf_cnt ∨ need = 1))) := by
  intro need r
  have hneg : ¬ (-1 : ℤ) = 0 := by decide
  by_cases hneed : need = 0
  · have hr : r = { rc := -1, goesOn := true, work_buffer := w.givenBuffer buf_vaddr, bufs := w } := if_pos hneed
    rw [hr]
    exact ⟨iff_of_true rfl fun i hi => absurd (hneed ▸ hi) (Nat.not_lt_zero i),
      fun _ => iff_of_false hneg fun h => h.1 hneed⟩
  · by_cases hserved : w.Served bufferAllocate need
    · have hr : r = StartBuffer.mk (w.allocWorkbuffer bufferAllocate need).1 true _ _ :=
        (if_neg hneed).trans (if_neg (mt allocWorkbuffer_eq_neg_one_iff.mp (not_not_intro hserved)))
      rw [hr, allocWorkbuffer_ok hserved]
      refine ⟨iff_of_true rfl hserved, fun _ => ?_⟩
      change (if need ≤ w.work_buf_cnt then (0 : ℤ) else (need : ℤ) - 1) = 0 ↔ _
      split <;> omega
    · have hr : r = StartBuffer.mk (-1) false _ _ :=
        (if_neg hneed).trans (if_pos (allocWorkbuffer_eq_neg_one_iff.mpr hserved))
      rw [hr]
      exact ⟨iff_of_false Bool.false_ne_true hserved, fun h => absurd h hserved⟩

end WorkBuffers

end MmJpeg

end Marlin
