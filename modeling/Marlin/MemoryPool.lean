import Marlin.CameraMemory
import Marlin.StepLaws

/-!
# The Memory Pool

Streams give their buffers to `QCameraMemoryPool` and take them from it. A request is answered with the first released
buffer of the stream type that is large enough and has the heap and the flag, and only then with a new one. Whether
a released buffer is secured the pool does not know, and for offline processing it looks for the size that was asked
for, not for the whole pages of a buffer.

## Conventions

* A buffer that is released is one that was returned before and not released since; the stream type may be another.
* The size, the heap and the flag of a buffer are those of its `QCameraMemInfo`. Its real length, and whether it was
  allocated to be secured, is what the code does not have (`allocs`, by the number of the allocation).
* Opening the device, allocating and sharing a buffer fail together (`ok`).

## Main results

* `Inv.step`: the pool knows the length of each buffer.
* `le_ionLength_iff`: how large a buffer can be.
* `requests_fit_iff`: for all runs, when each buffer fits its request.
-/

namespace Marlin

namespace MemoryPool

open List Option IonMemory

/-- What an ION buffer was allocated with. -/
structure IonAlloc where
  len : ℕ
  secure : Bool
  deriving DecidableEq

/-- The arguments of `allocateBuffer`, and whether a new buffer can be allocated. -/
structure Request where
  streamType : PoolList
  heap_id : ℕ := ionIommuHeap
  size : ℕ
  cached : Bool := true
  secure : Bool := false
  ok : Bool := true

/-- The pool, the buffers that callers have, and all allocations so far. -/
structure PoolRun where
  ion : IonMemory := {}
  held : List QCameraMemInfo := []
  allocs : List IonAlloc := []

/-- The calls. The buffer that is released is the `i`-th one that a caller has. -/
inductive Call
  | allocateBuffer (q : Request)
  | releaseBuffer (i : ℕ) (streamType : PoolList)
  | clear

namespace PoolRun

/-- `findBufferLocked`. -/
def findBufferLocked (r : PoolRun) (q : Request) : Option (PoolList × QCameraMemInfo) :=
  r.ion.pool.find? (fits q.streamType q.heap_id q.size q.cached)

/-- `allocateBuffer`. -/
def allocateBuffer (r : PoolRun) (q : Request) : Option (QCameraMemInfo × IonMemory) :=
  r.ion.allocateBuffer q.streamType q.heap_id q.size q.cached q.secure q.ok

/-- One call. -/
def step (r : PoolRun) : Call → PoolRun
  | .allocateBuffer q =>
    match r.allocateBuffer q with
    | none => r
    | some (info, ion) =>
      { ion := ion
        held := r.held ++ [info]
        allocs :=
          if (r.findBufferLocked q).isSome then r.allocs
          else r.allocs ++ [⟨ionLength q.size q.secure, q.secure⟩] }
  | .releaseBuffer i streamType =>
    match r.held[i]? with
    | none => r
    | some info =>
      { r with
        ion := { r.ion with pool := r.ion.pool ++ [(streamType, info)] }
        held := r.held.eraseIdx i }
  | .clear => { r with ion := r.ion.clear }

/-- What the buffer was allocated with. -/
def alloc (r : PoolRun) (info : QCameraMemInfo) : Option IonAlloc := info.buf.bind fun b => r.allocs[b]?

/-- The released buffer fits the request: it has the size, or for offline processing exactly the whole pages that
were asked for. -/
structure Suits (r : PoolRun) (q : Request) (entry : PoolList × QCameraMemInfo) : Prop where
  streamType : entry.1 = q.streamType
  heap_id : entry.2.heapId = q.heap_id
  cached : entry.2.cached = q.cached
  secure : (r.alloc entry.2).map IonAlloc.secure = some q.secure
  size : if q.streamType.1 = .offlineProc then entry.2.size = (q.size + 4095) / 4096 * 4096 else q.size ≤ entry.2.size

/-- **A request is answered as it should be**: with a buffer that fits, and with a new one only where no released one
does. -/
structure Answered (r : PoolRun) (q : Request) : Prop where
  fits : ∀ info ion, r.allocateBuffer q = some (info, ion) →
    ∃ a, (r.step (.allocateBuffer q)).alloc info = some a ∧ q.size ≤ a.len ∧ q.size ≤ info.size ∧
      info.heapId = q.heap_id ∧ info.cached = q.cached ∧ a.secure = q.secure
  fresh : r.findBufferLocked q = none → q.ok = true → ∀ entry ∈ r.ion.pool, ¬ r.Suits q entry

/-- Each request is answered as it should be. -/
def RequestFits (r : PoolRun) : Call → Prop
  | .allocateBuffer q => r.Answered q
  | .releaseBuffer _ _ | .clear => True

/-- The size from which on a length does not fit in 32 bits. -/
def maxSize (secure : Bool) : ℕ := if secure then 2 ^ 32 - 2 ^ 20 else 2 ^ 32 - 2 ^ 12

/-- **The condition**: the first released buffer that the pool compares equal was allocated in the mode that is asked
for. Where there is none, the size is not too large, and for offline processing no buffer with the whole pages of a
size that is not in whole pages is in the pool. -/
structure Safe (r : PoolRun) (q : Request) : Prop where
  mode : ∀ entry, r.findBufferLocked q = some entry → (r.alloc entry.2).map IonAlloc.secure = some q.secure
  size : r.findBufferLocked q = none → q.ok = true → q.size ≤ maxSize q.secure
  pages : r.findBufferLocked q = none → q.ok = true → q.streamType.1 = .offlineProc → q.size % 4096 ≠ 0 →
    ∀ entry ∈ r.ion.pool, ¬ r.Suits q entry

/-- Each request meets the condition. -/
def RequestSafe (r : PoolRun) : Call → Prop
  | .allocateBuffer q => r.Safe q
  | .releaseBuffer _ _ | .clear => True

/-- The buffer is known: it was allocated, with the length that is its size. -/
def Known (r : PoolRun) (info : QCameraMemInfo) : Prop := ∃ a, r.alloc info = some a ∧ info.size = a.len

/-- **The invariant**: all buffers are known. -/
structure Inv (r : PoolRun) : Prop where
  next : r.ion.next = r.allocs.length
  pool : ∀ entry ∈ r.ion.pool, r.Known entry.2
  held : ∀ info ∈ r.held, r.Known info

end PoolRun

/-! ### Sizes -/

/-- **How large a buffer can be**: its length is at least the size that was asked for exactly if the whole pages, or
the whole megabytes, fit in 32 bits. -/
theorem le_ionLength_iff {size : ℕ} {secure : Bool} : size ≤ ionLength size secure ↔ size ≤ PoolRun.maxSize secure := by
  cases secure with
  | false =>
    simp only [ionLength, PoolRun.maxSize, Bool.false_eq_true, if_false]
    omega
  | true =>
    simp only [ionLength, PoolRun.maxSize, if_true]
    omega

namespace PoolRun

variable {r : PoolRun} {q : Request} {c : Call} {info : QCameraMemInfo} {ion : IonMemory}
  {entry : PoolList × QCameraMemInfo}

/-! ### The answers -/

theorem allocateBuffer_found (h : r.findBufferLocked q = some entry) :
    r.allocateBuffer q = some (entry.2, { r.ion with pool := r.ion.pool.erase entry }) := by
  have hfind : r.ion.pool.find? (fits q.streamType q.heap_id q.size q.cached) = some entry := h
  unfold allocateBuffer IonMemory.allocateBuffer
  rw [hfind]

theorem allocateBuffer_new (h : r.findBufferLocked q = none) (hok : q.ok = true) :
    r.allocateBuffer q = some (⟨some r.ion.next, ionLength q.size q.secure, q.cached, q.heap_id⟩,
      { r.ion with next := r.ion.next + 1 }) := by
  have hfind : r.ion.pool.find? (fits q.streamType q.heap_id q.size q.cached) = none := h
  unfold allocateBuffer IonMemory.allocateBuffer
  rw [hfind]
  exact if_pos hok

theorem allocateBuffer_fails (h : r.findBufferLocked q = none) (hok : q.ok = false) : r.allocateBuffer q = none := by
  have hfind : r.ion.pool.find? (fits q.streamType q.heap_id q.size q.cached) = none := h
  unfold allocateBuffer IonMemory.allocateBuffer
  rw [hfind]
  exact if_neg (hok ▸ Bool.false_ne_true)

/-- **What a request does**: a released buffer is returned, a new one, or none. -/
theorem allocateBuffer_cases (r : PoolRun) (q : Request) :
    (∃ entry, r.findBufferLocked q = some entry ∧ entry ∈ r.ion.pool ∧
      fits q.streamType q.heap_id q.size q.cached entry = true ∧
      r.step (.allocateBuffer q) =
        { r with ion := { r.ion with pool := r.ion.pool.erase entry }, held := r.held ++ [entry.2] }) ∨
    (r.findBufferLocked q = none ∧ q.ok = true ∧ r.step (.allocateBuffer q) =
        { ion := { r.ion with next := r.ion.next + 1 }
          held := r.held ++ [⟨some r.ion.next, ionLength q.size q.secure, q.cached, q.heap_id⟩]
          allocs := r.allocs ++ [⟨ionLength q.size q.secure, q.secure⟩] }) ∨
    (r.findBufferLocked q = none ∧ q.ok = false ∧ r.step (.allocateBuffer q) = r) := by
  cases hfind : r.findBufferLocked q with
  | some entry =>
    refine .inl ⟨entry, rfl, mem_of_find?_eq_some hfind, find?_some hfind, ?_⟩
    rw [step, allocateBuffer_found hfind, hfind]
    rfl
  | none =>
    cases hok : q.ok with
    | true =>
      refine .inr (.inl ⟨rfl, rfl, ?_⟩)
      rw [step, allocateBuffer_new hfind hok, hfind]
      rfl
    | false =>
      refine .inr (.inr ⟨rfl, rfl, ?_⟩)
      rw [step, allocateBuffer_fails hfind hok]

/-! ### The invariant -/

theorem alloc_append {a : IonAlloc} {as : List IonAlloc} (h : r.alloc info = some a) :
    alloc { r with allocs := r.allocs ++ as } info = some a := by
  obtain ⟨b, hb, hget⟩ := bind_eq_some_iff.1 h
  refine bind_eq_some_iff.2 ⟨b, hb, ?_⟩
  obtain ⟨hlt, -⟩ := List.getElem?_eq_some_iff.1 hget
  exact (getElem?_append_left hlt).trans hget

theorem Known.append {as : List IonAlloc} (h : r.Known info) : Known { r with allocs := r.allocs ++ as } info := by
  obtain ⟨a, ha, hsize⟩ := h
  exact ⟨a, alloc_append ha, hsize⟩

theorem Inv.alloc_new (h : r.Inv) (hbuf : info.buf = some r.ion.next) (a : IonAlloc) :
    alloc { r with allocs := r.allocs ++ [a] } info = some a := by
  refine bind_eq_some_iff.2 ⟨r.ion.next, hbuf, ?_⟩
  rw [h.next]
  exact getElem?_concat_length

/-- **Each call** keeps what the pool knows. -/
theorem Inv.step (h : r.Inv) (c : Call) : (r.step c).Inv := by
  cases c with
  | allocateBuffer q =>
    obtain ⟨entry, -, hmem, -, heq⟩ | ⟨-, -, heq⟩ | ⟨-, -, heq⟩ := r.allocateBuffer_cases q
    · rw [heq]
      refine ⟨h.next, fun e he => h.pool e (mem_of_mem_erase he), ?_⟩
      rw [forall_mem_append, forall_mem_singleton]
      exact ⟨h.held, h.pool entry hmem⟩
    · rw [heq]
      refine ⟨?_, fun e he => (h.pool e he).append, ?_⟩
      · rw [length_append, length_singleton, ← h.next]
      · rw [forall_mem_append, forall_mem_singleton]
        exact ⟨fun info hinfo => (h.held info hinfo).append, _, h.alloc_new rfl _, rfl⟩
    · rw [heq]
      exact h
  | releaseBuffer i streamType =>
    rw [PoolRun.step]
    cases hget : r.held[i]? with
    | none => exact h
    | some info =>
      refine ⟨h.next, ?_, fun e he => h.held e (mem_of_mem_eraseIdx he)⟩
      rw [forall_mem_append, forall_mem_singleton]
      exact ⟨h.pool, h.held info (mem_of_getElem? hget)⟩
  | clear => exact ⟨h.next, forall_mem_nil _, h.held⟩

theorem inv_init : Inv {} := ⟨rfl, forall_mem_nil _, forall_mem_nil _⟩

/-! ### The requests -/

theorem fits_iff : fits q.streamType q.heap_id q.size q.cached entry = true ↔ entry.1 = q.streamType ∧
      (if q.streamType.1 = .offlineProc then entry.2.size = q.size else q.size ≤ entry.2.size) ∧
      entry.2.heapId = q.heap_id ∧ entry.2.cached = q.cached := by
  rw [fits, decide_eq_true_iff]

theorem size_le_of_fits (h : fits q.streamType q.heap_id q.size q.cached entry = true) : q.size ≤ entry.2.size := by
  obtain ⟨-, hsize, -, -⟩ := fits_iff.1 h
  split at hsize
  · exact Nat.le_of_eq hsize.symm
  · exact hsize

/-- In whole pages, what suits is what the pool compares equal. -/
theorem Suits.fits (h : r.Suits q entry) (hpages : q.streamType.1 = .offlineProc → q.size % 4096 = 0) :
    fits q.streamType q.heap_id q.size q.cached entry = true := by
  refine fits_iff.2 ⟨h.streamType, ?_, h.heap_id, h.cached⟩
  have hsize := h.size
  split at hsize
  · rename_i hoffline
    have hmod := hpages hoffline
    rw [if_pos hoffline]
    omega
  · rename_i hoffline
    rw [if_neg hoffline]
    exact hsize

theorem Inv.safe_of_answered (h : r.Inv) (ha : r.Answered q) : r.Safe q := by
  refine ⟨fun entry hfind => ?_, fun hfind hok => ?_, fun hfind hok _ _ => ha.fresh hfind hok⟩
  · obtain ⟨a, hget, -, -, -, -, hsecure⟩ := ha.fits _ _ (allocateBuffer_found hfind)
    obtain ⟨e, hfind', -, -, heq⟩ | ⟨hnone, -, -⟩ | ⟨hnone, -, -⟩ := r.allocateBuffer_cases q
    · rw [heq] at hget
      exact map_eq_some_iff.2 ⟨a, hget, hsecure⟩
    · rw [hfind] at hnone
      cases hnone
    · rw [hfind] at hnone
      cases hnone
  · obtain ⟨a, hget, hlen, -⟩ := ha.fits _ _ (allocateBuffer_new hfind hok)
    obtain ⟨e, hfind', -⟩ | ⟨-, -, heq⟩ | ⟨-, hok', -⟩ := r.allocateBuffer_cases q
    · rw [hfind] at hfind'
      cases hfind'
    · rw [heq] at hget
      obtain rfl : _ = a := some.inj ((h.alloc_new rfl _).symm.trans hget)
      exact le_ionLength_iff.1 hlen
    · rw [hok] at hok'
      cases hok'

theorem Inv.answered_of_safe (h : r.Inv) (hs : r.Safe q) : r.Answered q := by
  refine ⟨fun info ion hanswer => ?_, fun hfind hok entry hmem hsuits => ?_⟩
  · obtain ⟨entry, hfind, hmem, hfits, heq⟩ | ⟨hfind, hok, heq⟩ | ⟨hfind, hok, -⟩ := r.allocateBuffer_cases q
    · rw [allocateBuffer_found hfind] at hanswer
      cases hanswer
      obtain ⟨a, hget, hsize⟩ := h.pool entry hmem
      obtain ⟨a', hget', hsecure⟩ := map_eq_some_iff.1 (hs.mode entry hfind)
      obtain rfl : a = a' := some.inj (hget.symm.trans hget')
      have hle := size_le_of_fits hfits
      obtain ⟨-, -, hheap, hcached⟩ := fits_iff.1 hfits
      rw [heq]
      exact ⟨a, hget, hsize ▸ hle, hle, hheap, hcached, hsecure⟩
    · rw [allocateBuffer_new hfind hok] at hanswer
      cases hanswer
      have hle := le_ionLength_iff.2 (hs.size hfind hok)
      rw [heq]
      exact ⟨_, h.alloc_new rfl _, hle, hle, rfl, rfl, rfl⟩
    · rw [allocateBuffer_fails hfind hok] at hanswer
      cases hanswer
  · -- what suits in whole pages would have been found
    by_cases hpages : q.streamType.1 = .offlineProc → q.size % 4096 = 0
    · exact find?_eq_none.1 hfind entry hmem (hsuits.fits hpages)
    · rw [Classical.not_imp] at hpages
      exact hs.pages hfind hok hpages.1 hpages.2 entry hmem hsuits

theorem Inv.requestFits_iff (h : r.Inv) : r.RequestFits c ↔ r.RequestSafe c := by
  cases c with
  | allocateBuffer q => exact ⟨h.safe_of_answered, h.answered_of_safe⟩
  | releaseBuffer | clear => exact Iff.rfl

/-- **Pool buffers fit their requests** in a run exactly if each request meets the condition. -/
theorem requests_fit_iff (cs : List Call) :
    StepLaws.Along step RequestFits {} cs ↔ StepLaws.Along step RequestSafe {} cs :=
  StepLaws.along_iff (fun _ _ h => h.requestFits_iff) (fun _ c h _ => h.step c) inv_init cs

/-- A raw buffer that is not secured is released, and a secured one is asked for. -/
def securedLater : List Call :=
  [.allocateBuffer { streamType := ⟨.raw, by decide⟩, size := 1048576 }, .releaseBuffer 0 ⟨.raw, by decide⟩,
    .allocateBuffer { streamType := ⟨.raw, by decide⟩, size := 4096, secure := true }]

/-- Pool buffers do not always fit their requests. -/
theorem not_fit_securedLater : ¬ StepLaws.Along step RequestFits {} securedLater := by
  rw [requests_fit_iff]
  rintro ⟨-, -, hsafe, -⟩
  have hmode := hsafe.mode (⟨.raw, by decide⟩, ⟨some 0, 1048576, true, ionIommuHeap⟩) (by decide)
  exact absurd hmode (by decide)

end PoolRun

end MemoryPool

end Marlin
