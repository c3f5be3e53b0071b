import Mathlib.Algebra.Group.Int.Defs
import Mathlib.Algebra.GroupWithZero.Nat
import Mathlib.Data.List.Range

/-!
# The Memory of a Stream

`QCamera3StreamMem` has two pools of buffers: those that the HAL allocates on the heap, with the
first indices, and those of the framework, which are registered one by one. Each buffer has the
frame number of the request that it was given for, or -1.

## Conventions

A registration that fails leaves nothing that is read later: the next request for the buffer fails
too, as the model lets it.

## Main results

* `foldl_older`, `getOldestFrameNumber_spec`: what the search for the oldest frame number finds. It
  starts from the number of the first buffer, and does not get away from there where that is -1.
-/

namespace Marlin

open List Option

/-- A registered buffer of the framework. -/
structure GrallocBuffer where
  handle : ℕ
  frameNumber : ℤ := -1
  deriving DecidableEq

/-- `QCamera3StreamMem`, with the frame numbers of the heap buffers. -/
structure StreamMem where
  mMaxHeapBuffers : ℕ
  heap : List ℤ := []
  gralloc : ℕ → Option GrallocBuffer := fun _ => none

/-- `CAM_MAX_NUM_BUFS_PER_STREAM`, which is `MM_CAMERA_MAX_NUM_FRAMES`. -/
def camMaxNumBufsPerStream : ℕ := 64

namespace StreamMem

/-- The indices of the buffers of the framework. -/
def grallocIndices (m : StreamMem) : List ℕ :=
  List.range' m.mMaxHeapBuffers (camMaxNumBufsPerStream - m.mMaxHeapBuffers)

/-- The registered buffers: their frame numbers and their indices. -/
def registered (m : StreamMem) : List (ℤ × ℕ) :=
  m.grallocIndices.filterMap fun i => (m.gralloc i).map fun b => (b.frameNumber, i)

/-- One turn of the loop of `getOldestFrameNumber`. -/
def older : Option (ℤ × ℕ) → ℤ × ℕ → Option (ℤ × ℕ)
  | none, e => some e
  | some o, e => if o.1 > e.1 ∧ e.1 ≠ -1 then some e else some o

/-- `getOldestFrameNumber` of a pool, if it has buffers. -/
def oldest (pool : List (ℤ × ℕ)) : Option (ℤ × ℕ) := pool.foldl older none

/-- `getOldestFrameNumber`: the frame number and the index of its buffer. -/
def getOldestFrameNumber (m : StreamMem) : ℤ × ℕ :=
  match oldest m.heap.zipIdx, oldest m.registered with
  | none, none => (-1, 0)
  | some h, none => h
  | none, some g => g
  | some h, some g => if g.1 < h.1 then g else h

/-- `getFrameNumber`. -/
def getFrameNumber (m : StreamMem) (index : ℕ) : ℤ :=
  if index < m.mMaxHeapBuffers then m.heap.getD index (-1)
  else if index < camMaxNumBufsPerStream then
    (m.gralloc index).elim (-1) GrallocBuffer.frameNumber
  else -1

/-- `markFrameNumber`: whether it succeeds. -/
def markFrameNumber (m : StreamMem) (index : ℕ) (frameNumber : ℤ) : Bool × StreamMem :=
  if index < m.mMaxHeapBuffers then
    if index < m.heap.length then (true, { m with heap := m.heap.set index frameNumber })
    else (false, m)
  else if index < camMaxNumBufsPerStream then
    match m.gralloc index with
    | some b =>
      (true, { m with gralloc :=
        Function.update m.gralloc index (some { b with frameNumber := frameNumber }) })
    | none => (false, m)
  else (false, m)

/-- `getMatchBufIndex`. -/
def getMatchBufIndex (m : StreamMem) (buffer : ℕ) : Option ℕ :=
  m.grallocIndices.find? fun i => (m.gralloc i).any fun b => b.handle == buffer

/-- `registerBuffer` of a buffer that is not registered: whether it succeeds. -/
def registerBuffer (m : StreamMem) (buffer : ℕ) : Bool × StreamMem :=
  if camMaxNumBufsPerStream - 1 - m.mMaxHeapBuffers ≤ m.registered.length then (false, m)
  else
    match m.grallocIndices.find? fun i => (m.gralloc i).isNone with
    | some i =>
      (true, { m with gralloc := Function.update m.gralloc i (some { handle := buffer }) })
    | none => (false, m)

/-- `unregisterBuffer`. -/
def unregisterBuffer (m : StreamMem) (index : ℕ) : StreamMem :=
  if m.mMaxHeapBuffers ≤ index ∧ index < camMaxNumBufsPerStream then
    { m with gralloc := Function.update m.gralloc index none }
  else m

/-! ### The oldest frame number -/

/-- The search from some buffer: it finds one of the pool, and none with a lower number; and it
does not get away from -1. -/
theorem foldl_older (l : List (ℤ × ℕ)) (o : ℤ × ℕ) (hl : ∀ e ∈ o :: l, -1 ≤ e.1) :
    ∃ r ∈ o :: l, l.foldl older (some o) = some r ∧ (o.1 = -1 → r = o) ∧
      (r.1 ≠ -1 → ∀ e ∈ o :: l, e.1 ≠ -1 → r.1 ≤ e.1) := by
  induction l generalizing o with
  | nil =>
    refine ⟨o, mem_cons_self, rfl, fun _ => rfl, fun _ e he _ => ?_⟩
    obtain rfl := mem_singleton.mp he
    exact Int.le_refl _
  | cons e l ih =>
    have ho := hl o mem_cons_self
    have he := hl e (mem_cons_of_mem _ mem_cons_self)
    rw [foldl_cons, older]
    split
    · rename_i hlower
      obtain ⟨r, hr, heq, -, hle⟩ := ih e fun e' he' => hl e' (mem_cons_of_mem _ he')
      refine ⟨r, mem_cons_of_mem _ hr, heq, by omega, fun hne e' he' hne' => ?_⟩
      rcases mem_cons.mp he' with rfl | he'
      · have hre := hle hne e mem_cons_self hlower.2
        omega
      · exact hle hne e' he' hne'
    · rename_i hnot
      have hsub : ∀ e' ∈ o :: l, e' ∈ o :: e :: l := by
        intro e' he'
        rcases mem_cons.mp he' with rfl | he'
        · exact mem_cons_self
        · exact mem_cons_of_mem _ (mem_cons_of_mem _ he')
      obtain ⟨r, hr, heq, hstay, hle⟩ := ih o fun e' he' => hl e' (hsub e' he')
      refine ⟨r, hsub r hr, heq, hstay, fun hne e' he' hne' => ?_⟩
      have hor : o.1 ≠ -1 := fun h => hne (by rw [hstay h, h])
      have hro := hle hne o mem_cons_self hor
      rcases mem_cons.mp he' with rfl | he'
      · exact hro
      · rcases mem_cons.mp he' with rfl | he'
        · omega
        · exact hle hne e' (mem_cons_of_mem _ he') hne'

variable {m : StreamMem}

variable {n : ℤ} {i : ℕ}

theorem mem_registered : (n, i) ∈ m.registered ↔
    i ∈ m.grallocIndices ∧ ∃ b, m.gralloc i = some b ∧ b.frameNumber = n := by
  simp only [registered, mem_filterMap, map_eq_some_iff, Prod.mk.injEq]
  constructor
  · rintro ⟨j, hj, b, hb, hn, rfl⟩
    exact ⟨hj, b, hb, hn⟩
  · rintro ⟨hi, b, hb, hn⟩
    exact ⟨i, hi, b, hb, hn, rfl⟩

theorem mem_grallocIndices : i ∈ m.grallocIndices ↔ m.mMaxHeapBuffers ≤ i ∧ i < camMaxNumBufsPerStream := by
  rw [grallocIndices, mem_range'_1]
  omega

/-- **What the search finds** where no buffer is on the heap: the number of a registered buffer,
and none that is lower. -/
theorem getOldestFrameNumber_spec (hheap : m.heap = []) (hnumbers : ∀ i b, m.gralloc i = some b → -1 ≤ b.frameNumber)
    (hfound : m.getOldestFrameNumber.1 ≠ -1) :
    m.getOldestFrameNumber ∈ m.registered ∧ ∀ e ∈ m.registered, e.1 ≠ -1 → m.getOldestFrameNumber.1 ≤ e.1 := by
  have hall : ∀ e ∈ m.registered, -1 ≤ e.1 := by
    rintro ⟨n, i⟩ he
    obtain ⟨-, b, hb, rfl⟩ := mem_registered.mp he
    exact hnumbers i b hb
  have hempty : oldest m.heap.zipIdx = none := by rw [hheap]; rfl
  cases hpool : m.registered with
  | nil =>
    have hnone : oldest m.registered = none := by rw [hpool]; rfl
    rw [getOldestFrameNumber, hempty, hnone] at hfound
    exact absurd rfl hfound
  | cons e l =>
    rw [hpool] at hall
    obtain ⟨r, hr, heq, -, hle⟩ := foldl_older l e hall
    have hsome : oldest m.registered = some r := by rw [hpool]; exact heq
    have hget : m.getOldestFrameNumber = r := by rw [getOldestFrameNumber, hempty, hsome]
    rw [hget] at hfound ⊢
    exact ⟨hr, hle hfound⟩

/-! ### Frame numbers -/

/-- The registered buffers are in their places, and their numbers are frame numbers or -1; no
buffer is on the heap. -/
structure WellNumbered (m : StreamMem) : Prop where
  heap : m.heap = []
  place : ∀ i b, m.gralloc i = some b → i ∈ m.grallocIndices
  number : ∀ i b, m.gralloc i = some b → -1 ≤ b.frameNumber

theorem getFrameNumber_gralloc (hi : i ∈ m.grallocIndices) :
    m.getFrameNumber i = (m.gralloc i).elim (-1) GrallocBuffer.frameNumber := by
  obtain ⟨hmax, hlt⟩ := mem_grallocIndices.mp hi
  rw [getFrameNumber, if_neg (Nat.not_lt.mpr hmax), if_pos hlt]

theorem number_of_registered (h : (n, i) ∈ m.registered) : m.getFrameNumber i = n := by
  obtain ⟨hi, b, hb, rfl⟩ := mem_registered.mp h
  rw [getFrameNumber_gralloc hi, hb, elim_some]

/-- Nothing else has a frame number. -/
theorem WellNumbered.registered (h : m.WellNumbered) (hi : m.getFrameNumber i ≠ -1) :
    (m.getFrameNumber i, i) ∈ m.registered := by
  rw [getFrameNumber, h.heap] at hi
  split at hi
  · exact absurd rfl hi
  · rename_i hmax
    split at hi
    · rename_i hlt
      have hmem : i ∈ m.grallocIndices := mem_grallocIndices.mpr ⟨Nat.not_lt.mp hmax, hlt⟩
      cases hb : m.gralloc i with
      | none =>
        rw [hb] at hi
        exact absurd rfl hi
      | some b =>
        refine mem_registered.mpr ⟨hmem, b, hb, ?_⟩
        rw [getFrameNumber_gralloc hmem, hb, elim_some]
    · exact absurd rfl hi

theorem WellNumbered.place_of_number (h : m.WellNumbered) (hi : m.getFrameNumber i ≠ -1) : i ∈ m.grallocIndices :=
  (mem_registered.mp (h.registered hi)).1

theorem WellNumbered.nonneg (h : m.WellNumbered) (hi : m.getFrameNumber i ≠ -1) : 0 ≤ m.getFrameNumber i := by
  obtain ⟨-, b, hb, hn⟩ := mem_registered.mp (h.registered hi)
  have hle := h.number i b hb
  omega

/-- The memory with another buffer at an index. -/
def setBuffer (m : StreamMem) (i : ℕ) (b : Option GrallocBuffer) : StreamMem :=
  { m with gralloc := Function.update m.gralloc i b }

@[simp] theorem setBuffer_self (i : ℕ) (b : Option GrallocBuffer) : (m.setBuffer i b).gralloc i = b := by
  simp [setBuffer]

theorem setBuffer_of_ne {j : ℕ} (h : j ≠ i) (b : Option GrallocBuffer) : (m.setBuffer i b).gralloc j = m.gralloc j := by
  simp [setBuffer, h]

theorem getFrameNumber_setBuffer (hi : i ∈ m.grallocIndices) (b : Option GrallocBuffer)
    (j : ℕ) : (m.setBuffer i b).getFrameNumber j =
      if j = i then b.elim (-1) GrallocBuffer.frameNumber else m.getFrameNumber j := by
  split
  · rename_i heq
    rw [heq, getFrameNumber_gralloc (m := m.setBuffer i b) hi, setBuffer_self]
  · rename_i hne
    simp only [getFrameNumber, setBuffer_of_ne hne]
    rfl

theorem WellNumbered.setBuffer (h : m.WellNumbered) (hi : i ∈ m.grallocIndices)
    {b : Option GrallocBuffer} (hb : ∀ b', b = some b' → -1 ≤ b'.frameNumber) :
    (m.setBuffer i b).WellNumbered := by
  refine ⟨h.heap, fun j b' hj => ?_, fun j b' hj => ?_⟩
  · by_cases heq : j = i
    · exact heq ▸ hi
    · exact h.place j b' ((setBuffer_of_ne heq b).symm.trans hj)
  · by_cases heq : j = i
    · rw [heq, setBuffer_self] at hj
      exact hb b' hj
    · exact h.number j b' ((setBuffer_of_ne heq b).symm.trans hj)

theorem markFrameNumber_eq {b : GrallocBuffer} (hi : i ∈ m.grallocIndices) (hb : m.gralloc i = some b) (n : ℤ) :
    m.markFrameNumber i n = (true, m.setBuffer i (some { b with frameNumber := n })) := by
  obtain ⟨hmax, hlt⟩ := mem_grallocIndices.mp hi
  rw [markFrameNumber, if_neg (Nat.not_lt.mpr hmax), if_pos hlt, hb]
  rfl

theorem unregisterBuffer_eq (hi : i ∈ m.grallocIndices) : m.unregisterBuffer i = m.setBuffer i none :=
  if_pos (mem_grallocIndices.mp hi)

theorem registerBuffer_true {buffer : ℕ} (h : (m.registerBuffer buffer).1 = true) :
    ∃ i ∈ m.grallocIndices, m.gralloc i = none ∧
      (m.registerBuffer buffer).2 = m.setBuffer i (some { handle := buffer }) := by
  rw [registerBuffer] at h ⊢
  split at h
  · cases h
  · rename_i hfew
    rw [if_neg hfew]
    cases hfree : m.grallocIndices.find? fun i => (m.gralloc i).isNone with
    | none =>
      rw [hfree] at h
      cases h
    | some i =>
      have hnone := find?_some hfree
      exact ⟨i, mem_of_find?_eq_some hfree, isNone_iff_eq_none.mp hnone, rfl⟩

theorem findIdx?_mark {marks : List ℤ} (hi : marks[i]? = some n)
    (honly : ∀ j, marks[j]? = some n → j = i) : marks.findIdx? (fun k => k == n) = some i := by
  obtain ⟨hlt, hget⟩ := List.getElem?_eq_some_iff.mp hi
  refine findIdx?_eq_some_iff_getElem.mpr ⟨hlt, by simp [hget], fun j hji hj => ?_⟩
  have heq := honly j (List.getElem?_eq_some_iff.mpr ⟨by omega, by simpa using hj⟩)
  omega

theorem getMatchBufIndex_some {buffer : ℕ} (h : m.getMatchBufIndex buffer = some i) :
    i ∈ m.grallocIndices ∧ ∃ b, m.gralloc i = some b ∧ b.handle = buffer := by
  have hany := find?_some h
  obtain ⟨b, hb, hhandle⟩ := (any_eq_true _ _).mp hany
  exact ⟨mem_of_find?_eq_some h, b, hb, eq_of_beq hhandle⟩

end StreamMem

end Marlin
