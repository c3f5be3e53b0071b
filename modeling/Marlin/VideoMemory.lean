import Marlin.CameraMemory
import Marlin.StepLaws

/-!
# The Tables of the Video Memory

`QCameraVideoMemory` has, beside the ION buffers and the camera memories of its base class, a metadata memory and a
native handle for each buffer. The base class counts the buffers it allocates; `allocateMore` of the derived class
then starts at the count that has already moved, and adds to it once more. What `allocate` has got before an allocation
of metadata fails stays.

## Conventions

* Not in batch mode. The memory has no pool, as its constructor says.
* The camera memory of a buffer is the buffer it shows (`ptr` of the base class); its file descriptor is the buffer
  behind it. Metadata memories and native handles are numbered as they are allocated; `freed` lists them as they are
  released.
* Which allocations fail, slot by slot, is taken from the environment.
* A call that follows a `NULL` pointer or leaves a table has no result.

## Main results

* `Inv.law_iff`: when a call does what it should.
* `tables_iff`: for all runs.
* `not_tables_oneMore`: one buffer more is counted twice.
-/

namespace Marlin

namespace VideoMem

open List Function Option QCameraMemory

/-- `media_metadata_buffer`: which one it is, and the native handle that it leads to. -/
structure MetadataBuffer where
  id : ℕ
  meta_handle : Option ℕ := none
  deriving DecidableEq

/-- `native_handle_t`: which one it is, and its data. -/
structure NativeHandle where
  id : ℕ
  fd : Option ℕ := none
  offset : ℤ := 0
  size : ℤ := 0
  usage : ℤ := 0
  timestamp : ℤ := 0
  format : ℤ := 0
  deriving DecidableEq

/-- `QCameraVideoMemory`. -/
structure QCameraVideoMemory where
  base : QCameraMemory := { memClass := .stream none }
  mMetaBufCount : ℕ := 0
  mMetadata : ℕ → Option MetadataBuffer := fun _ => none
  mNativeHandle : ℕ → Option NativeHandle := fun _ => none
  mUsage : ℤ := 0
  mFormat : ℤ := 0

/-- The memory, the ION device, and the metadata memories and native handles so far. -/
structure Video where
  mem : QCameraVideoMemory := {}
  ion : IonMemory := {}
  next : ℕ := 0
  freed : List ℕ := []

/-- What the environment decides: which allocations succeed. -/
structure VideoEnv extends MemEnv where
  metadata : ℕ → Bool := fun _ => true
  handle : ℕ → Bool := fun _ => true

namespace Video

/-- A metadata memory for slot `i`. -/
def newMetadata (s : Video) (i : ℕ) (ok : Bool) : Video :=
  { s with
    mem := { s.mem with mMetadata := Function.update s.mem.mMetadata i (if ok then some { id := s.next } else none) }
    next := if ok then s.next + 1 else s.next }

/-- A native handle for slot `i`; the metadata of the slot leads to it. -/
def newHandle (s : Video) (i : ℕ) (ok : Bool) : Video :=
  { s with
    mem := { s.mem with
      mNativeHandle := Function.update s.mem.mNativeHandle i (if ok then some { id := s.next } else none)
      mMetadata := Function.update s.mem.mMetadata i ((s.mem.mMetadata i).map fun packet =>
        { packet with meta_handle := if ok then some s.next else none }) }
    next := if ok then s.next + 1 else s.next }

/-- `mMetadata[j]->release`. -/
def releaseMetadata (s : Video) (j : ℕ) : Option Video :=
  (s.mem.mMetadata j).map fun packet => { s with freed := s.freed ++ [packet.id] }

/-- `native_handle_delete(mNativeHandle[j])`, if there is one. -/
def deleteHandle (s : Video) (j : ℕ) : Video :=
  { s with freed := s.freed ++ (s.mem.mNativeHandle j).toList.map NativeHandle.id }

/-- What the handle of slot `i` says. -/
def fillHandle (s : Video) (i : ℕ) : Video :=
  { s with mem := { s.mem with
      mNativeHandle := Function.update s.mem.mNativeHandle i ((s.mem.mNativeHandle i).map fun nh =>
        { nh with
          fd := (s.mem.base.memInfo i).buf
          offset := 0
          size := ((s.mem.base.memInfo i).size : ℤ).bmod (2 ^ 32)
          usage := s.mem.mUsage
          timestamp := 0
          format := s.mem.mFormat }) } }

/-- What `allocateMeta` does where the metadata of slot `i` is not allocated. -/
def undoMetadata (s : Video) (i : ℕ) : Option Video :=
  (List.range i).reverse.foldlM (fun s j => (s.deleteHandle j).releaseMetadata j) s

/-- What `allocateMeta` does where the handle of slot `i` is not allocated. -/
def undoHandle (s : Video) (i : ℕ) : Option Video :=
  (List.range i).reverse.foldlM (fun s j => do (← s.releaseMetadata i).deleteHandle j |>.releaseMetadata j) s

/-- The loop of `allocateMeta`, from slot `i` on. -/
def allocateMetaLoop (env : VideoEnv) : ℕ → ℕ → Video → Option (MemRc × Video)
  | 0, _, s => some (.ok, s)
  | n + 1, i, s =>
    let s := s.newMetadata i (env.metadata i)
    if env.metadata i = false then (s.undoMetadata i).map fun s => (.noMemory, s)
    else
      let s := s.newHandle i (env.handle i)
      if env.handle i = false then (s.undoHandle i).map fun s => (.noMemory, s)
      else allocateMetaLoop env n (i + 1) s

/-- `allocateMeta`. -/
def allocateMeta (s : Video) (env : VideoEnv) (buf_cnt : ℕ) : Option (MemRc × Video) :=
  (allocateMetaLoop env buf_cnt 0 s).map fun r =>
    if r.1 = .ok then (.ok, { r.2 with mem := { r.2.mem with mMetaBufCount := buf_cnt } }) else r

/-- The memory and the device after a call of the base class. -/
def withBase (s : Video) (r : QCameraMemory × IonMemory) : Video :=
  { s with mem := { s.mem with base := r.1 }, ion := r.2 }

/-- The loop that fills the handles. -/
def fillLoop : ℕ → ℕ → Video → MemRc × Video
  | 0, _, s => (.ok, s)
  | n + 1, i, s =>
    match s.mem.mNativeHandle i with
    | none => (.noMemory, s)
    | some _ => fillLoop n (i + 1) (s.fillHandle i)

/-- `mBufferCount` is set. -/
def setCount (s : Video) (count : ℕ) : Video :=
  { s with mem := { s.mem with base := { s.mem.base with bufferCount := count } } }

/-- `allocate`. -/
def allocate (s : Video) (env : VideoEnv) (count size : ℕ) (isSecure : Bool) : Option (MemRc × Video) :=
  match streamAllocate (s.mem.base, s.ion) env.toMemEnv count size isSecure with
  | (.ok, r) => do
      match ← (s.withBase r).allocateMeta env count with
      | (.ok, s) =>
        match fillLoop count 0 s with
        | (.ok, s) => some (.ok, s.setCount count)
        | failed => some failed
      | failed => some failed
  | (rc, r) => some (rc, s.withBase r)

/-- `mCameraMemory[j]->release`, and the buffer of slot `j` is freed. -/
def freeSlot (s : Video) (j : ℕ) : Option Video :=
  (s.mem.base.ptr j).map fun _ => s.withBase (giveBack (s.mem.base.unmap [j], s.ion) j)

/-- What `allocateMore` does where the metadata of slot `i` is not allocated. -/
def undoMore (s : Video) (start i : ℕ) : Option Video :=
  (List.range' start (i - start)).foldlM (fun s j => do (← s.releaseMetadata j).freeSlot j) s

/-- The loop of `allocateMore`, from slot `i` on; it started at `start`. -/
def allocateMoreLoop (env : VideoEnv) (start : ℕ) : ℕ → ℕ → Video → Option (MemRc × Video)
  | 0, _, s => some (.ok, s)
  | n + 1, i, s =>
    if mmCameraMaxNumFrames ≤ i then none
    else
      let s := s.newMetadata i (env.metadata i)
      if env.metadata i = false then (s.undoMore start i).map fun s => (.noMemory, s)
      else
        let s := s.newHandle i (env.handle i)
        if env.handle i = false then some (.noMemory, s)
        else allocateMoreLoop env start n (i + 1) (s.fillHandle i)

/-- `allocateMore`. -/
def allocateMore (s : Video) (env : VideoEnv) (count size : ℕ) : Option (MemRc × Video) :=
  match streamAllocateMore (s.mem.base, s.ion) env.toMemEnv count size with
  | (.ok, r) =>
    let s := s.withBase r
    let start := s.mem.base.bufferCount
    (allocateMoreLoop env start count start s).map fun
      | (.ok, s) =>
        let s := s.setCount ((s.mem.base.bufferCount + count) % 256)
        (.ok, { s with mem := { s.mem with mMetaBufCount := s.mem.base.bufferCount } })
      | failed => failed
  | (rc, r) => some (rc, s.withBase r)

/-- One slot of `deallocateMeta`. -/
def deallocateMetaSlot (s : Video) (i : ℕ) : Option Video :=
  ((s.deleteHandle i).releaseMetadata i).map fun s =>
    { s with mem := { s.mem with
        mNativeHandle := Function.update s.mem.mNativeHandle i none
        mMetadata := Function.update s.mem.mMetadata i none } }

/-- `deallocateMeta`. -/
def deallocateMeta (s : Video) : Option Video :=
  ((List.range s.mem.mMetaBufCount).foldlM deallocateMetaSlot s).map fun s =>
    { s with mem := { s.mem with mMetaBufCount := 0 } }

/-- `deallocate`. -/
def deallocate (s : Video) : Option Video :=
  s.deallocateMeta.map fun s => s.withBase (QCameraMemory.deallocate (s.mem.base, s.ion))

end Video

/-- The calls; a count is a `uint8_t`. -/
inductive VideoCall
  | allocate (count : Fin 256) (size : ℕ) (isSecure : Bool) (env : VideoEnv)
  | allocateMore (count : Fin 256) (size : ℕ) (env : VideoEnv)
  | deallocate

namespace Video

/-- A call, with its answer. -/
def call (s : Video) : VideoCall → Option (MemRc × Video)
  | .allocate count size isSecure env => s.allocate env count size isSecure
  | .allocateMore count size env => s.allocateMore env count size
  | .deallocate => s.deallocate.map fun s => (.ok, s)

/-- One step; nothing comes after a call without a result. -/
def step (s : Video) (c : VideoCall) : Video := ((s.call c).map Prod.snd).getD s

/-- How many ION buffers were allocated and are neither freed nor in a pool. -/
def ionHeld (w : IonMemory) : ℕ :=
  ((List.range w.next).filter fun b => decide (b ∉ w.freed ∧ b ∉ w.pool.filterMap (·.2.buf))).length

/-- **The tables**: each buffer has a camera memory, metadata and a native handle with its descriptor and size. -/
structure Tables (s : Video) : Prop where
  ion : ionHeld s.ion = s.mem.base.bufferCount
  metaCount : s.mem.mMetaBufCount = s.mem.base.bufferCount
  camera : ∀ i < s.mem.base.bufferCount, ∃ b, (s.mem.base.memInfo i).buf = some b ∧ s.mem.base.ptr i = some b
  metadata : ∀ i < s.mem.base.bufferCount, (s.mem.mMetadata i).isSome = true
  handle : ∀ i < s.mem.base.bufferCount, ∃ nh, s.mem.mNativeHandle i = some nh ∧
    nh.fd = (s.mem.base.memInfo i).buf ∧ nh.size = (s.mem.base.memInfo i).size

/-- **A call that failed**: the tables are as they were, each ION buffer that was allocated was freed once, and so
was each metadata memory and each native handle. -/
structure Undone (s t : Video) : Prop where
  base : Unchanged s.mem.base t.mem.base
  metaCount : t.mem.mMetaBufCount = s.mem.mMetaBufCount
  metadata : ∀ i < s.mem.mMetaBufCount, t.mem.mMetadata i = s.mem.mMetadata i ∧
    t.mem.mNativeHandle i = s.mem.mNativeHandle i
  camera : t.mem.base.ptr = s.mem.base.ptr
  ion : ∀ b, balance (t.mem.base, t.ion) (List.range t.mem.base.bufferCount) b =
    balance (s.mem.base, s.ion) (List.range s.mem.base.bufferCount) b
  freed : ∀ b, t.freed.count b = s.freed.count b + if s.next ≤ b ∧ b < t.next then 1 else 0

/-- **What a call should do.** -/
def Law (s : Video) (c : VideoCall) : Prop :=
  ∃ rc t, s.call c = some (rc, t) ∧ t.Tables ∧ (rc ≠ .ok → s.Undone t)

/-- The ION allocations of a call succeed. -/
def IonSucceeds (s : Video) (env : VideoEnv) (count : ℕ) : Prop :=
  ∀ i, s.mem.base.bufferCount ≤ i → i < s.mem.base.bufferCount + count → env.ion i = true

/-- **The condition**: `allocate` is for a memory without buffers, which is not secured, and either ION or nothing
fails; and the size of a buffer fits in an `int`. `allocateMore` gets nothing, but from ION where there are no buffers
to lose. -/
def Safe (s : Video) : VideoCall → Prop
  | .allocate count size isSecure env =>
    mmCameraMaxNumFrames < s.mem.base.bufferCount + count ∨ s.mem.base.bufferCount = 0 ∧
        (count.val = 0 ∨ ¬ s.IonSucceeds env count ∨ isSecure = false ∧ IonMemory.ionLength size false < 2 ^ 31 ∧
            ∀ i < count.val, env.map i = true ∧ env.metadata i = true ∧ env.handle i = true)
  | .allocateMore count _ env =>
    mmCameraMaxNumFrames < s.mem.base.bufferCount + count ∨ count.val = 0 ∨
      s.mem.base.bufferCount = 0 ∧ ¬ s.IonSucceeds env count
  | .deallocate => True

/-- **The invariant**: the tables are right, and each ION buffer is in one slot or was freed once. -/
structure Inv (s : Video) : Prop where
  tables : s.Tables
  memClass : s.mem.base.memClass = .stream none
  room : s.mem.base.bufferCount ≤ mmCameraMaxNumFrames
  owned : ∀ b, balance (s.mem.base, s.ion) (List.range s.mem.base.bufferCount) b = 0

end Video

/-! ### The base class without a pool -/

section Base

variable {o : QCameraMemory} {w : IonMemory} {r : QCameraMemory × IonMemory} {env : MemEnv} {size i j : ℕ}
  {secure : Bool} {slots : List ℕ}

theorem allocSlot_noPool {o' : QCameraMemory} {w' : IonMemory} (hclass : o.memClass = .stream none)
    (h : o.allocSlot w env size secure i = some (o', w')) :
    o'.memClass = .stream none ∧ (∀ j, j ≠ i → o'.memInfo j = o.memInfo j) ∧
      (o'.memInfo i).buf = some w.next ∧ (o'.memInfo i).size = IonMemory.ionLength size secure := by
  rw [allocSlot, hclass] at h
  simp only [IonMemory.allocOneBuffer] at h
  split at h
  · cases h
    exact ⟨rfl, fun j hj => if_neg hj, by simp, by simp⟩
  · cases h

theorem giveBack_noPool (hclass : r.1.memClass = .stream none) (i : ℕ) :
    (giveBack r i).1.memClass = .stream none ∧ ((giveBack r i).1.memInfo i).buf = none ∧
      ∀ j, (r.1.memInfo j).buf = none → ((giveBack r i).1.memInfo j).buf = none := by
  unfold giveBack
  rw [hclass]
  refine ⟨hclass, by simp, fun j hj => ?_⟩
  by_cases hji : j = i
  · simp [hji]
  · simp [hji, hj]

theorem giveBackAll_noPool (slots : List ℕ) (hclass : r.1.memClass = .stream none) :
    (giveBackAll r slots).1.memClass = .stream none ∧
      (∀ j, (r.1.memInfo j).buf = none → ((giveBackAll r slots).1.memInfo j).buf = none) ∧
      ∀ j ∈ slots, ((giveBackAll r slots).1.memInfo j).buf = none := by
  induction slots generalizing r with
  | nil => exact ⟨hclass, fun _ h => h, forall_mem_nil _⟩
  | cons i slots ih =>
    obtain ⟨hclass', hi, hkeep⟩ := giveBack_noPool hclass i
    obtain ⟨hclass'', hkeep', hslots⟩ := ih hclass'
    exact ⟨hclass'', fun j hj => hkeep' j (hkeep j hj), forall_mem_cons.2 ⟨hkeep' i hi, hslots⟩⟩

/-- **The loop of `alloc`**: the new slots are filled, or no slot has a buffer any more. -/
theorem allocLoop_noPool (n i : ℕ) {rc : MemRc} {r' : QCameraMemory × IonMemory}
    (hclass : r.1.memClass = .stream none) (h : allocLoop env size secure n i r = (rc, r')) :
    r'.1.memClass = .stream none ∧
    ((rc = .ok ∧ (∀ j < i, r'.1.memInfo j = r.1.memInfo j) ∧
        ∀ j, i ≤ j → j < i + n → (r'.1.memInfo j).buf.isSome = true ∧
          (r'.1.memInfo j).size = IonMemory.ionLength size secure) ∨
      (rc = .noMemory ∧ ∀ j < i, (r'.1.memInfo j).buf = none)) := by
  induction n generalizing i r with
  | zero =>
    cases h
    exact ⟨hclass, .inl ⟨rfl, fun _ _ => rfl, fun j hle hlt => by omega⟩⟩
  | succ n ih =>
    rw [allocLoop] at h
    split at h
    · rename_i r₁ hslot
      obtain ⟨hclass₁, hother, hbuf, hsize⟩ := allocSlot_noPool hclass hslot
      obtain ⟨hclass', ⟨rfl, hbelow, hnew⟩ | ⟨rfl, hnone⟩⟩ := ih (i + 1) hclass₁ h
      · refine ⟨hclass', .inl ⟨rfl, fun j hj => ?_, fun j hle hlt => ?_⟩⟩
        · exact (hbelow j (by omega)).trans (hother j (by omega))
        · by_cases hji : j = i
          · rw [hbelow j (by omega), hji, hbuf]
            exact ⟨rfl, hsize⟩
          · exact hnew j (by omega) (by omega)
      · exact ⟨hclass', .inr ⟨rfl, fun j hj => hnone j (by omega)⟩⟩
    · cases h
      obtain ⟨hclass', -, hslots⟩ := giveBackAll_noPool (range i).reverse hclass
      exact ⟨hclass', .inr ⟨rfl, fun j hj => hslots j (mem_reverse.2 (mem_range.2 hj))⟩⟩

theorem getMemory_ptr_of_notMem (o : QCameraMemory) (env : MemEnv) (secure : Bool) (h : i ∉ slots) :
    (o.getMemory env secure slots).ptr i = o.ptr i := if_neg h

theorem ionHeld_eq {n : ℕ} (hbalance : ∀ b, balance (o, w) (List.range n) b = 0)
    (hslots : ∀ i < n, (o.memInfo i).buf.isSome = true) : Video.ionHeld w = n := by
  have hlength : (o.heldOn (range n)).length = n := by
    rw [heldOn, length_filterMap_eq_countP, countP_eq_length.2, length_range]
    exact fun i hi => hslots i (mem_range.1 hi)
  have hperm : (o.heldOn (range n)).Perm
      ((range w.next).filter fun b => decide (b ∉ w.freed ∧ b ∉ w.pool.filterMap (·.2.buf))) := by
    rw [perm_iff_count]
    intro b
    have hb := hbalance b
    simp only [balance] at hb
    by_cases hheld : b < w.next ∧ b ∉ w.freed ∧ b ∉ w.pool.filterMap (·.2.buf)
    · obtain ⟨hlt, hfreed, hpool⟩ := hheld
      rw [count_filter (by simp [hfreed, hpool]), count_eq_one_of_mem nodup_range (mem_range.2 hlt)]
      rw [if_pos hlt, count_eq_zero.2 hfreed, count_eq_zero.2 hpool] at hb
      omega
    · have hnot : b ∉ (range w.next).filter
          fun b => decide (b ∉ w.freed ∧ b ∉ w.pool.filterMap (·.2.buf)) := fun hmem => by
        obtain ⟨hrange, hp⟩ := mem_filter.1 hmem
        exact hheld ⟨mem_range.1 hrange, of_decide_eq_true hp⟩
      rw [count_eq_zero.2 hnot]
      split at hb
      · rename_i hlt
        -- it was freed, or it is in the pool
        rw [not_and, not_and_or, not_not, not_not] at hheld
        have hpos : 0 < w.freed.count b + (w.pool.filterMap (·.2.buf)).count b :=
          (hheld hlt).elim (fun h => Nat.add_pos_left (count_pos_iff.2 h) _)
            fun h => Nat.add_pos_right _ (count_pos_iff.2 h)
        omega
      · omega
  rw [Video.ionHeld, ← hperm.length_eq, hlength]

/-- What is left alone where the base class gets buffers, and where it does not. -/
structure SameFrame (o o' : QCameraMemory) : Prop where
  bufferCount : o'.bufferCount = o.bufferCount
  ptr : o'.ptr = o.ptr
  memClass : o'.memClass = .stream none

/-- The new slots have got their buffers. -/
structure Got (r r' : QCameraMemory × IonMemory) (count size : ℕ) (secure : Bool) : Prop extends
    SameFrame r.1 r'.1 where
  below : ∀ j < r.1.bufferCount, r'.1.memInfo j = r.1.memInfo j
  buf : ∀ j, r.1.bufferCount ≤ j → j < r.1.bufferCount + count → (r'.1.memInfo j).buf.isSome = true
  size_eq : ∀ j, r.1.bufferCount ≤ j → j < r.1.bufferCount + count →
    (r'.1.memInfo j).size = IonMemory.ionLength size secure
  balance_eq : ∀ b, balance r' (List.range (r.1.bufferCount + count)) b = balance r (List.range r.1.bufferCount) b

/-- No slot has a buffer any more. -/
structure Lost (r r' : QCameraMemory × IonMemory) : Prop extends SameFrame r.1 r'.1 where
  buf : ∀ j < r.1.bufferCount, (r'.1.memInfo j).buf = none
  balance_eq : ∀ b, balance r' [] b = balance r (List.range r.1.bufferCount) b

/-- **`alloc` without a pool**: all new slots get buffers, or no slot has one any more. -/
theorem alloc_noPool (r : QCameraMemory × IonMemory) (count : ℕ) (hclass : r.1.memClass = .stream none)
    (hroom : r.1.bufferCount + count ≤ mmCameraMaxNumFrames) (env : MemEnv) (size : ℕ) (secure : Bool) :
    ∃ r', (alloc r env count size secure = (.ok, r') ∧ Got r r' count size secure ∧
        ∀ i, r.1.bufferCount ≤ i → i < r.1.bufferCount + count → env.ion i = true) ∨
      alloc r env count size secure = (.noMemory, r') ∧ Lost r r' ∧
        ¬ ∀ i, r.1.bufferCount ≤ i → i < r.1.bufferCount + count → env.ion i = true := by
  have hpooled : pooled r.1 r.2 size = 0 := by
    unfold pooled
    rw [hclass]
  have hion := @alloc_ok_iff env size secure r count hroom
  rw [IonOk, hpooled, Nat.add_zero] at hion
  obtain ⟨hfull, -⟩ | ⟨-, r', hcount, hptr, hcases⟩ := alloc_cases r env count size secure
  · omega
  · have hloop : ∀ rc, alloc r env count size secure = (rc, r') →
        allocLoop env size secure count r.1.bufferCount r = (rc, r') := fun rc h => by
      rwa [alloc, if_neg (Nat.not_lt.2 hroom)] at h
    obtain ⟨heq, hbal⟩ | ⟨heq, hbal⟩ := hcases
    · obtain ⟨hclass', hslots⟩ := allocLoop_noPool _ _ hclass (hloop _ heq)
      obtain ⟨-, hbelow, hnew⟩ := hslots.resolve_right fun h => by cases h.1
      exact ⟨r', .inl ⟨heq, ⟨⟨hcount, hptr, hclass'⟩, hbelow, fun j hle hlt => (hnew j hle hlt).1,
        fun j hle hlt => (hnew j hle hlt).2, hbal⟩, hion.1 (by rw [heq])⟩⟩
    · obtain ⟨hclass', hslots⟩ := allocLoop_noPool _ _ hclass (hloop _ heq)
      obtain ⟨-, hnone⟩ := hslots.resolve_left fun h => by cases h.1
      refine ⟨r', .inr ⟨heq, ⟨⟨hcount, hptr, hclass'⟩, hnone, hbal⟩, fun hall => ?_⟩⟩
      have hok := hion.2 hall
      rw [heq] at hok
      cases hok

end Base

/-! ### The loops -/

namespace Video

variable {s t u : Video} {env : VideoEnv} {i j n start : ℕ} {rc : MemRc}

theorem foldlM_relates {α : Type*} {R : Video → Video → Prop} (hrefl : ∀ s, R s s)
    (htrans : ∀ s t u, R s t → R t u → R s u) {f : Video → α → Option Video}
    (hf : ∀ s a t, f s a = some t → R s t) {as : List α} (h : as.foldlM f s = some t) : R s t := by
  induction as generalizing s with
  | nil =>
    cases h
    exact hrefl _
  | cons a as ih =>
    rw [foldlM_cons] at h
    obtain ⟨u, hu, hrest⟩ := bind_eq_some_iff.1 h
    exact htrans s u t (hf s a u hu) (ih hrest)

/-- Nothing but metadata and native handles has changed. -/
structure OnlyMeta (s t : Video) : Prop where
  base : t.mem.base = s.mem.base
  ion : t.ion = s.ion
  metaCount : t.mem.mMetaBufCount = s.mem.mMetaBufCount

theorem OnlyMeta.refl (s : Video) : OnlyMeta s s := ⟨rfl, rfl, rfl⟩

theorem OnlyMeta.trans (h : OnlyMeta s t) (h' : OnlyMeta t u) : OnlyMeta s u :=
  ⟨h'.base.trans h.base, h'.ion.trans h.ion, h'.metaCount.trans h.metaCount⟩

theorem onlyMeta_newMetadata (s : Video) (i : ℕ) (ok : Bool) : OnlyMeta s (s.newMetadata i ok) := ⟨rfl, rfl, rfl⟩

theorem onlyMeta_newHandle (s : Video) (i : ℕ) (ok : Bool) : OnlyMeta s (s.newHandle i ok) := ⟨rfl, rfl, rfl⟩

theorem onlyMeta_fillHandle (s : Video) (i : ℕ) : OnlyMeta s (s.fillHandle i) := ⟨rfl, rfl, rfl⟩

theorem onlyMeta_deleteHandle (s : Video) (j : ℕ) : OnlyMeta s (s.deleteHandle j) := ⟨rfl, rfl, rfl⟩

theorem onlyMeta_releaseMetadata (h : s.releaseMetadata j = some t) : OnlyMeta s t := by
  obtain ⟨packet, -, rfl⟩ := map_eq_some_iff.1 h
  exact ⟨rfl, rfl, rfl⟩

theorem onlyMeta_undoMetadata (h : s.undoMetadata i = some t) : OnlyMeta s t :=
  foldlM_relates OnlyMeta.refl (fun _ _ _ => OnlyMeta.trans)
    (fun s j _ hstep => (onlyMeta_deleteHandle s j).trans (onlyMeta_releaseMetadata hstep)) h

theorem onlyMeta_undoHandle (h : s.undoHandle i = some t) : OnlyMeta s t := by
  refine foldlM_relates OnlyMeta.refl (fun _ _ _ => OnlyMeta.trans) (fun s j t hstep => ?_) h
  obtain ⟨u, hu, hrest⟩ := bind_eq_some_iff.1 hstep
  exact (onlyMeta_releaseMetadata hu).trans ((onlyMeta_deleteHandle u j).trans (onlyMeta_releaseMetadata hrest))

/-- The slot has metadata and a native handle. -/
def HasMeta (s : Video) (j : ℕ) : Prop := (s.mem.mMetadata j).isSome = true ∧ (s.mem.mNativeHandle j).isSome = true

theorem hasMeta_new (s : Video) (i : ℕ) : ((s.newMetadata i true).newHandle i true).HasMeta i := by
  simp [HasMeta, newMetadata, newHandle]

theorem hasMeta_new_of_ne (h : j ≠ i) (ok ok' : Bool) :
    ((s.newMetadata i ok).newHandle i ok').HasMeta j ↔ s.HasMeta j := by
  simp [HasMeta, newMetadata, newHandle, h]

/-- **The loop of `allocateMeta`**: each slot has metadata and a handle then, or one of them was not allocated. -/
theorem allocateMetaLoop_spec (h : allocateMetaLoop env n i s = some (rc, t)) : OnlyMeta s t ∧
    ((rc = .ok ∧ (∀ j, i ≤ j → j < i + n → env.metadata j = true ∧ env.handle j = true ∧ t.HasMeta j) ∧
        ∀ j < i, s.HasMeta j → t.HasMeta j) ∨
      (rc ≠ .ok ∧ ∃ j, i ≤ j ∧ j < i + n ∧ (env.metadata j = false ∨ env.handle j = false))) := by
  induction n generalizing i s with
  | zero =>
    cases h
    exact ⟨.refl _, .inl ⟨rfl, fun j hle hlt => by omega, fun _ _ hj => hj⟩⟩
  | succ n ih =>
    rw [allocateMetaLoop] at h
    cases hmetadata : env.metadata i with
    | false =>
      rw [if_pos hmetadata] at h
      obtain ⟨u, hu, heq⟩ := map_eq_some_iff.1 h
      cases heq
      exact ⟨(onlyMeta_newMetadata s i _).trans (onlyMeta_undoMetadata hu),
        .inr ⟨nofun, i, Nat.le_refl i, by omega, .inl hmetadata⟩⟩
    | true =>
      rw [hmetadata, if_neg (by decide)] at h
      dsimp only at h
      cases hhandle : env.handle i with
      | false =>
        rw [hhandle, if_pos rfl] at h
        obtain ⟨u, hu, heq⟩ := map_eq_some_iff.1 h
        cases heq
        exact ⟨((onlyMeta_newMetadata s i _).trans (onlyMeta_newHandle _ i _)).trans (onlyMeta_undoHandle hu),
          .inr ⟨nofun, i, Nat.le_refl i, by omega, .inr hhandle⟩⟩
      | true =>
        rw [hhandle, if_neg (by decide)] at h
        obtain ⟨honly, hcases⟩ := ih h
        refine ⟨((onlyMeta_newMetadata s i _).trans (onlyMeta_newHandle _ i _)).trans honly, ?_⟩
        obtain ⟨rfl, hall, hkeep⟩ | ⟨hrc, j, hle, hlt, hj⟩ := hcases
        · refine .inl ⟨rfl, fun j hle hlt => ?_, fun j hj hs => ?_⟩
          · by_cases hji : j = i
            · rw [hji]
              exact ⟨hmetadata, hhandle, hkeep i (Nat.lt_succ_self i) (hasMeta_new s i)⟩
            · exact hall j (by omega) (by omega)
          · exact hkeep j (by omega) ((hasMeta_new_of_ne (by omega) true true).2 hs)
        · exact .inr ⟨hrc, j, by omega, by omega, hj⟩

theorem allocateMetaLoop_ok (h : ∀ j, i ≤ j → j < i + n → env.metadata j = true ∧ env.handle j = true) :
    ∃ t, allocateMetaLoop env n i s = some (.ok, t) := by
  induction n generalizing i s with
  | zero => exact ⟨s, rfl⟩
  | succ n ih =>
    obtain ⟨hmetadata, hhandle⟩ := h i (Nat.le_refl i) (by omega)
    obtain ⟨t, ht⟩ := ih (i := i + 1) (s := (s.newMetadata i true).newHandle i true) fun j hle hlt =>
      h j (by omega) (by omega)
    refine ⟨t, ?_⟩
    rw [allocateMetaLoop, hmetadata, if_neg (by decide)]
    dsimp only
    rw [hhandle, if_neg (by decide)]
    exact ht

/-- The native handle of the slot says what the buffer is. -/
def Filled (s : Video) (j : ℕ) : Prop :=
  ∃ nh, s.mem.mNativeHandle j = some nh ∧ nh.fd = (s.mem.base.memInfo j).buf ∧
    nh.size = ((s.mem.base.memInfo j).size : ℤ).bmod (2 ^ 32)

theorem fillLoop_spec (h : ∀ j, i ≤ j → j < i + n → s.HasMeta j) :
    ∃ t, fillLoop n i s = (.ok, t) ∧ OnlyMeta s t ∧ t.mem.mMetadata = s.mem.mMetadata ∧
      (∀ j, i ≤ j → j < i + n → t.Filled j) ∧ ∀ j < i, t.mem.mNativeHandle j = s.mem.mNativeHandle j := by
  induction n generalizing i s with
  | zero => exact ⟨s, rfl, .refl s, rfl, fun j hle hlt => by omega, fun _ _ => rfl⟩
  | succ n ih =>
    obtain ⟨nh, hnh⟩ := isSome_iff_exists.1 (h i (Nat.le_refl i) (by omega)).2
    have hrest : ∀ j, i + 1 ≤ j → j < i + 1 + n → (s.fillHandle i).HasMeta j := fun j hle hlt => by
      have hj := h j (by omega) (by omega)
      refine ⟨hj.1, ?_⟩
      simp only [fillHandle, update_of_ne (show j ≠ i by omega)]
      exact hj.2
    obtain ⟨t, ht, honly, hmetadata, hfilled, hkeep⟩ := ih hrest
    refine ⟨t, ?_, (onlyMeta_fillHandle s i).trans honly, hmetadata, fun j hle hlt => ?_, fun j hj => ?_⟩
    · rw [fillLoop, hnh]
      exact ht
    · by_cases hji : j = i
      · subst hji
        have hself : t.mem.mNativeHandle j = (s.fillHandle j).mem.mNativeHandle j := hkeep j (Nat.lt_succ_self j)
        unfold Filled
        rw [hself, honly.base]
        simp [fillHandle, hnh]
      · exact hfilled j (by omega) (by omega)
    · rw [hkeep j (by omega)]
      exact update_of_ne (by omega) ..

theorem undoMore_count (h : s.undoMore start i = some t) : t.mem.base.bufferCount = s.mem.base.bufferCount := by
  refine foldlM_relates (R := fun s t => t.mem.base.bufferCount = s.mem.base.bufferCount) (fun _ => rfl)
    (fun _ _ _ h h' => h'.trans h) (fun s j t hstep => ?_) h
  obtain ⟨u, hu, hrest⟩ := bind_eq_some_iff.1 hstep
  obtain ⟨b, -, rfl⟩ := map_eq_some_iff.1 hrest
  have hback := (giveBackAll_frame (u.mem.base.unmap [j], u.ion) [j]).1
  have hbase := congrArg QCameraMemory.bufferCount (onlyMeta_releaseMetadata hu).base
  exact hback.trans hbase

/-- **The loop of `allocateMore`**: the count of the base class stays, and where the loop succeeds so does all of the
base class. -/
theorem allocateMoreLoop_spec (h : allocateMoreLoop env start n i s = some (rc, t)) :
    t.mem.base.bufferCount = s.mem.base.bufferCount ∧ (rc = .ok → OnlyMeta s t) := by
  induction n generalizing i s with
  | zero =>
    cases h
    exact ⟨rfl, fun _ => .refl _⟩
  | succ n ih =>
    rw [allocateMoreLoop] at h
    split at h
    · cases h
    · dsimp only at h
      split at h
      · obtain ⟨u, hu, heq⟩ := map_eq_some_iff.1 h
        cases heq
        have hcount := undoMore_count hu
        exact ⟨hcount, nofun⟩
      · split at h
        · cases h
          exact ⟨rfl, nofun⟩
        · obtain ⟨hcount, honly⟩ := ih h
          exact ⟨hcount, fun hok => ⟨(honly hok).base, (honly hok).ion, (honly hok).metaCount⟩⟩

/-! ### The calls -/

variable {count size : ℕ} {isSecure : Bool}

theorem Undone.refl (s : Video) : s.Undone s :=
  ⟨⟨rfl, fun _ _ => ⟨rfl, rfl⟩⟩, rfl, fun _ _ => ⟨rfl, rfl⟩, rfl, fun _ => rfl, fun b => by
    rw [if_neg (by omega), Nat.add_zero]⟩

theorem allocate_refused (h : mmCameraMaxNumFrames < s.mem.base.bufferCount + count) :
    s.allocate env count size isSecure = some (.badIndex, s) := by
  unfold Video.allocate streamAllocate QCameraMemory.alloc
  rw [if_pos h]
  rfl

theorem allocateMore_refused (h : mmCameraMaxNumFrames < s.mem.base.bufferCount + count) :
    s.allocateMore env count size = some (.badIndex, s) := by
  unfold Video.allocateMore streamAllocateMore QCameraMemory.alloc
  rw [if_pos h]
  rfl

/-- The memory after the base class got its buffers. -/
def gotBuffers (s : Video) (r : QCameraMemory × IonMemory) (env : VideoEnv) (count : ℕ) (isSecure : Bool) : Video :=
  s.withBase ({ r.1.getMemory env.toMemEnv isSecure (List.range count) with bufferCount := count }, r.2)

variable {r : QCameraMemory × IonMemory}

theorem allocate_got (h : alloc (s.mem.base, s.ion) env.toMemEnv count size isSecure = (.ok, r)) :
    s.allocate env count size isSecure = (do
      match ← (s.gotBuffers r env count isSecure).allocateMeta env count with
      | (.ok, s) =>
        match fillLoop count 0 s with
        | (.ok, s) => some (.ok, s.setCount count)
        | failed => some failed
      | failed => some failed) := by
  unfold Video.allocate streamAllocate
  rw [h]
  rfl

theorem allocate_none (h : alloc (s.mem.base, s.ion) env.toMemEnv count size isSecure = (.noMemory, r)) :
    s.allocate env count size isSecure = some (.noMemory, s.withBase r) := by
  unfold Video.allocate streamAllocate
  rw [h]

theorem allocateMore_none (h : alloc (s.mem.base, s.ion) env.toMemEnv count size false = (.noMemory, r)) :
    s.allocateMore env count size = some (.noMemory, s.withBase r) := by
  unfold Video.allocateMore streamAllocateMore
  rw [h]

theorem Inv.failed (h : s.Inv) (hempty : s.mem.base.bufferCount = 0)
    (hlost : Lost (s.mem.base, s.ion) r) : (s.withBase r).Inv ∧ s.Undone (s.withBase r) := by
  have hzero : r.1.bufferCount = 0 := hlost.bufferCount.trans hempty
  have hmeta : s.mem.mMetaBufCount = 0 := h.tables.metaCount.trans hempty
  have hbalance : ∀ b, balance (r.1, r.2) (range r.1.bufferCount) b = 0 := fun b => by
    rw [hzero]
    exact (hlost.balance_eq b).trans (h.owned b)
  have hnone : ∀ i, ¬ i < r.1.bufferCount := fun i hi => by omega
  refine ⟨⟨⟨?_, hmeta.trans hzero.symm, fun i hi => absurd hi (hnone i), fun i hi => absurd hi (hnone i),
    fun i hi => absurd hi (hnone i)⟩, hlost.memClass, Nat.le_trans (Nat.le_of_eq hzero) (Nat.zero_le _), hbalance⟩,
    ⟨hlost.bufferCount, fun i hi => by omega⟩, rfl, fun i hi => ⟨rfl, rfl⟩, hlost.ptr, fun b => ?_, fun b => ?_⟩
  · exact ionHeld_eq hbalance fun i hi => absurd hi (hnone i)
  · exact (hbalance b).trans (h.owned b).symm
  · change s.freed.count b = s.freed.count b + if s.next ≤ b ∧ b < s.next then 1 else 0
    rw [if_neg (by omega), Nat.add_zero]

theorem Inv.held (h : s.Inv) {secure : Bool}
    (hgot : Got (s.mem.base, s.ion) r count size secure) : ionHeld r.2 = s.mem.base.bufferCount + count := by
  refine ionHeld_eq (o := r.1) (fun b => (hgot.balance_eq b).trans (h.owned b)) fun i hi => ?_
  obtain hlt | hle := Nat.lt_or_ge i s.mem.base.bufferCount
  · obtain ⟨b, hb, -⟩ := h.tables.camera i hlt
    rw [hgot.below i hlt, hb]
    rfl
  · exact hgot.buf i hle hi

theorem bmod_eq {n : ℕ} (h : n < 2 ^ 31) : (n : ℤ).bmod (2 ^ 32) = n := by
  rw [Int.bmod_def]
  omega

theorem lt_of_bmod_eq {n : ℕ} (h : (n : ℤ).bmod (2 ^ 32) = n) : n < 2 ^ 31 := by
  rw [Int.bmod_def] at h
  omega

/-- **`allocate`, where the base class gets its buffers**: the slots are filled if nothing else fails. -/
theorem allocate_spec (halloc : alloc (s.mem.base, s.ion) env.toMemEnv count size isSecure = (.ok, r))
    (h : s.allocate env count size isSecure = some (rc, t)) : t.mem.base.bufferCount = count ∧ t.ion = r.2 ∧
      (rc = .ok → t.mem.mMetaBufCount = count ∧ t.mem.base.memInfo = r.1.memInfo ∧
        t.mem.base.memClass = r.1.memClass ∧ ∀ i < count,
          t.mem.base.ptr i = (if isSecure = false ∧ env.map i = true then (r.1.memInfo i).buf else none) ∧
          env.metadata i = true ∧ env.handle i = true ∧ (t.mem.mMetadata i).isSome = true ∧ t.Filled i) := by
  rw [allocate_got halloc] at h
  obtain ⟨⟨rc₁, t₁⟩, hmeta, h⟩ := bind_eq_some_iff.1 h
  obtain ⟨⟨rc₂, t₂⟩, hloop, heq⟩ := map_eq_some_iff.1 hmeta
  obtain ⟨honly, hcases⟩ := allocateMetaLoop_spec hloop
  have hbase : t₂.mem.base = (s.gotBuffers r env count isSecure).mem.base := honly.base
  obtain ⟨rfl, hall, -⟩ | ⟨hrc, -⟩ := hcases
  · rw [if_pos rfl] at heq
    cases heq
    obtain ⟨t₃, ht₃, honly₃, hmetadata, hfilled, -⟩ := fillLoop_spec
      (s := { t₂ with mem := { t₂.mem with mMetaBufCount := count } }) (i := 0) (n := count)
      fun j hle hlt => (hall j hle hlt).2.2
    dsimp only at h
    rw [ht₃] at h
    cases h
    have hbase₃ : t₃.mem.base = (s.gotBuffers r env count isSecure).mem.base := honly₃.base.trans hbase
    refine ⟨rfl, honly₃.ion.trans honly.ion, fun _ => ⟨honly₃.metaCount, ?_, ?_, fun i hi => ⟨?_, ?_⟩⟩⟩
    · change t₃.mem.base.memInfo = _
      rw [hbase₃]
      rfl
    · change t₃.mem.base.memClass = _
      rw [hbase₃]
      rfl
    · change t₃.mem.base.ptr i = _
      rw [hbase₃]
      exact if_pos (mem_range.2 hi)
    · obtain ⟨hok, hhandle, hslot⟩ := hall i (Nat.zero_le i) (by omega)
      exact ⟨hok, hhandle, (congrArg isSome (congrFun hmetadata i)).trans hslot.1, hfilled i (Nat.zero_le i) (by omega)⟩
  · rw [if_neg hrc] at heq
    cases heq
    have hfailed : rc ≠ .ok ∧ t = t₁ := by
      cases rc₁ with
      | ok => exact absurd rfl hrc
      | badIndex =>
        cases h
        exact ⟨nofun, rfl⟩
      | noMemory =>
        cases h
        exact ⟨nofun, rfl⟩
    obtain ⟨hne, rfl⟩ := hfailed
    exact ⟨congrArg QCameraMemory.bufferCount hbase, honly.ion, fun hok => absurd hok hne⟩

theorem allocate_ok (halloc : alloc (s.mem.base, s.ion) env.toMemEnv count size isSecure = (.ok, r))
    (hall : ∀ i < count, env.metadata i = true ∧ env.handle i = true) :
    ∃ t, s.allocate env count size isSecure = some (.ok, t) := by
  obtain ⟨t₁, ht₁⟩ : ∃ t, allocateMetaLoop env count 0 (s.gotBuffers r env count isSecure) = some (.ok, t) :=
    allocateMetaLoop_ok fun j _ hlt => hall j (by omega)
  obtain ⟨-, hmeta, -⟩ := (allocateMetaLoop_spec ht₁).2.resolve_right fun hne => hne.1 rfl
  obtain ⟨t₂, ht₂, -⟩ := fillLoop_spec (s := { t₁ with mem := { t₁.mem with mMetaBufCount := count } }) (i := 0)
    (n := count) fun j hle hlt => (hmeta j hle hlt).2.2
  refine ⟨t₂.setCount count, ?_⟩
  rw [allocate_got halloc]
  unfold allocateMeta
  rw [ht₁]
  change (match fillLoop count 0 { t₁ with mem := { t₁.mem with mMetaBufCount := count } } with
    | (MemRc.ok, s) => some (MemRc.ok, s.setCount count)
    | failed => some failed) = _
  rw [ht₂]

theorem Inv.allocate_succeeds (h : s.Inv) (hempty : s.mem.base.bufferCount = 0)
    (halloc : alloc (s.mem.base, s.ion) env.toMemEnv count size isSecure = (.ok, r))
    (hgot : Got (s.mem.base, s.ion) r count size isSecure) (hroom : count ≤ mmCameraMaxNumFrames)
    (hall : ∀ i < count, isSecure = false ∧ IonMemory.ionLength size false < 2 ^ 31 ∧ env.map i = true ∧
      env.metadata i = true ∧ env.handle i = true) :
    ∃ t, s.allocate env count size isSecure = some (.ok, t) ∧ t.Inv := by
  obtain ⟨t, ht⟩ := allocate_ok halloc fun i hi => (hall i hi).2.2.2
  obtain ⟨hcount, hion, hspec⟩ := allocate_spec halloc ht
  obtain ⟨hmetaCount, hinfo, hclass, hslots⟩ := hspec rfl
  have hnew : ∀ i < count, (r.1.memInfo i).buf.isSome = true ∧
      (r.1.memInfo i).size = IonMemory.ionLength size isSecure := fun i hi =>
    ⟨hgot.buf i (hempty ▸ Nat.zero_le i) (by omega), hgot.size_eq i (hempty ▸ Nat.zero_le i) (by omega)⟩
  have howned : ∀ b, balance (r.1, r.2) (range count) b = 0 := fun b => by
    have hbal := hgot.balance_eq b
    rw [hempty, Nat.zero_add] at hbal
    rw [hbal, ← hempty]
    exact h.owned b
  refine ⟨t, ht, ⟨⟨?_, hmetaCount.trans hcount.symm, fun i hi => ?_, fun i hi => ?_, fun i hi => ?_⟩,
    hclass.trans hgot.memClass, hcount ▸ hroom, fun b => ?_⟩⟩
  · rw [hion, hcount]
    exact ionHeld_eq howned fun i hi => (hnew i hi).1
  · have hi : i < count := hcount ▸ hi
    obtain ⟨b, hb⟩ := isSome_iff_exists.1 (hnew i hi).1
    rw [hinfo, (hslots i hi).1, if_pos ⟨(hall i hi).1, (hall i hi).2.2.1⟩]
    exact ⟨b, hb, hb⟩
  · exact (hslots i (hcount ▸ hi)).2.2.2.1
  · have hi : i < count := hcount ▸ hi
    obtain ⟨nh, hnh, hfd, hsize⟩ := (hslots i hi).2.2.2.2
    refine ⟨nh, hnh, hfd, hsize.trans ?_⟩
    rw [hinfo, (hnew i hi).2, (hall i hi).1]
    exact bmod_eq (hall i hi).2.1
  · rw [hcount]
    exact (balance_congr (r := r) hinfo hion).trans (howned b)

theorem Inv.allocate_of_safe (h : s.Inv) {count : Fin 256} (hs : s.Safe (.allocate count size isSecure env)) :
    ∃ rc t, s.allocate env count size isSecure = some (rc, t) ∧ t.Inv ∧ (rc ≠ .ok → s.Undone t) := by
  obtain hroom | ⟨hempty, hsafe⟩ := hs
  · exact ⟨_, s, allocate_refused hroom, h, fun _ => .refl s⟩
  · by_cases hroom : mmCameraMaxNumFrames < s.mem.base.bufferCount + count
    · exact ⟨_, s, allocate_refused hroom, h, fun _ => .refl s⟩
    · obtain ⟨r, ⟨halloc, hgot, hion⟩ | ⟨halloc, hlost, -⟩⟩ :=
        alloc_noPool (s.mem.base, s.ion) count h.memClass (Nat.not_lt.1 hroom) env.toMemEnv size isSecure
      · have hall : ∀ i < count.val, isSecure = false ∧ IonMemory.ionLength size false < 2 ^ 31 ∧
            env.map i = true ∧ env.metadata i = true ∧ env.handle i = true := fun i hi => by
          obtain hzero | hfails | ⟨hsecure, hsize, hok⟩ := hsafe
          · omega
          · exact absurd hion hfails
          · exact ⟨hsecure, hsize, hok i hi⟩
        obtain ⟨t, ht, hinv⟩ := h.allocate_succeeds hempty halloc hgot (by omega) hall
        exact ⟨.ok, t, ht, hinv, fun hne => absurd rfl hne⟩
      · obtain ⟨hinv, hundone⟩ := h.failed hempty hlost
        exact ⟨_, _, allocate_none halloc, hinv, fun _ => hundone⟩

theorem Inv.allocateMore_zero (h : s.Inv) (hzero : count = 0)
    (halloc : alloc (s.mem.base, s.ion) env.toMemEnv count size false = (.ok, r))
    (hgot : Got (s.mem.base, s.ion) r count size false) :
    ∃ t, s.allocateMore env count size = some (.ok, t) ∧ t.Inv := by
  subst hzero
  have hroom : s.mem.base.bufferCount ≤ mmCameraMaxNumFrames := h.room
  have hmod : ((r.1.bufferCount + 0) % 256 + 0) % 256 = s.mem.base.bufferCount := by
    rw [hgot.bufferCount]
    simp only [mmCameraMaxNumFrames] at hroom ⊢
    omega
  have howned : ∀ b, balance (r.1, r.2) (range s.mem.base.bufferCount) b = 0 := fun b =>
    (hgot.balance_eq b).trans (h.owned b)
  let o : QCameraMemory := { r.1.getMemory env.toMemEnv false (range' r.1.bufferCount 0) with
    bufferCount := (r.1.bufferCount + 0) % 256 }
  let u := (s.withBase (o, r.2)).setCount ((o.bufferCount + 0) % 256)
  have hu : u.mem.base.bufferCount = s.mem.base.bufferCount := hmod
  have hmem : ∀ i < u.mem.base.bufferCount, u.mem.base.memInfo i = s.mem.base.memInfo i := fun i hi =>
    hgot.below i (hu ▸ hi)
  have huptr : ∀ i, u.mem.base.ptr i = s.mem.base.ptr i := fun i =>
    (getMemory_ptr_of_notMem r.1 env.toMemEnv false not_mem_nil).trans (congrFun hgot.ptr i)
  refine ⟨{ u with mem := { u.mem with mMetaBufCount := u.mem.base.bufferCount } }, ?_,
    ⟨⟨?_, rfl, fun i hi => ?_, fun i hi => ?_, fun i hi => ?_⟩, hgot.memClass, ?_, fun b => ?_⟩⟩
  · unfold Video.allocateMore streamAllocateMore
    rw [halloc]
    rfl
  · exact (h.held hgot).trans hu.symm
  · obtain ⟨b, hb, hcamera⟩ := h.tables.camera i (hu ▸ hi)
    exact ⟨b, (congrArg QCameraMemInfo.buf (hmem i hi)).trans hb, (huptr i).trans hcamera⟩
  · exact h.tables.metadata i (hu ▸ hi)
  · obtain ⟨nh, hnh, hfd, hsize⟩ := h.tables.handle i (hu ▸ hi)
    refine ⟨nh, hnh, hfd.trans (congrArg QCameraMemInfo.buf (hmem i hi)).symm, hsize.trans ?_⟩
    exact congrArg (fun m : QCameraMemInfo => (m.size : ℤ)) (hmem i hi).symm
  · exact Nat.le_trans (Nat.le_of_eq hu) hroom
  · change balance (u.mem.base, u.ion) (range u.mem.base.bufferCount) b = 0
    rw [hu]
    exact (balance_congr rfl rfl).trans (howned b)

theorem Inv.allocateMore_of_safe (h : s.Inv) {count : Fin 256} (hs : s.Safe (.allocateMore count size env)) :
    ∃ rc t, s.allocateMore env count size = some (rc, t) ∧ t.Inv ∧ (rc ≠ .ok → s.Undone t) := by
  by_cases hroom : mmCameraMaxNumFrames < s.mem.base.bufferCount + count
  · exact ⟨_, s, allocateMore_refused hroom, h, fun _ => .refl s⟩
  · obtain ⟨r, ⟨halloc, hgot, hion⟩ | ⟨halloc, hlost, hfails⟩⟩ :=
      alloc_noPool (s.mem.base, s.ion) count h.memClass (Nat.not_lt.1 hroom) env.toMemEnv size false
    · obtain hfull | hzero | ⟨-, hfails⟩ := hs
      · exact absurd hfull hroom
      · obtain ⟨t, ht, hinv⟩ := h.allocateMore_zero hzero halloc hgot
        exact ⟨.ok, t, ht, hinv, fun hne => absurd rfl hne⟩
      · exact absurd hion hfails
    · have hempty : s.mem.base.bufferCount = 0 := by
        obtain hfull | hzero | ⟨hempty, -⟩ := hs
        · exact absurd hfull hroom
        · exact absurd (fun i hle hlt => by omega) hfails
        · exact hempty
      obtain ⟨hinv, hundone⟩ := h.failed hempty hlost
      exact ⟨_, _, allocateMore_none halloc, hinv, fun _ => hundone⟩

theorem deallocateMetaSlot_spec (h : (s.mem.mMetadata i).isSome = true) : ∃ t, s.deallocateMetaSlot i = some t ∧
    OnlyMeta s t ∧ ∀ j, j ≠ i → t.mem.mMetadata j = s.mem.mMetadata j := by
  obtain ⟨packet, hpacket⟩ := isSome_iff_exists.1 h
  let u : Video := { s.deleteHandle i with freed := (s.deleteHandle i).freed ++ [packet.id] }
  refine ⟨{ u with mem := { u.mem with
    mNativeHandle := update u.mem.mNativeHandle i none
    mMetadata := update u.mem.mMetadata i none } }, ?_, ⟨rfl, rfl, rfl⟩,
    fun j hj => update_of_ne hj ..⟩
  unfold deallocateMetaSlot releaseMetadata
  change Option.map _ (Option.map _ (s.mem.mMetadata i)) = _
  rw [hpacket]
  rfl

theorem deallocateMetaSlots_ok (slots : List ℕ) (h : ∀ i ∈ slots, (s.mem.mMetadata i).isSome = true)
    (hnodup : slots.Nodup) : ∃ t, slots.foldlM deallocateMetaSlot s = some t ∧ OnlyMeta s t := by
  induction slots generalizing s with
  | nil => exact ⟨s, rfl, .refl s⟩
  | cons i slots ih =>
    obtain ⟨hi, hnodup⟩ := nodup_cons.1 hnodup
    obtain ⟨u, hu, honly, hrest⟩ := deallocateMetaSlot_spec (h i mem_cons_self)
    have hslots : ∀ j ∈ slots, (u.mem.mMetadata j).isSome = true := fun j hj => by
      rw [hrest j fun hji => hi (hji ▸ hj)]
      exact h j (mem_cons_of_mem i hj)
    obtain ⟨t, ht, honly'⟩ := ih hslots hnodup
    refine ⟨t, ?_, honly.trans honly'⟩
    rw [foldlM_cons, hu]
    exact ht

theorem Inv.deallocate (h : s.Inv) : ∃ t, s.deallocate = some t ∧ t.Inv := by
  obtain ⟨u, hu, honly⟩ := deallocateMetaSlots_ok (s := s) (range s.mem.mMetaBufCount)
    (fun i hi => h.tables.metadata i (by
      rw [← h.tables.metaCount]
      exact mem_range.1 hi)) nodup_range
  let r := QCameraMemory.deallocate (u.mem.base, u.ion)
  have hzero : r.1.bufferCount = 0 := rfl
  have hnone : ∀ i, ¬ i < r.1.bufferCount := fun i hi => Nat.not_lt_zero i (hzero ▸ hi)
  have howned : ∀ b, balance (r.1, r.2) (range r.1.bufferCount) b = 0 := fun b => by
    refine (deallocate_balance (u.mem.base, u.ion)).trans ?_
    rw [honly.base, honly.ion]
    exact h.owned b
  have hclass : u.mem.base.memClass = .stream none := honly.base ▸ h.memClass
  refine ⟨{ u with mem := { u.mem with mMetaBufCount := 0, base := r.1 }, ion := r.2 }, ?_,
    ⟨⟨ionHeld_eq howned fun i hi => absurd hi (hnone i), hzero.symm, fun i hi => absurd hi (hnone i),
      fun i hi => absurd hi (hnone i), fun i hi => absurd hi (hnone i)⟩, ?_, ?_, howned⟩⟩
  · unfold Video.deallocate deallocateMeta
    rw [hu]
    rfl
  · exact (giveBackAll_noPool (r := (u.mem.base.unmap (range u.mem.base.bufferCount), u.ion))
      (range u.mem.base.bufferCount) hclass).1
  · exact Nat.le_trans (Nat.le_of_eq hzero) (Nat.zero_le _)

/-! ### What follows from the law -/

theorem allocateMore_spec (halloc : alloc (s.mem.base, s.ion) env.toMemEnv count size false = (.ok, r))
    (hcount : r.1.bufferCount = s.mem.base.bufferCount)
    (h : s.allocateMore env count size = some (rc, t)) :
    if rc = .ok then t.mem.base.bufferCount = ((s.mem.base.bufferCount + count) % 256 + count) % 256 ∧ t.ion = r.2
    else t.mem.base.bufferCount = (s.mem.base.bufferCount + count) % 256 := by
  unfold Video.allocateMore streamAllocateMore at h
  rw [halloc] at h
  obtain ⟨⟨rc₁, t₁⟩, hloop, heq⟩ := map_eq_some_iff.1 h
  obtain ⟨hcount₁, honly⟩ := allocateMoreLoop_spec hloop
  have hcount₁ : t₁.mem.base.bufferCount = (r.1.bufferCount + count) % 256 := hcount₁
  rw [hcount] at hcount₁
  cases rc₁ with
  | ok =>
    cases heq
    refine ⟨?_, (honly rfl).ion⟩
    change (t₁.mem.base.bufferCount + count) % 256 = _
    rw [hcount₁]
  | badIndex =>
    cases heq
    exact hcount₁
  | noMemory =>
    cases heq
    exact hcount₁

theorem not_tables_of_lost (hlost : Lost (s.mem.base, s.ion) r)
    (hpos : 0 < s.mem.base.bufferCount) : ¬ (s.withBase r).Tables := fun h => by
  have hpos' : 0 < r.1.bufferCount := Nat.lt_of_lt_of_eq hpos hlost.bufferCount.symm
  obtain ⟨b, hb, -⟩ := h.camera 0 hpos'
  rw [show ((s.withBase r).mem.base.memInfo 0).buf = none from hlost.buf 0 hpos] at hb
  cases hb

theorem Inv.safe_of_allocate (h : s.Inv) {count : Fin 256}
    (hcall : s.allocate env count size isSecure = some (rc, t)) (htables : t.Tables)
    (hundone : rc ≠ .ok → s.Undone t) : s.Safe (.allocate count size isSecure env) := by
  by_cases hroom : mmCameraMaxNumFrames < s.mem.base.bufferCount + count
  · exact .inl hroom
  · obtain ⟨r, ⟨halloc, hgot, -⟩ | ⟨halloc, hlost, hfails⟩⟩ :=
      alloc_noPool (s.mem.base, s.ion) count h.memClass (Nat.not_lt.1 hroom) env.toMemEnv size isSecure
    · obtain ⟨hcount', hion, hok⟩ := allocate_spec halloc hcall
      have hheld := h.held hgot
      have hempty : s.mem.base.bufferCount = 0 := by
        have hion' := htables.ion
        rw [hcount', hion, hheld] at hion'
        omega
      refine .inr ⟨hempty, ?_⟩
      by_cases hzero : count.val = 0
      · exact .inl hzero
      · have hrc : rc = .ok := by
          by_contra hne
          have hkept := (hundone hne).base.count
          omega
        obtain ⟨-, hinfo, -, hslots⟩ := hok hrc
        have hslot : ∀ i < count.val, isSecure = false ∧ env.map i = true ∧
            IonMemory.ionLength size isSecure < 2 ^ 31 := fun i hi => by
          obtain ⟨hptr, -, -, -, nh, hnh, -, hfilled⟩ := hslots i hi
          obtain ⟨b, hb, hcamera⟩ := htables.camera i (hcount' ▸ hi)
          obtain ⟨nh', hnh', -, hsize⟩ := htables.handle i (hcount' ▸ hi)
          rw [hnh] at hnh'
          cases hnh'
          have hlow : s.mem.base.bufferCount ≤ i := by omega
          have hhigh : i < s.mem.base.bufferCount + count := by omega
          rw [hfilled, hinfo, hgot.size_eq i hlow hhigh] at hsize
          rw [hptr] at hcamera
          split at hcamera
          · rename_i hmapped
            exact ⟨hmapped.1, hmapped.2, lt_of_bmod_eq hsize⟩
          · cases hcamera
        exact .inr (.inr ⟨(hslot 0 (by omega)).1, (hslot 0 (by omega)).1 ▸ (hslot 0 (by omega)).2.2, fun i hi =>
          ⟨(hslot i hi).2.1, (hslots i hi).2.1, (hslots i hi).2.2.1⟩⟩)
    · rw [allocate_none halloc] at hcall
      cases hcall
      obtain hempty | hpos := Nat.eq_zero_or_pos s.mem.base.bufferCount
      · exact .inr ⟨hempty, .inr (.inl hfails)⟩
      · exact absurd htables (not_tables_of_lost hlost hpos)

theorem Inv.safe_of_allocateMore (h : s.Inv) {count : Fin 256}
    (hcall : s.allocateMore env count size = some (rc, t)) (htables : t.Tables)
    (hundone : rc ≠ .ok → s.Undone t) : s.Safe (.allocateMore count size env) := by
  by_cases hroom : mmCameraMaxNumFrames < s.mem.base.bufferCount + count
  · exact .inl hroom
  · have hsmall : s.mem.base.bufferCount + count ≤ 64 := Nat.not_lt.1 hroom
    obtain ⟨r, ⟨halloc, hgot, -⟩ | ⟨halloc, hlost, hfails⟩⟩ :=
      alloc_noPool (s.mem.base, s.ion) count h.memClass (Nat.not_lt.1 hroom) env.toMemEnv size false
    · have hspec := allocateMore_spec halloc hgot.bufferCount hcall
      have hheld := h.held hgot
      refine .inr (.inl ?_)
      by_cases hrc : rc = .ok
      · rw [if_pos hrc] at hspec
        have hion := htables.ion
        rw [hspec.1, hspec.2, hheld] at hion
        omega
      · rw [if_neg hrc] at hspec
        have hkept := (hundone hrc).base.count
        omega
    · rw [allocateMore_none halloc] at hcall
      cases hcall
      obtain hempty | hpos := Nat.eq_zero_or_pos s.mem.base.bufferCount
      · exact .inr (.inr ⟨hempty, hfails⟩)
      · exact absurd htables (not_tables_of_lost hlost hpos)

/-! ### Runs -/

/-- **A call under the condition** does what it should, and keeps the invariant. -/
theorem Inv.of_safe (h : s.Inv) {c : VideoCall} (hs : s.Safe c) :
    ∃ rc t, s.call c = some (rc, t) ∧ t.Inv ∧ (rc ≠ .ok → s.Undone t) := by
  cases c with
  | allocate count size isSecure env => exact h.allocate_of_safe hs
  | allocateMore count size env => exact h.allocateMore_of_safe hs
  | deallocate =>
    obtain ⟨t, ht, hinv⟩ := h.deallocate
    refine ⟨.ok, t, ?_, hinv, fun hne => absurd rfl hne⟩
    unfold call
    rw [ht]
    rfl

theorem Inv.law_iff (h : s.Inv) (c : VideoCall) : s.Law c ↔ s.Safe c := by
  constructor
  · rintro ⟨rc, t, hcall, htables, hundone⟩
    cases c with
    | allocate count size isSecure env => exact h.safe_of_allocate hcall htables hundone
    | allocateMore count size env => exact h.safe_of_allocateMore hcall htables hundone
    | deallocate => trivial
  · intro hs
    obtain ⟨rc, t, hcall, hinv, hundone⟩ := h.of_safe hs
    exact ⟨rc, t, hcall, hinv.tables, hundone⟩

theorem Inv.step (h : s.Inv) {c : VideoCall} (hs : s.Safe c) : (s.step c).Inv := by
  obtain ⟨rc, t, hcall, hinv, -⟩ := h.of_safe hs
  unfold Video.step
  rw [hcall]
  exact hinv

theorem inv_init : Inv {} :=
  ⟨⟨rfl, rfl, nofun, nofun, nofun⟩, rfl, Nat.zero_le _, fun _ => rfl⟩

/-- **The tables in a run**: all calls do what they should exactly where each of them meets the condition. -/
theorem tables_iff (cs : List VideoCall) : StepLaws.Along Video.step Law {} cs ↔ StepLaws.Along Video.step Safe {} cs :=
  StepLaws.along_iff (fun _ c h => h.law_iff c) (fun _ _ h hs => h.step hs) inv_init cs

/-- **A buffer for `allocateMore`**: the memory has two, and counts three. -/
theorem not_tables_oneMore : ¬ StepLaws.Along Video.step Law {}
    [.allocate 1 4096 false {}, .allocateMore 1 4096 {}] := fun ⟨_, ⟨rc, t, hcall, htables, _⟩, _⟩ => by
  have ht : t.mem.base.bufferCount = 3 ∧ ionHeld t.ion = 2 := by
    cases hcall
    exact ⟨rfl, rfl⟩
  have hion := htables.ion
  omega

end Video

end VideoMem

end Marlin
