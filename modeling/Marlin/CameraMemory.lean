import Mathlib.Data.List.Nodup
import Mathlib.Data.Nat.Init
import Marlin.StreamFsm
import Marlin.Transition

/-!
# The Owners of the Camera Memory

`QCameraMemory` holds the ION buffers of a stream in an array of slots, of which the first
`mBufferCount` are in use. A heap memory maps its buffers itself; a stream memory has them wrapped by
the framework, and can take them from a pool that it shares with others and give them back to it.

## Conventions

* An ION buffer has the number of its allocation; a descriptor without one has the file descriptors
  `-1`. `freed` lists the buffers as they are freed.
* The lists of the pool are one list, each entry with the stream type of its own: the code only adds
  at the end of a list and takes the first fitting entry out.
* Which ION allocations and which mappings of a call fail, slot by slot, is taken from the environment.
* Of a mapping, the model has the buffer that it shows.

## Main results

* `balance`: the slots in use, the pool and the freed buffers against all that were allocated.
* `alloc_ok_iff`: when `alloc` has a buffer for each slot.
* `owned_run`: as long as memory is first allocated once, and memory that has buffers grows without a
  failure, each buffer has one owner or was freed, and a failed call changes nothing.
* `shared_after_failure`: a failed `allocateMore` puts one buffer under two streams.
-/

namespace Marlin

open List Option Transition

/-- The bit of `ION_IOMMU_HEAP_ID`. -/
def ionIommuHeap : ℕ := 2 ^ 25

/-- `QCameraMemInfo`: the ION buffer behind its file descriptors, if there is one. -/
structure QCameraMemInfo where
  buf : Option ℕ := none
  size : ℕ := 0
  cached : Bool := false
  heapId : ℕ := 0
  deriving DecidableEq

/-- A stream type that the pool has a list for. -/
abbrev PoolList := { t : CamStreamType // t ≠ .max }

/-- What allocations share: the ION device, with the number of the next buffer and the buffers that
were freed, and the entries of the `QCameraMemoryPool`. -/
structure IonMemory where
  next : ℕ := 0
  freed : List ℕ := []
  pool : List (PoolList × QCameraMemInfo) := []

/-- The class of a memory: `QCameraHeapMemory`, or `QCameraStreamMemory` with or without a pool. -/
inductive MemClass
  | heap
  | stream (pool : Option PoolList)
  deriving DecidableEq

/-- `QCameraMemory`. `ptr` is `mPtr` of a heap memory and `mCameraMemory` of a stream memory. -/
structure QCameraMemory where
  memClass : MemClass
  cached : Bool := false
  bufferCount : ℕ := 0
  memInfo : ℕ → QCameraMemInfo := fun _ => {}
  ptr : ℕ → Option ℕ := fun _ => none

/-- The answer of a call. -/
inductive MemRc
  | ok
  | badIndex
  | noMemory
  deriving DecidableEq

/-- What the environment decides for a call: which ION allocations and which mappings succeed. -/
structure MemEnv where
  ion : ℕ → Bool := fun _ => true
  map : ℕ → Bool := fun _ => true

/-! ### The pool -/

namespace IonMemory

/-- The length of an ION buffer: whole pages, and whole megabytes if it is to be secured. The masks `~4095U` and
`~1048575U` have 32 bits. -/
def ionLength (size : ℕ) (secure : Bool) : ℕ :=
  let pages := (size + 4095) % 2 ^ 32 / 4096 * 4096
  if secure then (pages + 1048575) % 2 ^ 32 / 1048576 * 1048576 else pages

/-- `allocOneBuffer`. -/
def allocOneBuffer (w : IonMemory) (heapId size : ℕ) (cached secure ok : Bool) : Option (QCameraMemInfo × IonMemory) :=
  if ok then some (⟨some w.next, ionLength size secure, cached, heapId⟩, { w with next := w.next + 1 })
  else none

/-- An entry of the pool that a request is answered with. -/
def fits (list : PoolList) (heapId size : ℕ) (cached : Bool) (entry : PoolList × QCameraMemInfo) :
    Bool :=
  entry.1 = list ∧ (if list.1 = .offlineProc then entry.2.size = size else size ≤ entry.2.size) ∧
    entry.2.heapId = heapId ∧ entry.2.cached = cached

/-- `QCameraMemoryPool::allocateBuffer`, with `findBufferLocked`. -/
def allocateBuffer (w : IonMemory) (list : PoolList) (heapId size : ℕ) (cached secure ok : Bool) :
    Option (QCameraMemInfo × IonMemory) :=
  match w.pool.find? (fits list heapId size cached) with
  | some entry => some (entry.2, { w with pool := w.pool.erase entry })
  | none => w.allocOneBuffer heapId size cached secure ok

/-- `QCameraMemoryPool::clear`. -/
def clear (w : IonMemory) : IonMemory :=
  { w with freed := w.freed ++ w.pool.filterMap (·.2.buf), pool := [] }

end IonMemory

namespace QCameraMemory

/-! ### Slots -/

/-- One buffer for slot `i`. -/
def allocSlot (o : QCameraMemory) (w : IonMemory) (env : MemEnv) (size : ℕ) (secure : Bool) (i : ℕ) :
    Option (QCameraMemory × IonMemory) :=
  let got := match o.memClass with
    | .stream (some list) =>
      w.allocateBuffer list ionIommuHeap size o.cached secure (env.ion i)
    | _ => w.allocOneBuffer ionIommuHeap size o.cached secure (env.ion i)
  got.map fun r => ({ o with memInfo := fun j => if j = i then r.1 else o.memInfo j }, r.2)

/-- The buffer of slot `i` is given back: `releaseBuffer` puts a copy of the descriptor in the pool,
`deallocOneBuffer` frees the buffer and resets the descriptor. -/
def giveBack (r : QCameraMemory × IonMemory) (i : ℕ) : QCameraMemory × IonMemory :=
  match r.1.memClass with
  | .stream (some list) => (r.1, { r.2 with pool := r.2.pool ++ [(list, r.1.memInfo i)] })
  | _ =>
    ({ r.1 with memInfo := fun j =>
        if j = i then { r.1.memInfo i with buf := none, size := 0 } else r.1.memInfo j },
      { r.2 with freed := r.2.freed ++ (r.1.memInfo i).buf.toList })

/-- Slots are given back, in this order. -/
def giveBackAll (r : QCameraMemory × IonMemory) (slots : List ℕ) : QCameraMemory × IonMemory :=
  slots.foldl giveBack r

/-- The loop of `alloc`, from slot `i` on; where it fails, all slots below are given back. -/
def allocLoop (env : MemEnv) (size : ℕ) (secure : Bool) :
    ℕ → ℕ → QCameraMemory × IonMemory → MemRc × QCameraMemory × IonMemory
  | 0, _, r => (.ok, r)
  | n + 1, i, r =>
    match r.1.allocSlot r.2 env size secure i with
    | some r => allocLoop env size secure n (i + 1) r
    | none => (.noMemory, giveBackAll r (List.range i).reverse)

/-- `alloc`. -/
def alloc (r : QCameraMemory × IonMemory) (env : MemEnv) (count size : ℕ) (secure : Bool) :
    MemRc × QCameraMemory × IonMemory :=
  if mmCameraMaxNumFrames < r.1.bufferCount + count then (.badIndex, r)
  else allocLoop env size secure count r.1.bufferCount r

/-! ### Mappings -/

/-- Slots are mapped, in this order, up to one where that fails: the memory, and the slots that are
not mapped. -/
def mapLoop (env : MemEnv) : List ℕ → QCameraMemory → QCameraMemory × List ℕ
  | [], o => (o, [])
  | i :: slots, o =>
    if env.map i then
      mapLoop env slots { o with ptr := fun j => if j = i then (o.memInfo i).buf else o.ptr j }
    else (o, i :: slots)

/-- Slots are unmapped. -/
def unmap (o : QCameraMemory) (slots : List ℕ) : QCameraMemory :=
  { o with ptr := fun j => if j ∈ slots then none else o.ptr j }

/-- `QCameraHeapMemory::allocate`: where a mapping fails, all the new slots are freed. The unmapping
and the freeing of a slot do not depend on each other. -/
def heapAllocate (r : QCameraMemory × IonMemory) (env : MemEnv) (count size : ℕ) (secure : Bool) :
    MemRc × QCameraMemory × IonMemory :=
  match alloc r env count size secure with
  | (.ok, o, w) =>
    if secure then (.ok, { o with bufferCount := count }, w)
    else
      match mapLoop env (List.range count) o with
      | (o, []) => (.ok, { o with bufferCount := count }, w)
      | (o, i :: rest) =>
        (.noMemory, giveBackAll (o.unmap (List.range i), w) ((List.range i).reverse ++ i :: rest))
  | failed => failed

/-- `QCameraHeapMemory::allocateMore`: where a mapping fails, the slots that were mapped are freed. -/
def heapAllocateMore (r : QCameraMemory × IonMemory) (env : MemEnv) (count size : ℕ) :
    MemRc × QCameraMemory × IonMemory :=
  match alloc r env count size false with
  | (.ok, o, w) =>
    match mapLoop env (List.range' o.bufferCount count) o with
    | (o, []) => (.ok, { o with bufferCount := (o.bufferCount + count) % 256 }, w)
    | (o, i :: _) =>
      let mapped := List.range' o.bufferCount (i - o.bufferCount)
      (.noMemory, giveBackAll (o.unmap mapped, w) mapped.reverse)
  | failed => failed

/-- The framework wraps the buffers of some slots, or answers `NULL`; none of secure memory. -/
def getMemory (o : QCameraMemory) (env : MemEnv) (secure : Bool) (slots : List ℕ) : QCameraMemory :=
  { o with ptr := fun j =>
      if j ∈ slots then if secure = false ∧ env.map j = true then (o.memInfo j).buf else none
      else o.ptr j }

/-- `QCameraStreamMemory::allocate`. -/
def streamAllocate (r : QCameraMemory × IonMemory) (env : MemEnv) (count size : ℕ) (secure : Bool) :
    MemRc × QCameraMemory × IonMemory :=
  match alloc r env count size secure with
  | (.ok, o, w) =>
    (.ok, { o.getMemory env secure (List.range count) with bufferCount := count }, w)
  | failed => failed

/-- `QCameraStreamMemory::allocateMore`. -/
def streamAllocateMore (r : QCameraMemory × IonMemory) (env : MemEnv) (count size : ℕ) :
    MemRc × QCameraMemory × IonMemory :=
  match alloc r env count size false with
  | (.ok, o, w) =>
    (.ok, { o.getMemory env false (List.range' o.bufferCount count) with
      bufferCount := (o.bufferCount + count) % 256 }, w)
  | failed => failed

/-- `allocate` of the class. -/
def allocate (r : QCameraMemory × IonMemory) (env : MemEnv) (count size : ℕ) (secure : Bool) :
    MemRc × QCameraMemory × IonMemory :=
  match r.1.memClass with
  | .heap => heapAllocate r env count size secure
  | .stream _ => streamAllocate r env count size secure

/-- `allocateMore` of the class. -/
def allocateMore (r : QCameraMemory × IonMemory) (env : MemEnv) (count size : ℕ) : MemRc × QCameraMemory × IonMemory :=
  match r.1.memClass with
  | .heap => heapAllocateMore r env count size
  | .stream _ => streamAllocateMore r env count size

/-- `deallocate`, of either class: the slots in use are unmapped, and given back by `dealloc`. -/
def deallocate (r : QCameraMemory × IonMemory) : QCameraMemory × IonMemory :=
  let slots := List.range r.1.bufferCount
  let r := giveBackAll (r.1.unmap slots, r.2) slots
  ({ r.1 with bufferCount := 0 }, r.2)

end QCameraMemory

namespace QCameraMemory

/-! ### The balance of a memory -/

/-- The buffers in some slots. -/
def heldOn (o : QCameraMemory) (slots : List ℕ) : List ℕ :=
  slots.filterMap fun i => (o.memInfo i).buf

/-- The buffers in the slots in use. -/
def inUse (o : QCameraMemory) : List ℕ := o.heldOn (List.range o.bufferCount)

/-- **The balance** of a buffer: how often it is in some slots, in the pool and freed, less one if it
was allocated. -/
def balance (r : QCameraMemory × IonMemory) (slots : List ℕ) (b : ℕ) : ℤ :=
  (r.1.heldOn slots).count b + (r.2.pool.filterMap (·.2.buf)).count b + r.2.freed.count b -
    if b < r.2.next then 1 else 0

variable {o o' : QCameraMemory} {w w' : IonMemory} {env : MemEnv} {size i b : ℕ} {secure : Bool}
  {slots slots' : List ℕ}

theorem balance_perm (r : QCameraMemory × IonMemory) (h : slots.Perm slots') :
    balance r slots b = balance r slots' b := by
  have hcount : (r.1.heldOn slots).count b = (r.1.heldOn slots').count b :=
    (h.filterMap _).count_eq b
  rw [balance, balance, hcount]

theorem heldOn_congr (h : ∀ j ∈ slots, o'.memInfo j = o.memInfo j) : o'.heldOn slots = o.heldOn slots := by
  rw [heldOn, heldOn]
  exact filterMap_congr fun j hj => by rw [h j hj]

theorem count_filterMap_cons {α : Type*} (f : α → Option ℕ) (a : α) (l : List α) (b : ℕ) :
    ((a :: l).filterMap f).count b = (l.filterMap f).count b + (f a).toList.count b := by
  cases h : f a with
  | none =>
    rw [filterMap_cons_none h]
    rfl
  | some c =>
    rw [filterMap_cons_some h, count_cons, toList_some, count_singleton]

theorem count_heldOn_cons (o : QCameraMemory) (slots : List ℕ) (i b : ℕ) :
    (o.heldOn (i :: slots)).count b = (o.heldOn slots).count b + (o.memInfo i).buf.toList.count b :=
  count_filterMap_cons _ i slots b

theorem count_heldOn_append (o : QCameraMemory) (slots : List ℕ) (i b : ℕ) : (o.heldOn (slots ++ [i])).count b =
      (o.heldOn slots).count b + (o.memInfo i).buf.toList.count b := by
  rw [← count_heldOn_cons]
  exact ((perm_append_singleton i slots).filterMap _).count_eq b

theorem allocOneBuffer_count {info : QCameraMemInfo} {heapId : ℕ} {cached ok : Bool}
    (h : w.allocOneBuffer heapId size cached secure ok = some (info, w')) :
    w'.pool = w.pool ∧ w'.freed = w.freed ∧ w'.next = w.next + 1 ∧ info.buf = some w.next := by
  rw [IonMemory.allocOneBuffer] at h
  split at h
  · cases h
    exact ⟨rfl, rfl, rfl, rfl⟩
  · cases h

theorem allocSlot_balance (h : o.allocSlot w env size secure i = some (o', w')) (hi : i ∉ slots) :
    balance (o', w') (slots ++ [i]) b = balance (o, w) slots b := by
  rw [allocSlot] at h
  obtain ⟨⟨info, w₁⟩, hgot, heq⟩ := map_eq_some_iff.mp h
  cases heq
  have hheld : heldOn { o with memInfo := fun j => if j = i then info else o.memInfo j } slots = o.heldOn slots :=
    heldOn_congr fun j hj => if_neg fun (hji : j = i) => hi (hji ▸ hj)
  rw [balance, balance, count_heldOn_append, hheld]
  simp only [if_true]
  have hnew : ∀ {heapId : ℕ} {cached ok : Bool}, w.allocOneBuffer heapId size cached secure ok = some (info, w₁) →
      (info.buf.toList.count b : ℤ) + (w₁.pool.filterMap (·.2.buf)).count b + w₁.freed.count b -
        (if b < w₁.next then 1 else 0) =
      (w.pool.filterMap (·.2.buf)).count b + w.freed.count b - if b < w.next then 1 else 0 := by
    intro heapId cached ok halloc
    obtain ⟨hpool, hfreed, hnext, hbuf⟩ := allocOneBuffer_count halloc
    rw [hpool, hfreed, hnext, hbuf, toList_some, count_singleton]
    split_ifs with h₁ h₂ h₃ <;> simp at h₁ <;> omega
  split at hgot
  · rename_i list hclass
    rw [IonMemory.allocateBuffer] at hgot
    split at hgot
    · rename_i entry hfind
      cases hgot
      have hmem := mem_of_find?_eq_some hfind
      have hperm := ((perm_cons_erase hmem).filterMap fun e => e.2.buf).count_eq b
      rw [count_filterMap_cons (fun e : PoolList × QCameraMemInfo => e.2.buf)] at hperm
      simp only
      omega
    · have hbal := hnew hgot
      omega
  · have hbal := hnew hgot
    omega

theorem allocSlot_frame (h : o.allocSlot w env size secure i = some (o', w')) :
    o'.bufferCount = o.bufferCount ∧ o'.memClass = o.memClass ∧ o'.ptr = o.ptr := by
  rw [allocSlot] at h
  obtain ⟨r, -, heq⟩ := map_eq_some_iff.mp h
  cases heq
  exact ⟨rfl, rfl, rfl⟩

theorem giveBack_balance (r : QCameraMemory × IonMemory) (hi : i ∉ slots) :
    balance (giveBack r i) slots b = balance r (i :: slots) b := by
  rw [balance, balance, count_heldOn_cons, giveBack]
  split
  · simp only [filterMap_append, count_append]
    cases hbuf : (r.1.memInfo i).buf with
    | none => simp [hbuf]
    | some c =>
      simp only [filterMap_cons, hbuf, filterMap_nil, toList_some]
      omega
  · have hheld : heldOn { r.1 with memInfo := fun j =>
        if j = i then { r.1.memInfo i with buf := none, size := 0 } else r.1.memInfo j } slots =
        r.1.heldOn slots :=
      heldOn_congr fun j hj => if_neg fun (hji : j = i) => hi (hji ▸ hj)
    rw [hheld]
    simp only [count_append]
    omega

theorem giveBackAll_balance (r : QCameraMemory × IonMemory) (h : slots.Nodup) :
    balance (giveBackAll r slots) [] b = balance r slots b := by
  induction slots generalizing r with
  | nil => rfl
  | cons i slots ih =>
    obtain ⟨hi, hslots⟩ := nodup_cons.mp h
    rw [giveBackAll, foldl_cons]
    exact (ih (giveBack r i) hslots).trans (giveBack_balance r hi)

theorem giveBackAll_frame (r : QCameraMemory × IonMemory) (slots : List ℕ) :
    (giveBackAll r slots).1.bufferCount = r.1.bufferCount ∧ (giveBackAll r slots).1.ptr = r.1.ptr := by
  induction slots generalizing r with
  | nil => exact ⟨rfl, rfl⟩
  | cons i slots ih =>
    rw [giveBackAll, foldl_cons]
    have hone : (giveBack r i).1.bufferCount = r.1.bufferCount ∧ (giveBack r i).1.ptr = r.1.ptr := by
      rw [giveBack]
      split
      · exact ⟨rfl, rfl⟩
      · exact ⟨rfl, rfl⟩
    exact ⟨(ih _).1.trans hone.1, (ih _).2.trans hone.2⟩

/-- **The loop of `alloc`**: the new slots are filled, or all slots are given back. -/
theorem allocLoop_balance (n i : ℕ) (r : QCameraMemory × IonMemory) : ((allocLoop env size secure n i r).1 = .ok ∧
        balance (allocLoop env size secure n i r).2 (List.range (i + n)) b = balance r (List.range i) b) ∨
      ((allocLoop env size secure n i r).1 = .noMemory ∧
        balance (allocLoop env size secure n i r).2 [] b = balance r (List.range i) b) := by
  induction n generalizing i r with
  | zero => exact .inl ⟨rfl, rfl⟩
  | succ n ih =>
    rw [allocLoop]
    split
    · rename_i r₁ hslot
      have hbal : balance r₁ (range (i + 1)) b = balance r (range i) b := by
        rw [range_succ]
        exact @allocSlot_balance r.1 r₁.1 r.2 r₁.2 env size i b secure (range i) hslot (by simp)
      rw [← hbal, show i + (n + 1) = i + 1 + n by omega]
      exact ih (i + 1) r₁
    · refine .inr ⟨rfl, ?_⟩
      rw [giveBackAll_balance r (nodup_reverse.mpr nodup_range)]
      exact balance_perm r (reverse_perm _)

theorem allocLoop_frame (n i : ℕ) (r : QCameraMemory × IonMemory) :
    (allocLoop env size secure n i r).2.1.bufferCount = r.1.bufferCount ∧
      (allocLoop env size secure n i r).2.1.ptr = r.1.ptr := by
  induction n generalizing i r with
  | zero => exact ⟨rfl, rfl⟩
  | succ n ih =>
    rw [allocLoop]
    split
    · rename_i r₁ hslot
      obtain ⟨hcount, -, hptr⟩ :=
        @allocSlot_frame r.1 r₁.1 r.2 r₁.2 env size i secure hslot
      exact ⟨(ih _ _).1.trans hcount, (ih _ _).2.trans hptr⟩
    · exact giveBackAll_frame r _

/-- **`alloc`**: too many buffers are refused; else the new slots are filled, or all are given back. -/
theorem alloc_cases (r : QCameraMemory × IonMemory) (env : MemEnv) (count size : ℕ) (secure : Bool) :
    (mmCameraMaxNumFrames < r.1.bufferCount + count ∧ alloc r env count size secure = (.badIndex, r)) ∨
    (r.1.bufferCount + count ≤ mmCameraMaxNumFrames ∧ ∃ r', r'.1.bufferCount = r.1.bufferCount ∧ r'.1.ptr = r.1.ptr ∧
      ((alloc r env count size secure = (.ok, r') ∧ ∀ b, balance r' (List.range (r.1.bufferCount + count)) b =
            balance r (List.range r.1.bufferCount) b) ∨
        (alloc r env count size secure = (.noMemory, r') ∧
          ∀ b, balance r' [] b = balance r (List.range r.1.bufferCount) b))) := by
  rw [alloc]
  split
  · exact .inl ⟨‹_›, rfl⟩
  · rename_i hroom
    have hframe := @allocLoop_frame env size secure count r.1.bufferCount r
    have hcases := fun b => @allocLoop_balance env size b secure count r.1.bufferCount r
    generalize allocLoop env size secure count r.1.bufferCount r = res at hframe hcases
    obtain ⟨rc, r'⟩ := res
    refine .inr ⟨by omega, r', hframe.1, hframe.2, ?_⟩
    cases rc with
    | ok => exact .inl ⟨rfl, fun b => ((hcases b).resolve_right fun h => by cases h.1).2⟩
    | noMemory => exact .inr ⟨rfl, fun b => ((hcases b).resolve_left fun h => by cases h.1).2⟩
    | badIndex => exact absurd (hcases 0) (by simp)

/-! ### When the allocations succeed -/

/-- How many buffers of a size the pool has for a memory. -/
def pooled (o : QCameraMemory) (w : IonMemory) (size : ℕ) : ℕ :=
  match o.memClass with
  | .stream (some list) => w.pool.countP (IonMemory.fits list ionIommuHeap size o.cached)
  | _ => 0

/-- The ION allocations of a call succeed, for the slots that the pool has no buffer for. -/
def IonOk (r : QCameraMemory × IonMemory) (env : MemEnv) (count size : ℕ) : Prop :=
  ∀ i, r.1.bufferCount + pooled r.1 r.2 size ≤ i → i < r.1.bufferCount + count → env.ion i = true

theorem allocSlot_isSome : (o.allocSlot w env size secure i).isSome ↔ 0 < pooled o w size ∨ env.ion i = true := by
  have hone : ∀ heapId cached, (w.allocOneBuffer heapId size cached secure (env.ion i)).isSome ↔ env.ion i = true := by
    intro heapId cached
    rw [IonMemory.allocOneBuffer]
    split <;> simp [*]
  rw [allocSlot, isSome_map, pooled]
  split
  · rename_i list hclass
    rw [IonMemory.allocateBuffer]
    split
    · rename_i entry hfind
      have hpos : 0 < w.pool.countP (IonMemory.fits list ionIommuHeap size o.cached) :=
        countP_pos_iff.mpr ⟨entry, mem_of_find?_eq_some hfind, find?_some hfind⟩
      simp [hpos]
    · rename_i hfind
      have hzero : w.pool.countP (IonMemory.fits list ionIommuHeap size o.cached) = 0 :=
        countP_eq_zero.mpr fun e he => by simpa using find?_eq_none.mp hfind e he
      rw [hone, hzero]
      simp
  · rw [hone]
    simp

theorem allocSlot_pooled (h : o.allocSlot w env size secure i = some (o', w')) :
    pooled o' w' size = pooled o w size - 1 := by
  rw [allocSlot] at h
  obtain ⟨⟨info, w₁⟩, hgot, heq⟩ := map_eq_some_iff.mp h
  cases heq
  rw [pooled, pooled]
  split at hgot
  · rename_i list hclass
    rw [hclass]
    simp only
    rw [IonMemory.allocateBuffer] at hgot
    split at hgot
    · rename_i entry hfind
      cases hgot
      have hmem := mem_of_find?_eq_some hfind
      have hcount :=
        (perm_cons_erase hmem).countP_eq (IonMemory.fits list ionIommuHeap size o.cached)
      rw [countP_cons_of_pos (find?_some hfind)] at hcount
      simp only
      omega
    · rename_i hfind
      have hzero : w.pool.countP (IonMemory.fits list ionIommuHeap size o.cached) = 0 :=
        countP_eq_zero.mpr fun e he => by simpa using find?_eq_none.mp hfind e he
      rw [(allocOneBuffer_count hgot).1, hzero]
  · simp only

theorem allocLoop_ok_iff (n i : ℕ) (r : QCameraMemory × IonMemory) : (allocLoop env size secure n i r).1 = .ok ↔
      ∀ j, i + pooled r.1 r.2 size ≤ j → j < i + n → env.ion j = true := by
  induction n generalizing i r with
  | zero => exact ⟨fun _ j hle hlt => by omega, fun _ => rfl⟩
  | succ n ih =>
    have hsome := @allocSlot_isSome r.1 r.2 env size i secure
    rw [allocLoop]
    split
    · rename_i r₁ hslot
      have hpool := @allocSlot_pooled r.1 r₁.1 r.2 r₁.2 env size i secure hslot
      rw [hslot] at hsome
      rw [ih, hpool]
      refine ⟨fun hall j hle hlt => ?_, fun hall j hle hlt => hall j (by omega) (by omega)⟩
      rcases hsome.mp rfl with hpos | hion
      · exact hall j (by omega) (by omega)
      · by_cases hji : j = i
        · rw [hji, hion]
        · exact hall j (by omega) (by omega)
    · rename_i hslot
      rw [hslot] at hsome
      refine ⟨nofun, fun hall => ?_⟩
      by_cases hpos : 0 < pooled r.1 r.2 size
      · cases hsome.mpr (.inl hpos)
      · cases hsome.mpr (.inr (hall i (by omega) (by omega)))

variable {r : QCameraMemory × IonMemory} {count : ℕ}

theorem alloc_ok_iff (hroom : r.1.bufferCount + count ≤ mmCameraMaxNumFrames) :
    (alloc r env count size secure).1 = .ok ↔ IonOk r env count size := by
  rw [alloc, if_neg (by omega)]
  exact allocLoop_ok_iff count r.1.bufferCount r

/-! ### The mapping loop -/

theorem mapLoop_frame (env : MemEnv) (slots : List ℕ) (o : QCameraMemory) :
    (mapLoop env slots o).1.memInfo = o.memInfo ∧ (mapLoop env slots o).1.bufferCount = o.bufferCount ∧
      ∃ done, slots = done ++ (mapLoop env slots o).2 := by
  induction slots generalizing o with
  | nil => exact ⟨rfl, rfl, [], rfl⟩
  | cons i slots ih =>
    rw [mapLoop]
    split
    · obtain ⟨hinfo, hcount, done, hdone⟩ :=
        ih { o with ptr := fun j => if j = i then (o.memInfo i).buf else o.ptr j }
      exact ⟨hinfo, hcount, i :: done, by rw [cons_append, ← hdone]⟩
    · exact ⟨rfl, rfl, [], rfl⟩

theorem mapLoop_all {env : MemEnv} {slots : List ℕ} (h : ∀ i ∈ slots, env.map i = true)
    (o : QCameraMemory) : (mapLoop env slots o).2 = [] := by
  induction slots generalizing o with
  | nil => rfl
  | cons i slots ih =>
    rw [mapLoop, if_pos (h i mem_cons_self)]
    exact ih (fun j hj => h j (mem_cons_of_mem i hj)) _

theorem balance_congr {r' : QCameraMemory × IonMemory} (hinfo : r'.1.memInfo = r.1.memInfo)
    (hworld : r'.2 = r.2) : balance r' slots b = balance r slots b := by
  rw [balance, balance, hworld, heldOn, heldOn, hinfo]

/-! ### The calls -/

/-- The buffers in use, their number and their mappings are what they were. -/
structure Unchanged (o o' : QCameraMemory) : Prop where
  count : o'.bufferCount = o.bufferCount
  slots : ∀ i < o.bufferCount, o'.memInfo i = o.memInfo i ∧ o'.ptr i = o.ptr i

/-- **What a call should do**: the balance of the slots in use is kept, and a call that fails leaves
the memory as it was. -/
def Keeps (r : QCameraMemory × IonMemory) (res : MemRc × QCameraMemory × IonMemory) : Prop :=
  (∀ b, balance res.2 (List.range res.2.1.bufferCount) b = balance r (List.range r.1.bufferCount) b) ∧
    (res.1 ≠ .ok → Unchanged r.1 res.2.1)

theorem unchanged_of_empty (hempty : o.bufferCount = 0) (hcount : o'.bufferCount = o.bufferCount) : Unchanged o o' :=
  ⟨hcount, fun i hi => by omega⟩

theorem keeps_empty {r' : QCameraMemory × IonMemory} {rc : MemRc} (hempty : r.1.bufferCount = 0)
    (hcount : r'.1.bufferCount = r.1.bufferCount)
    (hbal : ∀ b, balance r' [] b = balance r (List.range r.1.bufferCount) b) : Keeps r (rc, r') := by
  refine ⟨fun b => ?_, fun _ => unchanged_of_empty hempty hcount⟩
  have hzero : r'.1.bufferCount = 0 := hcount.trans hempty
  rw [← hbal b]
  simp only [hzero, range_zero]

theorem keeps_refused (r : QCameraMemory × IonMemory) (rc : MemRc) : Keeps r (rc, r) :=
  ⟨fun _ => rfl, fun _ => ⟨rfl, fun _ _ => ⟨rfl, rfl⟩⟩⟩

/-- `allocate` is for memory that has no buffers yet, or is refused. -/
def FirstTime (o : QCameraMemory) (count : ℕ) : Prop :=
  o.bufferCount = 0 ∨ mmCameraMaxNumFrames < o.bufferCount + count
deriving Decidable

theorem range_split {done rest : List ℕ} (h : List.range count = done ++ i :: rest) : done = List.range i := by
  have hget : (range count)[done.length]? = some i := by
    rw [h]
    simp
  obtain ⟨hlt, hlen⟩ := List.getElem?_eq_some_iff.mp hget
  rw [getElem_range] at hlen
  have htake : (range count).take i = done := by
    rw [h, ← hlen, take_left]
  rw [← htake, take_range]
  congr 1
  rw [length_range] at hlt
  omega

theorem heapAllocate_keeps (env : MemEnv) (size : ℕ)
    (secure : Bool) (h : FirstTime r.1 count) : Keeps r (heapAllocate r env count size secure) := by
  rw [heapAllocate]
  rcases alloc_cases r env count size secure with ⟨-, heq⟩ | ⟨hroom, r', hcount, -, ⟨heq, hbal⟩ | ⟨heq, hbal⟩⟩
  · rw [heq]
    exact keeps_refused r _
  · have hempty : r.1.bufferCount = 0 := h.resolve_right (by omega)
    rw [heq]
    simp only
    rw [hempty, Nat.zero_add] at hbal
    have hkeep : ∀ o : QCameraMemory, o.memInfo = r'.1.memInfo →
        Keeps r (.ok, { o with bufferCount := count }, r'.2) := by
      intro o hinfo
      refine ⟨fun b => ?_, fun hne => absurd rfl hne⟩
      rw [hempty, ← hbal b]
      exact balance_congr hinfo rfl
    split
    · exact hkeep r'.1 rfl
    · obtain ⟨hinfo, hcount', done, hdone⟩ := mapLoop_frame env (range count) r'.1
      split
      · rename_i o hmap
        rw [hmap] at hinfo
        exact hkeep o hinfo
      · rename_i o i rest hmap
        rw [hmap] at hinfo hcount' hdone
        have hsplit := range_split hdone
        refine keeps_empty hempty ((giveBackAll_frame _ _).1.trans (hcount'.trans hcount)) fun b => ?_
        have hperm : ((range i).reverse ++ i :: rest).Perm (range count) := by
          rw [hdone, hsplit]
          exact (reverse_perm _).append_right _
        rw [giveBackAll_balance _ (hperm.nodup_iff.mpr nodup_range), balance_perm _ hperm, hempty, ← hbal b]
        exact balance_congr hinfo rfl
  · have hempty : r.1.bufferCount = 0 := h.resolve_right (by omega)
    rw [heq]
    exact keeps_empty hempty hcount hbal

/-- `allocateMore` is refused, or memory that has buffers gets all that it asks for; and where a heap
memory gets its buffers they are mapped. -/
def Grows (r : QCameraMemory × IonMemory) (env : MemEnv) (count size : ℕ) : Prop :=
  mmCameraMaxNumFrames < r.1.bufferCount + count ∨ (r.1.bufferCount = 0 ∨ IonOk r env count size) ∧
    (r.1.memClass = .heap → IonOk r env count size → ∀ i ∈ List.range' r.1.bufferCount count, env.map i = true)

theorem alloc_grows (h : Grows r env count size) :
    (∃ rc r', rc ≠ .ok ∧ alloc r env count size false = (rc, r') ∧ Keeps r (rc, r')) ∨
    ∃ o w, alloc r env count size false = (.ok, o, w) ∧ IonOk r env count size ∧
      (o.bufferCount + count) % 256 = r.1.bufferCount + count ∧
      o.bufferCount = r.1.bufferCount ∧
      (r.1.memClass = .heap → ∀ i ∈ List.range' r.1.bufferCount count, env.map i = true) ∧
      ∀ b, balance (o, w) (List.range (r.1.bufferCount + count)) b = balance r (List.range r.1.bufferCount) b := by
  rcases alloc_cases r env count size false with ⟨-, heq⟩ | ⟨hroom, ⟨o, w⟩, hcount, -, hrc⟩
  · exact .inl ⟨.badIndex, r, nofun, heq, keeps_refused r _⟩
  · obtain ⟨hion, hmap⟩ := h.resolve_left (by omega)
    have hok := @alloc_ok_iff env size false r count hroom
    rcases hrc with ⟨heq, hbal⟩ | ⟨heq, hbal⟩
    · rw [heq] at hok
      have hall := hok.mp rfl
      simp only at hcount
      rw [mmCameraMaxNumFrames] at hroom
      refine .inr ⟨o, w, heq, hall, ?_, hcount, fun hheap => hmap hheap hall, hbal⟩
      rw [hcount, Nat.mod_eq_of_lt (by omega)]
    · refine .inl ⟨.noMemory, (o, w), nofun, heq, ?_⟩
      rcases hion with hempty | hall
      · exact keeps_empty hempty hcount hbal
      · rw [heq] at hok
        cases hok.mpr hall

theorem heapAllocateMore_keeps (hheap : r.1.memClass = .heap) (h : Grows r env count size) :
    Keeps r (heapAllocateMore r env count size) := by
  rw [heapAllocateMore]
  rcases alloc_grows h with ⟨rc, r', hrc, heq, hkeep⟩ | ⟨o, w, heq, -, hmod, hcount, hmap, hbal⟩
  · rw [heq]
    cases rc with
    | ok => exact absurd rfl hrc
    | badIndex => exact hkeep
    | noMemory => exact hkeep
  · rw [heq]
    simp only
    have hdone := @mapLoop_all env (range' o.bufferCount count) (by rw [hcount]; exact hmap hheap) o
    obtain ⟨hinfo, hcount', -⟩ := mapLoop_frame env (range' o.bufferCount count) o
    split
    · rename_i o' hmapped
      rw [hmapped] at hinfo hcount'
      simp only at hinfo hcount'
      refine ⟨fun b => ?_, fun hne => absurd rfl hne⟩
      rw [← hbal b]
      simp only [hcount', hmod]
      exact balance_congr hinfo rfl
    · rename_i o' i rest hmapped
      rw [hmapped] at hdone
      cases hdone

theorem streamAllocate_keeps (env : MemEnv) (size : ℕ)
    (secure : Bool) (h : FirstTime r.1 count) : Keeps r (streamAllocate r env count size secure) := by
  rw [streamAllocate]
  rcases alloc_cases r env count size secure with ⟨-, heq⟩ | ⟨hroom, r', hcount, -, ⟨heq, hbal⟩ | ⟨heq, hbal⟩⟩
  · rw [heq]
    exact keeps_refused r _
  · have hempty : r.1.bufferCount = 0 := h.resolve_right (by omega)
    rw [heq]
    refine ⟨fun b => ?_, fun hne => absurd rfl hne⟩
    rw [hempty, Nat.zero_add] at hbal
    rw [hempty, ← hbal b]
    exact balance_congr rfl rfl
  · have hempty : r.1.bufferCount = 0 := h.resolve_right (by omega)
    rw [heq]
    exact keeps_empty hempty hcount hbal

theorem streamAllocateMore_keeps (h : Grows r env count size) : Keeps r (streamAllocateMore r env count size) := by
  rw [streamAllocateMore]
  rcases alloc_grows h with ⟨rc, r', hrc, heq, hkeep⟩ | ⟨o, w, heq, -, hmod, -, -, hbal⟩
  · rw [heq]
    cases rc with
    | ok => exact absurd rfl hrc
    | badIndex => exact hkeep
    | noMemory => exact hkeep
  · rw [heq]
    refine ⟨fun b => ?_, fun hne => absurd rfl hne⟩
    rw [← hbal b]
    simp only [hmod]
    exact balance_congr rfl rfl

theorem allocate_keeps (env : MemEnv) (size : ℕ)
    (secure : Bool) (h : FirstTime r.1 count) : Keeps r (allocate r env count size secure) := by
  rw [allocate]
  split
  · exact heapAllocate_keeps env size secure h
  · exact streamAllocate_keeps env size secure h

theorem allocateMore_keeps (h : Grows r env count size) : Keeps r (allocateMore r env count size) := by
  rw [allocateMore]
  split
  · exact heapAllocateMore_keeps ‹_› h
  · exact streamAllocateMore_keeps h

theorem deallocate_balance (r : QCameraMemory × IonMemory) :
    balance (deallocate r) (List.range (deallocate r).1.bufferCount) b = balance r (List.range r.1.bufferCount) b := by
  have hback := @giveBackAll_balance b (range r.1.bufferCount) (r.1.unmap (range r.1.bufferCount), r.2) nodup_range
  rw [deallocate]
  simp only [range_zero]
  exact (balance_congr rfl rfl).trans (hback.trans (balance_congr rfl rfl))

end QCameraMemory

/-! ### The camera's memory -/

/-- The memories of a camera, and what they share. -/
structure CameraMemory where
  objs : List QCameraMemory
  ion : IonMemory := {}

namespace CameraMemory

/-- A call on a memory, or the pool is cleared; a count is a `uint8_t`. -/
inductive Input
  | allocate (obj : ℕ) (count : Fin 256) (size : ℕ) (secure : Bool) (env : MemEnv)
  | allocateMore (obj : ℕ) (count : Fin 256) (size : ℕ) (env : MemEnv)
  | deallocate (obj : ℕ)
  | clear

/-- A call on one memory. -/
def onObj (s : CameraMemory) (obj : ℕ) (f : QCameraMemory × IonMemory → MemRc × QCameraMemory × IonMemory) :
    Option (MemRc × CameraMemory) :=
  s.objs[obj]?.map fun o =>
    let r := f (o, s.ion)
    (r.1, { objs := s.objs.set obj r.2.1, ion := r.2.2 })

/-- A call, with its answer. -/
def call (s : CameraMemory) : Input → Option (MemRc × CameraMemory)
  | .allocate obj count size secure env =>
    s.onObj obj fun r => QCameraMemory.allocate r env count size secure
  | .allocateMore obj count size env =>
    s.onObj obj fun r => QCameraMemory.allocateMore r env count size
  | .deallocate obj => s.onObj obj fun r => (.ok, QCameraMemory.deallocate r)
  | .clear => some (.ok, { s with ion := s.ion.clear })

/-- One step. -/
def next (s : CameraMemory) (input : Input) : Option CameraMemory := (s.call input).map Prod.snd

/-! ### Owners -/

/-- The owners of buffers: slots in use, and entries of the pool. -/
def owners (s : CameraMemory) : List ℕ :=
  s.objs.flatMap QCameraMemory.inUse ++ s.ion.pool.filterMap (·.2.buf)

/-- **Each buffer that was allocated has one owner, or was freed once.** -/
def Owned (s : CameraMemory) : Prop :=
  ∀ b, s.owners.count b + s.ion.freed.count b = if b < s.ion.next then 1 else 0

/-- No memory has a buffer yet. -/
structure Fresh (s : CameraMemory) : Prop where
  empty : ∀ o ∈ s.objs, o.bufferCount = 0
  ion : s.ion = {}

/-- **The condition**: memory is first allocated once; memory that has buffers grows only by what ION
and the pool have, and a heap memory by what can be mapped. -/
def Sound (s : CameraMemory) : Input → Prop
  | .allocate obj count _ _ _ => ∀ o ∈ s.objs[obj]?, QCameraMemory.FirstTime o count
  | .allocateMore obj count size env =>
    ∀ o ∈ s.objs[obj]?, QCameraMemory.Grows (o, s.ion) env count size
  | .deallocate _ | .clear => True

/-- The memories before and after a call, one by one. -/
def Untouched (s t : CameraMemory) : Prop :=
  s.objs.length = t.objs.length ∧
    ∀ (i : ℕ) o o', s.objs[i]? = some o → t.objs[i]? = some o' → QCameraMemory.Unchanged o o'

variable {s t : CameraMemory} {o : QCameraMemory} {input : Input} {rc : MemRc}

theorem count_flatMap_set {objs : List QCameraMemory} {i : ℕ} (h : objs[i]? = some o) (o' : QCameraMemory) (b : ℕ) :
    ((objs.set i o').flatMap QCameraMemory.inUse).count b + o.inUse.count b =
      (objs.flatMap QCameraMemory.inUse).count b + o'.inUse.count b := by
  induction objs generalizing i with
  | nil => cases h
  | cons head rest ih =>
    cases i with
    | zero =>
      cases h
      simp only [set_cons_zero, flatMap_cons, count_append]
      omega
    | succ i =>
      have hrest := ih (i := i) h
      simp only [set_cons_succ, flatMap_cons, count_append]
      omega

theorem Owned.onObj {obj : ℕ} {f : QCameraMemory × IonMemory → MemRc × QCameraMemory × IonMemory}
    (hs : s.Owned) (h : s.onObj obj f = some (rc, t))
    (hbal : ∀ o ∈ s.objs[obj]?, ∀ b,
      QCameraMemory.balance (f (o, s.ion)).2 (List.range (f (o, s.ion)).2.1.bufferCount) b =
        QCameraMemory.balance (o, s.ion) (List.range o.bufferCount) b) : t.Owned := by
  rw [CameraMemory.onObj] at h
  obtain ⟨o, hget, heq⟩ := map_eq_some_iff.mp h
  cases heq
  intro b
  have hone := hbal o hget b
  have hall := hs b
  have hset := count_flatMap_set hget (f (o, s.ion)).2.1 b
  simp only [QCameraMemory.balance] at hone
  simp only [owners, count_append, QCameraMemory.inUse] at hall hset ⊢
  split_ifs at hone hall ⊢ <;> omega

theorem Owned.clear (hs : s.Owned) : Owned { s with ion := s.ion.clear } := by
  intro b
  refine Eq.trans ?_ (hs b)
  simp only [owners, IonMemory.clear, count_append, filterMap_nil, count_nil]
  omega

/-- **One call** keeps the owners. -/
theorem Owned.call (hs : s.Owned) (hsound : s.Sound input) (h : s.call input = some (rc, t)) : t.Owned := by
  cases input with
  | allocate obj count size secure env =>
    rw [CameraMemory.call] at h
    exact hs.onObj h fun o ho b => (QCameraMemory.allocate_keeps env size secure (hsound o ho)).1 b
  | allocateMore obj count size env =>
    rw [CameraMemory.call] at h
    exact hs.onObj h fun o ho b => (QCameraMemory.allocateMore_keeps (hsound o ho)).1 b
  | deallocate obj =>
    rw [CameraMemory.call] at h
    exact hs.onObj h fun o ho b => QCameraMemory.deallocate_balance (o, s.ion)
  | clear =>
    cases h
    exact hs.clear

theorem untouched_onObj {obj : ℕ} {f : QCameraMemory × IonMemory → MemRc × QCameraMemory × IonMemory}
    (h : s.onObj obj f = some (rc, t)) (hrc : rc ≠ .ok)
    (hkeep : ∀ o ∈ s.objs[obj]?, (f (o, s.ion)).1 ≠ .ok →
      QCameraMemory.Unchanged o (f (o, s.ion)).2.1) : s.Untouched t := by
  rw [CameraMemory.onObj] at h
  obtain ⟨o, hget, heq⟩ := map_eq_some_iff.mp h
  cases heq
  refine ⟨length_set.symm, fun i p p' hp hp' => ?_⟩
  simp only [getElem?_set] at hp'
  split at hp'
  · rename_i hi
    obtain rfl : p = o := by
      rw [← hi, hget] at hp
      exact (some_inj.mp hp).symm
    split at hp'
    · cases hp'
      exact hkeep p hget hrc
    · cases hp'
  · rw [hp] at hp'
    cases hp'
    exact ⟨rfl, fun _ _ => ⟨rfl, rfl⟩⟩

theorem untouched_call (hsound : s.Sound input) (h : s.call input = some (rc, t)) (hrc : rc ≠ .ok) : s.Untouched t := by
  cases input with
  | allocate obj count size secure env =>
    rw [CameraMemory.call] at h
    exact untouched_onObj h hrc fun o ho =>
      (QCameraMemory.allocate_keeps env size secure (hsound o ho)).2
  | allocateMore obj count size env =>
    rw [CameraMemory.call] at h
    exact untouched_onObj h hrc fun o ho => (QCameraMemory.allocateMore_keeps (hsound o ho)).2
  | deallocate obj =>
    rw [CameraMemory.call] at h
    exact untouched_onObj h hrc fun o ho hne => absurd rfl hne
  | clear =>
    cases h
    exact absurd rfl hrc

/-- At first nothing was allocated. -/
theorem Fresh.owned (h : s.Fresh) : s.Owned := by
  intro b
  have hnone : s.objs.flatMap QCameraMemory.inUse = [] := by
    rw [flatMap_eq_nil_iff]
    intro o ho
    rw [QCameraMemory.inUse, h.empty o ho]
    rfl
  rw [owners, hnone, h.ion]
  simp

/-- **In every run that meets the condition**, each buffer has one owner or was freed, and a next call
that meets it and fails leaves the memories as they were. -/
theorem owned_run {s t : CameraMemory} {inputs : List Input} (h₀ : s.Fresh)
    (hrun : Run (guarded Sound (fires next)) s inputs t) :
    t.Owned ∧ ∀ input rc u, t.Sound input → t.call input = some (rc, u) → rc ≠ .ok → t.Untouched u := by
  refine ⟨hrun.invariant (I := Owned) (fun s input t hs hstep => ?_) h₀.owned,
    fun input rc u hsound hcall hrc => untouched_call hsound hcall hrc⟩
  obtain ⟨⟨rc, u⟩, hcall, rfl⟩ := map_eq_some_iff.mp hstep.2
  exact hs.call hstep.1 hcall

instance (r : QCameraMemory × IonMemory) (env : MemEnv) (count size : ℕ) :
    Decidable (QCameraMemory.IonOk r env count size) :=
  inferInstanceAs (Decidable (∀ i, _ ≤ i → i < _ → env.ion i = true))

instance (r : QCameraMemory × IonMemory) (env : MemEnv) (count size : ℕ) :
    Decidable (QCameraMemory.Grows r env count size) :=
  inferInstanceAs (Decidable (_ ∨ (_ ∨ _) ∧ (_ → _ → ∀ _ ∈ _, _)))

instance (s : CameraMemory) : DecidablePred s.Sound := fun e => by
  delta Sound
  cases e <;> infer_instance

/-- The list of the preview streams. -/
def previewList : PoolList := ⟨.preview, by decide⟩

/-- A heap memory, and two preview memories that share the pool. -/
def threeMemories : CameraMemory where
  objs := [⟨.heap, false, 0, fun _ => {}, fun _ => none⟩,
    ⟨.stream (some previewList), false, 0, fun _ => {}, fun _ => none⟩,
    ⟨.stream (some previewList), false, 0, fun _ => {}, fun _ => none⟩]

/-- ION has no memory left. -/
def ionFails : MemEnv where
  ion _ := false

/-- A heap memory grows; a buffer goes from one stream through the pool to the other. -/
theorem owned_session : ∃ t, Run (guarded Sound (fires next)) threeMemories
      [.allocate 0 2 100 false {}, .allocateMore 0 1 100 {}, .allocate 1 1 100 false {}, .deallocate 1,
        .allocate 2 1 100 false ionFails, .deallocate 0] t ∧
      (t.owners = [3] ∧ t.ion.freed = [0, 1, 2]) ∧
      t.Owned ∧ ∀ input rc u, t.Sound input → t.call input = some (rc, u) → rc ≠ .ok → t.Untouched u :=
  (exists_run (by decide +kernel)).imp fun _ h => ⟨h.1, h.2, owned_run ⟨by decide, rfl⟩ h.1⟩

/-- `allocateMore` fails, and its unwinding gives the buffer that the stream still uses to the pool: the
next stream gets it too. -/
theorem shared_after_failure : ∃ t, Run (fires next) threeMemories
      [.allocate 1 1 100 false {}, .allocateMore 1 1 100 ionFails, .allocate 2 1 100 false {}] t ∧
      t.owners = [0, 0] ∧ ¬ t.Owned := by
  refine (exists_run_fires (P := fun t => t.owners = [0, 0] ∧ t.ion.next = 1 ∧ t.ion.freed = [])
    (by decide +kernel)).imp fun t h => ⟨h.1, h.2.1, fun howned => ?_⟩
  have hzero := howned 0
  rw [h.2.1, h.2.2.1, h.2.2.2] at hzero
  exact absurd hzero (by decide)

end CameraMemory

end Marlin
