import Mathlib.Data.List.Range
import Marlin.StreamFsm

/-!
# The Buffers of a Stream

A `QCameraStream` gets its buffers from the allocator, maps them to the back end, and later unmaps and
deallocates them. In batch mode there is a second memory, of batch buffers, over the stream buffers.

## Conventions

* A call comes with what the allocator, `malloc` and the back end answer while it runs.
* Memory objects are numbered. A buffer is a memory object and an index; `maps` and `unmaps` are the
  buffers that were mapped and unmapped so far.
* `left` are the buffers that were still mapped when their memory was deallocated.
* `BufAllocRoutine` runs as one step, once the stream has been started; `putBufs` before that tells it to
  do nothing.
* A pointer to memory that was deleted stays as it is.
-/

namespace Marlin

/-- `CAMERA_MIN_ALLOCATED_BUFFERS`. -/
def cameraMinAllocatedBuffers : ℕ := 3

/-- A memory object, by its buffers. -/
structure MemObj where
  cnt : ℕ
  gralloc : Bool := false
  mMappableBuffers : ℕ := 0

namespace MemObj

/-- `getMappable`. -/
def getMappable (obj : MemObj) : ℕ := if obj.gralloc then obj.mMappableBuffers else obj.cnt

/-- `allocateMore`, which window memory does not have. -/
def allocateMore (obj : MemObj) (count : ℕ) (ion : Bool) : Option MemObj :=
  if obj.gralloc = true ∨ mmCameraMaxNumFrames < obj.cnt + count ∨ ion = false then none
  else some { obj with cnt := obj.cnt + count }

end MemObj

/-- The status of a call. -/
inductive BufRc
  | noError | noMemory | invalidOperation | badIndex | unknownError
  deriving DecidableEq

/-- What the steps of a call answer. -/
structure BufEnv where
  opsTbl : Bool := true
  allocTask : BufRc := .noError
  allocateStreamBuf : ℕ → Option MemObj := fun count => some { cnt := count }
  allocateStreamUserBuf : Option ℕ := some 1
  getSize : ℕ → Bool := fun _ => true
  map : ℕ → Bool := fun _ => true
  mallocRegFlags : Bool := true
  mallocBufDefs : Bool := true
  mallocPlaneBufDefs : Bool := true
  getRegFlags : Bool := true
  ion : Bool := true
  unmap : BufRc := .noError

/-- The stream, with the memory objects and the buffers of the back end. -/
structure QCameraStream where
  batchMode : Bool := false
  frameBufCnt : ℕ := 0
  mNumBufs : ℕ := 0
  mNumBufsNeedAlloc : ℕ := 0
  mDynBufAlloc : Bool := false
  mNumPlaneBufs : ℕ := 0
  mStreamBufs : Option ℕ := none
  mStreamBatchBufs : Option ℕ := none
  mBufDefs : Bool := false
  mPlaneBufDefs : Bool := false
  mBufAllocPid : Bool := false
  mStreamBufsAcquired : Bool := false
  objs : ℕ → MemObj := fun _ => { cnt := 0 }
  nextObj : ℕ := 0
  deallocated : List ℕ := []
  maps : List (ℕ × ℕ) := []
  unmaps : List (ℕ × ℕ) := []
  left : List (ℕ × ℕ) := []

namespace QCameraStream

/-! ### Memory and the back end -/

/-- A new memory object. -/
def new (s : QCameraStream) (obj : MemObj) : QCameraStream :=
  { s with objs := fun id => if id = s.nextObj then obj else s.objs id, nextObj := s.nextObj + 1 }

/-- The buffers of a list are mapped, all of them. -/
def mapBufs (s : QCameraStream) (id : ℕ) (idxs : List ℕ) : QCameraStream :=
  { s with maps := s.maps ++ idxs.map (Prod.mk id) }

/-- The first buffers of a memory are unmapped, one by one. -/
def unmapBufs (s : QCameraStream) (id count : ℕ) : QCameraStream :=
  { s with unmaps := s.unmaps ++ (List.range count).map (Prod.mk id) }

/-- `deallocate` and `delete`. -/
def deallocate (s : QCameraStream) (id : ℕ) : QCameraStream :=
  { s with
    deallocated := s.deallocated ++ [id]
    left := s.left ++ s.maps.filter fun b => b.1 = id ∧ s.unmaps.count b ≠ s.maps.count b }

/-- The stream buffers go, and the pointer is reset. -/
def dropStreamBufs (s : QCameraStream) (id : ℕ) : QCameraStream :=
  { s.deallocate id with mStreamBufs := none }

/-- The batch buffers go, and the pointer is reset. -/
def dropBatchBufs (s : QCameraStream) (id : ℕ) : QCameraStream :=
  { s.deallocate id with mStreamBatchBufs := none }

/-- All buffers up to the count have a size. -/
def sized (env : BufEnv) (count : ℕ) : Bool := (List.range count).all env.getSize

/-! ### Buffers of the stream -/

/-- How many buffers are allocated first. -/
def numBufAlloc (s : QCameraStream) : ℕ :=
  if s.mDynBufAlloc = true ∧ cameraMinAllocatedBuffers ≤ s.mNumBufs then cameraMinAllocatedBuffers
  else s.mNumBufs

/-- The counts before the allocation. -/
def setNumBufs (s : QCameraStream) : QCameraStream :=
  { s with
    mNumBufsNeedAlloc := s.mNumBufs - s.numBufAlloc
    mDynBufAlloc := s.mDynBufAlloc && decide (cameraMinAllocatedBuffers ≤ s.mNumBufs) }

/-- The stream buffers are there; the allocator says how many. -/
def setStreamBufs (s : QCameraStream) (obj : MemObj) : QCameraStream :=
  { s.new obj with
    mStreamBufs := some s.nextObj
    mNumBufs := (obj.cnt + s.mNumBufsNeedAlloc) % 256 }

/-- The rest of the buffers is left to a thread. -/
def startBufAlloc (s : QCameraStream) : QCameraStream :=
  { s with mBufAllocPid := s.mBufAllocPid || decide (0 < s.mNumBufsNeedAlloc) }

/-- `getBufs`. -/
def getBufs (s : QCameraStream) (env : BufEnv) : BufRc × QCameraStream :=
  if env.opsTbl = false then (.invalidOperation, s)
  else
    match env.allocateStreamBuf s.numBufAlloc with
    | none => (.noMemory, { s.setNumBufs with mStreamBufs := none })
    | some obj =>
      let id := s.nextObj
      let s := s.setNumBufs.setStreamBufs obj
      let numBufsToMap := obj.getMappable
      -- the buffers stay where one has no size
      if sized env numBufsToMap = false then (.invalidOperation, s)
      else if env.map 0 = false then (.invalidOperation, s.dropStreamBufs id)
      else
        let s := s.mapBufs id (List.range numBufsToMap)
        if env.mallocRegFlags = false then
          (.noMemory, (s.unmapBufs id numBufsToMap).dropStreamBufs id)
        else if env.mallocBufDefs = false then
          (.invalidOperation, { (s.unmapBufs id numBufsToMap).dropStreamBufs id with mBufDefs := false })
        else if env.getRegFlags = false then
          (.invalidOperation, { (s.unmapBufs id numBufsToMap).dropStreamBufs id with mBufDefs := false })
        else (.noError, { s.startBufAlloc with mBufDefs := true })

/-! ### Batch buffers -/

/-- The batch buffers are there. -/
def setBatchBufs (s : QCameraStream) (cnt : ℕ) : QCameraStream :=
  { s.new { cnt := cnt } with mStreamBatchBufs := some s.nextObj }

/-- The stream buffers of a batch are there. -/
def setPlaneBufs (s : QCameraStream) (obj : MemObj) : QCameraStream :=
  { s.new obj with mStreamBufs := some s.nextObj, mNumPlaneBufs := obj.cnt }

/-- The stream buffers of `allocateBatchBufs`; on a failure the batch buffers are not unmapped. -/
def mapPlaneBufs (s : QCameraStream) (env : BufEnv) (batch : ℕ) (obj : MemObj) : BufRc × QCameraStream :=
  let id := s.nextObj
  let s := s.setPlaneBufs obj
  if sized env obj.cnt = false ∨ env.map 1 = false then
    (.invalidOperation, (s.dropStreamBufs id).dropBatchBufs batch)
  else
    let s := s.mapBufs id (List.range obj.cnt)
    if env.mallocRegFlags = false then
      (.noMemory, ((s.unmapBufs id obj.cnt).dropStreamBufs id).dropBatchBufs batch)
    else if env.mallocBufDefs = false then
      (.invalidOperation, { ((s.unmapBufs id obj.cnt).dropStreamBufs id).dropBatchBufs batch with mBufDefs := false })
    else if env.mallocPlaneBufDefs = false then
      (.invalidOperation, { ((s.unmapBufs id obj.cnt).dropStreamBufs id).dropBatchBufs batch with
          mBufDefs := false, mPlaneBufDefs := false })
    else (.noError, { s with mBufDefs := true, mPlaneBufDefs := true })

/-- `allocateBatchBufs`. -/
def allocateBatchBufs (s : QCameraStream) (env : BufEnv) : BufRc × QCameraStream :=
  match env.allocateStreamUserBuf with
  | none => (.noMemory, { s with mStreamBatchBufs := none })
  | some cnt =>
    let batch := s.nextObj
    let s := s.setBatchBufs cnt
    if env.map 0 = false then (.noMemory, s.dropBatchBufs batch)
    else
      let s := { s.mapBufs batch (List.range cnt) with
        mNumPlaneBufs := s.mNumBufs * s.frameBufCnt % 256 }
      match env.allocateStreamBuf s.mNumPlaneBufs with
      | none => (.noMemory, { s.dropBatchBufs batch with mStreamBufs := none })
      | some obj => s.mapPlaneBufs env batch obj

/-- The stream buffers of a batch are unmapped. -/
def unmapPlanes (s : QCameraStream) : QCameraStream :=
  match s.mPlaneBufDefs, s.mStreamBufs with
  | false, _ => s
  | true, none => { s with mPlaneBufDefs := false, mNumPlaneBufs := 0 }
  | true, some id =>
    { s.unmapBufs id s.mNumPlaneBufs with mPlaneBufDefs := false, mNumPlaneBufs := 0 }

/-- The stream buffers of a batch go; the pointer is not reset. -/
def deallocPlanes (s : QCameraStream) : QCameraStream :=
  match s.mStreamBufs with
  | none => s
  | some id => s.deallocate id

/-- The batch buffers are unmapped and go. -/
def releaseUserBufs (s : QCameraStream) : QCameraStream :=
  match s.mStreamBatchBufs with
  | none => s
  | some batch => (s.unmapBufs batch (s.objs batch).cnt).dropBatchBufs batch

/-- `releaseBatchBufs`. -/
def releaseBatchBufs (s : QCameraStream) (env : BufEnv) : BufRc × QCameraStream :=
  (env.unmap, { s.unmapPlanes.deallocPlanes with mBufDefs := false }.releaseUserBufs)

/-! ### Deferred buffers -/

/-- `allocateBuffers`. -/
def allocateBuffers (s : QCameraStream) (env : BufEnv) : BufRc × QCameraStream :=
  if s.batchMode then s.allocateBatchBufs env
  else
    match env.allocateStreamBuf s.numBufAlloc with
    | none => (.noMemory, { s.setNumBufs with mStreamBufs := none })
    | some obj =>
      let id := s.nextObj
      let s := s.setNumBufs.setStreamBufs obj
      let numBufsToMap := obj.getMappable
      if env.mallocRegFlags = false then
        (.noMemory, (s.unmapBufs id numBufsToMap).dropStreamBufs id)
      else if env.mallocBufDefs = false then
        (.invalidOperation, { (s.unmapBufs id numBufsToMap).dropStreamBufs id with mBufDefs := false })
      else if env.getRegFlags = false then
        (.invalidOperation, { (s.unmapBufs id numBufsToMap).dropStreamBufs id with mBufDefs := false })
      else (.noError, { s.startBufAlloc with mBufDefs := true })

/-- `mapBuffers`, once the allocation is done. -/
def mapBuffers (s : QCameraStream) (env : BufEnv) : BufRc × QCameraStream :=
  if env.allocTask ≠ .noError then (.noMemory, s)
  else
    match s.mStreamBufs with
    | none => (.unknownError, s)
    | some id =>
      if sized env (s.objs id).getMappable = false then (.badIndex, s)
      else if env.map 0 = false then (.unknownError, s)
      else (.noError, s.mapBufs id (List.range (s.objs id).getMappable))

/-- `BufAllocRoutine`, which has no status. -/
def bufAllocRoutine (s : QCameraStream) (env : BufEnv) : QCameraStream :=
  if s.mNumBufsNeedAlloc = 0 then s
  else
    match s.mStreamBufs with
    | none => s
    | some id =>
      let first := (s.mNumBufs + 256 - s.mNumBufsNeedAlloc) % 256
      match (s.objs id).allocateMore s.mNumBufsNeedAlloc env.ion with
      | none => { s with mNumBufsNeedAlloc := 0 }
      | some obj =>
        let s := { s with
          objs := fun other => if other = id then obj else s.objs other
          mNumBufsNeedAlloc := 0 }
        let idxs := (List.range s.mNumBufs).filter fun i => first ≤ i
        if idxs.all env.getSize && env.map 0 then s.mapBufs id idxs else s

/-- `releaseBuffs`. -/
def releaseBuffs (s : QCameraStream) (env : BufEnv) : BufRc × QCameraStream :=
  if s.batchMode then s.releaseBatchBufs env
  else
    match s.mStreamBufs with
    | none => (.noError, s)
    | some id =>
      let s :=
        if s.mBufDefs then { s.unmapBufs id (s.objs id).getMappable with mBufDefs := false } else s
      (env.unmap, if s.mStreamBufsAcquired = false then s.dropStreamBufs id else s)

/-- `putBufs`: the thread that allocates the rest is told to do nothing. -/
def putBufs (s : QCameraStream) (env : BufEnv) : BufRc × QCameraStream :=
  let s := if s.mBufAllocPid then { s with mBufAllocPid := false, mNumBufsNeedAlloc := 0 } else s
  match s.mStreamBufs with
  | none => (env.unmap, s)
  | some id =>
    let s := { s.unmapBufs id (s.objs id).getMappable with mBufDefs := false }
    (env.unmap, if s.mStreamBufsAcquired = false then s.dropStreamBufs id else s)

end QCameraStream

/-- The calls. -/
inductive BufFn
  | getBufs | allocateBuffers | mapBuffers | allocateBatchBufs | bufAllocRoutine | putBufs | releaseBuffs
  | releaseBatchBufs
  deriving DecidableEq

/-- A call, with what its steps answer. -/
structure BufCall where
  fn : BufFn
  env : BufEnv := {}

namespace QCameraStream

/-- The status of a call, and the stream behind it. -/
def call (s : QCameraStream) (c : BufCall) : BufRc × QCameraStream :=
  match c.fn with
  | .getBufs => s.getBufs c.env
  | .allocateBuffers => s.allocateBuffers c.env
  | .mapBuffers => s.mapBuffers c.env
  | .allocateBatchBufs => s.allocateBatchBufs c.env
  | .bufAllocRoutine => (.noError, s.bufAllocRoutine c.env)
  | .putBufs => s.putBufs c.env
  | .releaseBuffs => s.releaseBuffs c.env
  | .releaseBatchBufs => s.releaseBatchBufs c.env

/-- A call; the routine runs only where its thread was started. -/
def next (s : QCameraStream) (c : BufCall) : Option QCameraStream :=
  if c.fn = .bufAllocRoutine ∧ s.mBufAllocPid = false then none else some (s.call c).2

end QCameraStream

end Marlin
