import Mathlib.Data.List.Nodup
import Marlin.Transition

/-!
# The Frames of the Video Stream

`video_stream_cb_routine` hands the video frames to the encoder: one by one, in the containers of the
driver, or, with a video batch size, after collecting them in a metadata slot of the stream. The encoder
gives back what it was handed with `bufDone`.

## Conventions

* A camera memory is its class, metadata or not, with its index; the data pointers of two memories
  differ.
* The driver fills only buffers that it has: a frame that was received and not returned is not received
  again.
* A `bufDone` of the encoder that answers `BAD_INDEX` leaves the memory with the encoder.
* Time stamps and the contents of the native handles are left out; nothing here reads them.

## Main results

* `Inv.frame`, `Inv.release`: one call keeps the invariant of the stream.
* `conserved_run`: as long as every delivery that is due is made, each frame is collected, delivered or
  returned.
* `batch_lost`: a batch that cannot be delivered is lost but for its last frame.
-/

namespace Marlin

open List Option Transition

/-- `CAMERA_MIN_VIDEO_BATCH_BUFFERS`. -/
def cameraMinVideoBatchBuffers : ℕ := 3

/-- `CAMERA_MAX_CONSUMER_BATCH_BUFFER_SIZE`. -/
def cameraMaxConsumerBatchBufferSize : ℕ := 16

/-- A camera memory of the video buffers. -/
structure CameraMem where
  metadata : Bool
  index : ℕ
  deriving DecidableEq

/-- What is fixed while the stream runs: the video batch size, whether the frames are batch containers,
`mStoreMetaDataInFrame`, and the numbers of buffers. -/
structure VideoConfig where
  videoBatchSize : ℕ
  batchMode : Bool
  storeMetaDataInFrame : Bool
  numBufs : ℕ
  bufferCount : ℕ
  metaBufCount : ℕ
  batch_le : videoBatchSize ≤ cameraMaxConsumerBatchBufferSize
  numBufs_lt : numBufs < 256

/-- `MetaMemory`. -/
structure MetaMemory where
  consumerOwned : Bool := false
  numBuffers : ℕ := 0
  bufIndex : ℕ → ℕ := fun _ => 0

/-- The video stream, with the callbacks of the interface. `received` and `returned` list the frames that
came from the driver and went back to it; `encoder` lists the memories that the encoder was given and has
not returned. -/
structure VideoCbStream where
  curMetaMemory : Option CameraMem := none
  curBufIndex : Option ℕ := none
  curMetaIndex : Option ℕ := none
  streamMetaMemory : ℕ → MetaMemory := fun _ => {}
  dataCbTimestamp : Bool := false
  msgEnabled : Bool := false
  received : List ℕ := []
  returned : List ℕ := []
  encoder : List CameraMem := []

/-- A video frame: whether its camera handle is the one of the interface, its buffer, and whether it has
a memory object. -/
structure VideoFrame where
  validHandle : Bool := true
  bufIdx : ℕ
  memInfo : Bool := true

namespace VideoConfig

/-- `QCameraVideoMemory::getMemory`. -/
def getMemory (c : VideoConfig) (index : ℕ) (metadata : Bool) : Option CameraMem :=
  if c.metaBufCount ≤ index ∨ metadata = false ∧ c.bufferCount ≤ index then none
  else some ⟨metadata, index⟩

/-- `QCameraVideoMemory::updateNativeHandle`, of metadata: the index of the handle. An index `-1` is no
index. -/
def updateNativeHandle (c : VideoConfig) (index : Option ℕ) : Option ℕ :=
  index.filter (· < c.metaBufCount)

/-- `QCameraVideoMemory::getMatchBufIndex`. -/
def getMatchBufIndex (c : VideoConfig) (opq : CameraMem) (isMetaData : Bool) : Option ℕ :=
  if opq.metadata = isMetaData ∧ opq.index < (if isMetaData then c.metaBufCount else c.bufferCount) then
    some opq.index
  else none

/-- Plane buffers are collected. -/
def Collects (c : VideoConfig) : Prop := c.batchMode = false ∧ c.videoBatchSize ≠ 0
deriving Decidable

end VideoConfig

namespace MetaMemory

/-- The frames that the slot lists. -/
def listed (m : MetaMemory) : List ℕ := (List.range m.numBuffers).map m.bufIndex

/-- A frame is put in. -/
def put (m : MetaMemory) (index bufIdx : ℕ) : MetaMemory where
  consumerOwned := true
  numBuffers := m.numBuffers + 1
  bufIndex j := if j = index then bufIdx else m.bufIndex j

@[simp] theorem listed_of_empty {m : MetaMemory} (h : m.numBuffers = 0) : m.listed = [] := by
  rw [listed, h]
  rfl

theorem listed_put (m : MetaMemory) (bufIdx : ℕ) : (m.put m.numBuffers bufIdx).listed = m.listed ++ [bufIdx] := by
  rw [listed, put, range_succ, map_append]
  simp only [map_cons, map_nil, if_true]
  congr 1
  refine map_congr_left fun j hj => if_neg ?_
  have hlt := mem_range.mp hj
  omega

end MetaMemory

namespace VideoCbStream

/-- `QCameraStream::start` resets the batch state. -/
def start (s : VideoCbStream) : VideoCbStream :=
  { s with curMetaMemory := none, curBufIndex := none, curMetaIndex := none,
           streamMetaMemory := fun _ => {} }

/-- A slot is replaced. -/
def setMeta (s : VideoCbStream) (i : ℕ) (m : MetaMemory) : VideoCbStream :=
  { s with streamMetaMemory := fun j => if j = i then m else s.streamMetaMemory j }

/-- `bufDone(index)`. -/
def bufDone (s : VideoCbStream) (c : VideoConfig) (index : ℕ) : VideoCbStream :=
  if index < c.numBufs then { s with returned := s.returned ++ [index] } else s

/-- `bufDone(opaque, isMetaData)`, with whether it answers `NO_ERROR`. -/
def bufDoneOpaque (s : VideoCbStream) (c : VideoConfig) (opq : CameraMem) (isMetaData : Bool) : Bool × VideoCbStream :=
  match c.getMatchBufIndex opq isMetaData with
  | none => (false, s)
  | some index =>
    if c.numBufs ≤ index then (false, s)
    else
      let slot := s.streamMetaMemory index
      if index < cameraMinVideoBatchBuffers ∧ 0 < slot.numBuffers then
        (true, (slot.listed.foldl (fun s b => s.bufDone c b) s).setMeta index
          { slot with consumerOwned := false, numBuffers := 0 })
      else (true, s.bufDone c index)

/-- The end of the routine: the memory goes to the encoder, if anybody listens. -/
def notify (s : VideoCbStream) (c : VideoConfig) (frame : VideoFrame) (mem : CameraMem) (notifyOk : Bool) :
    VideoCbStream :=
  if s.dataCbTimestamp ∧ s.msgEnabled then
    if notifyOk then { s with encoder := s.encoder ++ [mem] } else s.bufDone c frame.bufIdx
  else s

/-- A free slot is opened, if there is no open one. -/
def openMeta (s : VideoCbStream) (c : VideoConfig) : VideoCbStream :=
  if s.curMetaMemory = none ∨ s.curBufIndex = none then
    match (List.range cameraMinVideoBatchBuffers).find? fun i =>
        (s.streamMetaMemory i).consumerOwned = false with
    | some i =>
      { s.setMeta i { s.streamMetaMemory i with numBuffers := 0 } with
        curMetaMemory := c.getMemory i true, curBufIndex := some 0, curMetaIndex := some i }
    | none => s
  else s

/-- A plane buffer is collected. A frame without a memory object is dereferenced, and the place `-1` is
not one of the slot. -/
def collect (s : VideoCbStream) (c : VideoConfig) (frame : VideoFrame) (notifyOk : Bool) : Option VideoCbStream :=
  if frame.memInfo = false then none
  else
    let s := s.openMeta c
    match s.curMetaMemory, c.updateNativeHandle s.curMetaIndex with
    | some mem, some slot =>
      match s.curBufIndex with
      | none => none
      | some index =>
        let s := s.setMeta slot ((s.streamMetaMemory slot).put index (frame.bufIdx % 256))
        if index + 1 = c.videoBatchSize then
          let s := { s with curBufIndex := none, curMetaIndex := none, curMetaMemory := none }
          some (s.notify c frame mem notifyOk)
        else some { s with curBufIndex := some (index + 1) }
    | _, _ => some ({ s with curBufIndex := none }.bufDone c frame.bufIdx)

/-- A plane buffer is handed over by itself. -/
def direct (s : VideoCbStream) (c : VideoConfig) (frame : VideoFrame) (notifyOk : Bool) : VideoCbStream :=
  if frame.memInfo then
    match c.getMemory frame.bufIdx c.storeMetaDataInFrame with
    | some mem => s.notify c frame mem notifyOk
    | none => s
  else s

/-- A container is handed over. -/
def container (s : VideoCbStream) (c : VideoConfig) (frame : VideoFrame) (notifyOk : Bool) :
    VideoCbStream :=
  match frame.memInfo, c.updateNativeHandle (some frame.bufIdx), c.getMemory frame.bufIdx true with
  | true, some _, some mem => s.notify c frame mem notifyOk
  | true, some _, none => s
  | _, _, _ => s.bufDone c frame.bufIdx

/-- `video_stream_cb_routine`. -/
def videoStreamCbRoutine (s : VideoCbStream) (c : VideoConfig) (frame : VideoFrame) (notifyOk : Bool) :
    Option VideoCbStream :=
  if frame.validHandle = false then some s
  else if c.batchMode then some (s.container c frame notifyOk)
  else if c.videoBatchSize = 0 then some (s.direct c frame notifyOk)
  else s.collect c frame notifyOk

/-- What happens to the stream. -/
inductive Input
  | frame (frame : VideoFrame) (notifyOk : Bool)
  | messages (dataCbTimestamp msgEnabled : Bool)
  | release (opq : CameraMem) (isMetaData : Bool)

/-- One step: a frame comes from a buffer that the driver has; the encoder returns what it was given. -/
def next (c : VideoConfig) (s : VideoCbStream) : Input → Option VideoCbStream
  | .frame frame notifyOk =>
    if frame.bufIdx < c.numBufs ∧ s.received.count frame.bufIdx = s.returned.count frame.bufIdx then
      { s with received := s.received ++ [frame.bufIdx] }.videoStreamCbRoutine c frame notifyOk
    else none
  | .messages dataCbTimestamp msgEnabled =>
    some { s with dataCbTimestamp := dataCbTimestamp, msgEnabled := msgEnabled }
  | .release opq isMetaData =>
    if opq ∈ s.encoder then
      let (ok, t) := s.bufDoneOpaque c opq isMetaData
      some { t with encoder := if ok then t.encoder.erase opq else t.encoder }
    else none

/-! ### The places of a frame -/

/-- The open slot. -/
def openSlot (s : VideoCbStream) : Option ℕ :=
  if s.curMetaMemory = none ∨ s.curBufIndex = none then none else s.curMetaIndex

/-- The frames that are collected. -/
def collected (s : VideoCbStream) : List ℕ :=
  match s.openSlot with
  | some i => (s.streamMetaMemory i).listed
  | none => []

/-- The frames that a memory of the encoder stands for. -/
def covers (s : VideoCbStream) (c : VideoConfig) (mem : CameraMem) : List ℕ :=
  if c.Collects then (s.streamMetaMemory mem.index).listed else [mem.index]

/-- The frames that the encoder has. -/
def delivered (s : VideoCbStream) (c : VideoConfig) : List ℕ := s.encoder.flatMap (s.covers c)

/-- **The frames are conserved**: each is collected, delivered or returned, and outside the driver it is
in one place; the encoder has full slots, each once, and none that is open. -/
structure Conserved (c : VideoConfig) (s : VideoCbStream) : Prop where
  placed : ∀ b, s.received.count b = s.returned.count b + s.collected.count b + (s.delivered c).count b
  once : ∀ b, s.collected.count b + (s.delivered c).count b ≤ 1
  full : c.Collects → ∀ mem ∈ s.encoder, (s.covers c mem).length = c.videoBatchSize
  nodup : c.Collects → s.encoder.Nodup
  closed : c.Collects → ∀ mem ∈ s.encoder, s.openSlot ≠ some mem.index

/-! ### The shape of the stream -/

/-- Slot `i` is open, and not with the encoder. -/
structure Open (c : VideoConfig) (s : VideoCbStream) (i : ℕ) : Prop where
  memory : s.curMetaMemory = some ⟨true, i⟩
  place : s.curMetaIndex = some i
  filled : s.curBufIndex = some (s.streamMetaMemory i).numBuffers
  room : (s.streamMetaMemory i).numBuffers < c.videoBatchSize
  handle : i < c.metaBufCount
  bound : i < cameraMinVideoBatchBuffers
  free : ⟨true, i⟩ ∉ s.encoder

/-- **The invariant of the slots**. -/
structure Shape (c : VideoConfig) (s : VideoCbStream) : Prop where
  idle : ¬ c.Collects → s.curMetaMemory = none ∧ ∀ i, (s.streamMetaMemory i).numBuffers = 0
  slot : c.Collects → s.curMetaMemory = none ∨ ∃ i, s.Open c i
  held : c.Collects → ∀ mem ∈ s.encoder, (mem.metadata = true ∧ mem.index < cameraMinVideoBatchBuffers) ∧
    (s.streamMetaMemory mem.index).consumerOwned = true ∧
    (s.streamMetaMemory mem.index).numBuffers = c.videoBatchSize
  nodup : c.Collects → s.encoder.Nodup

/-- How often a frame was returned, or is in the stream or with the encoder. -/
def total (c : VideoConfig) (s : VideoCbStream) (b : ℕ) : ℕ :=
  s.returned.count b + s.collected.count b + (s.delivered c).count b

/-- From `s` to `t` some frames are added. -/
structure Adds (c : VideoConfig) (s t : VideoCbStream) (frames : List ℕ) : Prop where
  received : t.received = s.received
  returned : ∀ b, s.returned.count b ≤ t.returned.count b
  total : ∀ b, t.total c b = s.total c b + frames.count b

variable {c : VideoConfig} {s t u : VideoCbStream} {frame : VideoFrame} {mem : CameraMem} {i b : ℕ}
  {ok : Bool}

theorem openSlot_none (h : s.curMetaMemory = none) : s.openSlot = none := if_pos (.inl h)

theorem collected_none (h : s.curMetaMemory = none) : s.collected = [] := by
  rw [collected, openSlot_none h]

theorem Open.openSlot_eq (h : s.Open c i) : s.openSlot = some i := by
  rw [openSlot, h.memory, h.filled, if_neg (by simp), h.place]

theorem Open.collected_eq (h : s.Open c i) : s.collected = (s.streamMetaMemory i).listed := by
  rw [collected, h.openSlot_eq]

theorem delivered_congr (henc : t.encoder = s.encoder) (h : c.Collects → ∀ m ∈ s.encoder,
      (t.streamMetaMemory m.index).listed = (s.streamMetaMemory m.index).listed) :
    t.delivered c = s.delivered c := by
  rw [delivered, delivered, henc]
  refine flatMap_congr fun m hm => ?_
  rw [covers, covers]
  split
  · exact h ‹_› m hm
  · rfl

theorem delivered_append (s : VideoCbStream) (mem : CameraMem) :
    delivered { s with encoder := s.encoder ++ [mem] } c = s.delivered c ++ s.covers c mem := by
  rw [delivered, flatMap_append]
  simp only [flatMap_cons, flatMap_nil, append_nil]
  rfl

theorem adds_bufDone (s : VideoCbStream) (h : b < c.numBufs) : Adds c s (s.bufDone c b) [b] := by
  rw [bufDone, if_pos h]
  refine ⟨rfl, fun a => ?_, fun a => ?_⟩
  · simp only [count_append]
    omega
  · have hcollected : collected { s with returned := s.returned ++ [b] } = s.collected := rfl
    have hdelivered : delivered { s with returned := s.returned ++ [b] } c = s.delivered c := rfl
    rw [total, total, hcollected, hdelivered, count_append]
    omega

theorem Shape.bufDone (h : s.Shape c) (b : ℕ) : (s.bufDone c b).Shape c := by
  rw [VideoCbStream.bufDone]
  split
  · refine ⟨h.idle, fun hc => (h.slot hc).imp id ?_, h.held, h.nodup⟩
    rintro ⟨i, hi⟩
    exact ⟨i, hi.memory, hi.place, hi.filled, hi.room, hi.handle, hi.bound, hi.free⟩
  · exact h

/-! ### One frame by itself -/

/-- Someone listens, and the delivery succeeds. -/
def Heard (s : VideoCbStream) : Prop := s.dataCbTimestamp = true ∧ s.msgEnabled = true
deriving Decidable

theorem notify_heard (h : s.Heard) : s.notify c frame mem ok =
    if ok then { s with encoder := s.encoder ++ [mem] } else s.bufDone c frame.bufIdx :=
  if_pos h

theorem Shape.notify (h : s.Shape c) (hc : ¬ c.Collects) (hheard : s.Heard)
    (hlt : frame.bufIdx < c.numBufs) (hmem : mem.index = frame.bufIdx) :
    (s.notify c frame mem ok).Shape c ∧ Adds c s (s.notify c frame mem ok) [frame.bufIdx] := by
  rw [notify_heard hheard]
  split
  · refine ⟨⟨h.idle, fun h => absurd h hc, fun h => absurd h hc, fun h => absurd h hc⟩, rfl,
      fun _ => Nat.le_refl _, fun a => ?_⟩
    have hcollected : collected { s with encoder := s.encoder ++ [mem] } = s.collected := rfl
    rw [total, total, hcollected, delivered_append, covers, if_neg hc, hmem, count_append]
    simp only
    omega
  · exact ⟨h.bufDone _, adds_bufDone s hlt⟩

/-! ### One frame of a batch -/

theorem Adds.refl (c : VideoConfig) (s : VideoCbStream) : Adds c s s [] :=
  ⟨rfl, fun _ => Nat.le_refl _, fun _ => by rw [count_nil, Nat.add_zero]⟩

theorem Adds.trans {l l' : List ℕ} (h : Adds c s t l) (h' : Adds c t u l') : Adds c s u (l ++ l') where
  received := h'.received.trans h.received
  returned b := Nat.le_trans (h.returned b) (h'.returned b)
  total b := by
    rw [h'.total, h.total, count_append]
    omega

theorem Shape.index_ne (h : s.Shape c) (hc : c.Collects) (hmem : mem ∈ s.encoder)
    (hi : ⟨true, i⟩ ∉ s.encoder) : mem.index ≠ i := by
  rintro rfl
  have hmeta := (h.held hc mem hmem).1.1
  refine hi ?_
  rwa [← hmeta]

theorem Shape.delivered_setMeta (h : s.Shape c) (hi : ⟨true, i⟩ ∉ s.encoder) (henc : t.encoder = s.encoder)
    (hslots : ∀ j, j ≠ i → t.streamMetaMemory j = s.streamMetaMemory j) :
    t.delivered c = s.delivered c :=
  delivered_congr henc fun hc m hm => by rw [hslots m.index (h.index_ne hc hm hi)]

theorem Shape.held_setMeta (h : s.Shape c) (hc : c.Collects) (hi : ⟨true, i⟩ ∉ s.encoder) (henc : t.encoder = s.encoder)
    (hslots : ∀ j, j ≠ i → t.streamMetaMemory j = s.streamMetaMemory j) :
    ∀ mem ∈ t.encoder, (mem.metadata = true ∧ mem.index < cameraMinVideoBatchBuffers) ∧
      (t.streamMetaMemory mem.index).consumerOwned = true ∧
      (t.streamMetaMemory mem.index).numBuffers = c.videoBatchSize := by
  intro m hm
  rw [henc] at hm
  rw [hslots m.index (h.index_ne hc hm hi)]
  exact h.held hc m hm

theorem Shape.openMeta (h : s.Shape c) (hc : c.Collects) : (s.openMeta c).Shape c ∧ Adds c s (s.openMeta c) [] := by
  rw [VideoCbStream.openMeta]
  split
  · rename_i hclosed
    have hnone : s.curMetaMemory = none := by
      rcases h.slot hc with hnone | ⟨i, hi⟩
      · exact hnone
      · rw [hi.memory, hi.filled] at hclosed
        simp at hclosed
    split
    · rename_i i hfind
      have hfree : ⟨true, i⟩ ∉ s.encoder := by
        intro hmem
        have howned := (h.held hc _ hmem).2.1
        have hnot := find?_some hfind
        simp only [howned] at hnot
        cases hnot
      generalize ht : ({ s.setMeta i { s.streamMetaMemory i with numBuffers := 0 } with
        curMetaMemory := c.getMemory i true, curBufIndex := some 0, curMetaIndex := some i } : VideoCbStream) = t
      have henc : t.encoder = s.encoder := by rw [← ht]; rfl
      have hslots : ∀ j, j ≠ i → t.streamMetaMemory j = s.streamMetaMemory j := by
        rintro j hj
        rw [← ht]
        exact if_neg hj
      have hzero : (t.streamMetaMemory i).numBuffers = 0 := by
        rw [← ht]
        simp only [setMeta, if_true]
      have hslot : t.curMetaMemory = none ∨ t.Open c i := by
        by_cases hlt : i < c.metaBufCount
        · refine .inr ⟨?_, by rw [← ht], by rw [hzero, ← ht], ?_, hlt,
            mem_range.mp (mem_of_find?_eq_some hfind), henc ▸ hfree⟩
          · rw [← ht]
            simp only [VideoConfig.getMemory]
            rw [if_neg]
            simpa using hlt
          · rw [hzero]
            exact Nat.pos_of_ne_zero hc.2
        · left
          rw [← ht]
          exact if_pos (.inl (by omega))
      have hcollected : t.collected = [] := by
        rcases hslot with hnone | hopen
        · exact collected_none hnone
        · rw [hopen.collected_eq, MetaMemory.listed_of_empty hzero]
      refine ⟨⟨fun hn => absurd hc hn, fun _ => hslot.imp id fun hopen => ⟨i, hopen⟩,
        fun _ => h.held_setMeta hc hfree henc hslots, fun _ => henc ▸ h.nodup hc⟩,
        by rw [← ht]; rfl, fun b => by rw [← ht]; exact Nat.le_refl _, fun b => ?_⟩
      have hreturned : t.returned = s.returned := by rw [← ht]; rfl
      rw [total, total, hcollected, collected_none hnone, h.delivered_setMeta hfree henc hslots,
        hreturned, count_nil, Nat.add_zero, Nat.add_zero]
    · exact ⟨h, Adds.refl c s⟩
  · exact ⟨h, Adds.refl c s⟩

/-- A frame is put in the open slot. -/
def fill (s : VideoCbStream) (i b : ℕ) : VideoCbStream :=
  s.setMeta i ((s.streamMetaMemory i).put (s.streamMetaMemory i).numBuffers b)

theorem listed_fill (s : VideoCbStream) (i b : ℕ) :
    ((s.fill i b).streamMetaMemory i).listed = (s.streamMetaMemory i).listed ++ [b] := by
  rw [← MetaMemory.listed_put]
  simp only [fill, setMeta, if_true]

theorem fill_of_ne {j : ℕ} (s : VideoCbStream) (b : ℕ) (h : j ≠ i) :
    (s.fill i b).streamMetaMemory j = s.streamMetaMemory j := if_neg h

theorem numBuffers_fill (s : VideoCbStream) (i b : ℕ) :
    ((s.fill i b).streamMetaMemory i).numBuffers = (s.streamMetaMemory i).numBuffers + 1 := by
  simp only [fill, setMeta, if_true, MetaMemory.put]

theorem Shape.putMore (h : s.Shape c) (hc : c.Collects) (hopen : s.Open c i)
    (hroom : (s.streamMetaMemory i).numBuffers + 1 < c.videoBatchSize)
    (ht : t = { s.fill i b with curBufIndex := some ((s.streamMetaMemory i).numBuffers + 1) }) :
    t.Shape c ∧ Adds c s t [b] := by
  have henc : t.encoder = s.encoder := by rw [ht]; rfl
  have hslots : ∀ j, j ≠ i → t.streamMetaMemory j = s.streamMetaMemory j := by
    intro j hj
    rw [ht]
    exact fill_of_ne s b hj
  have hnum : (t.streamMetaMemory i).numBuffers = (s.streamMetaMemory i).numBuffers + 1 := by
    rw [ht]
    exact numBuffers_fill s i b
  have hopen' : t.Open c i := by
    refine ⟨?_, ?_, ?_, hnum ▸ hroom, hopen.handle, hopen.bound, henc ▸ hopen.free⟩
    · rw [ht]
      exact hopen.memory
    · rw [ht]
      exact hopen.place
    · rw [hnum, ht]
  have hlisted : (t.streamMetaMemory i).listed = (s.streamMetaMemory i).listed ++ [b] := by
    rw [ht]
    exact listed_fill s i b
  have hreturned : t.returned = s.returned := by rw [ht]; rfl
  refine ⟨⟨fun hn => absurd hc hn, fun _ => .inr ⟨i, hopen'⟩,
    fun _ => h.held_setMeta hc hopen.free henc hslots, fun _ => henc ▸ h.nodup hc⟩,
    by rw [ht]; rfl, fun a => hreturned ▸ Nat.le_refl _, fun a => ?_⟩
  rw [total, total, hopen'.collected_eq, hopen.collected_eq, hlisted, hreturned,
    h.delivered_setMeta hopen.free henc hslots, count_append]
  omega

/-- **The frame fills the slot**: the slot is closed, and handed over. A delivery that fails gives one
frame back. -/
theorem Shape.putLast (h : s.Shape c) (hc : c.Collects) (hopen : s.Open c i)
    (hfull : (s.streamMetaMemory i).numBuffers + 1 = c.videoBatchSize)
    (ht : t = { s.fill i frame.bufIdx with
      curBufIndex := none, curMetaIndex := none, curMetaMemory := none })
    (hheard : s.Heard) (hok : ok = true ∨ c.videoBatchSize = 1) (hlt : frame.bufIdx < c.numBufs) :
    (t.notify c frame ⟨true, i⟩ ok).Shape c ∧ Adds c s (t.notify c frame ⟨true, i⟩ ok) [frame.bufIdx] := by
  have henc : t.encoder = s.encoder := by rw [ht]; rfl
  have hslots : ∀ j, j ≠ i → t.streamMetaMemory j = s.streamMetaMemory j := by
    intro j hj
    rw [ht]
    exact fill_of_ne s _ hj
  have hnum : (t.streamMetaMemory i).numBuffers = c.videoBatchSize := by
    rw [← hfull, ht]
    exact numBuffers_fill s i _
  have hnone : t.curMetaMemory = none := by rw [ht]
  have hlisted : (t.streamMetaMemory i).listed = (s.streamMetaMemory i).listed ++ [frame.bufIdx] := by
    rw [ht]
    exact listed_fill s i _
  have hreturned : t.returned = s.returned := by rw [ht]; rfl
  have hreceived : t.received = s.received := by rw [ht]; rfl
  have hdelivered := h.delivered_setMeta hopen.free henc hslots
  have hheld := h.held_setMeta hc hopen.free henc hslots
  have hheard' : t.Heard := by rw [ht]; exact hheard
  have hshape : t.Shape c :=
    ⟨fun hn => absurd hc hn, fun _ => .inl hnone, fun _ => hheld, fun _ => henc ▸ h.nodup hc⟩
  rw [notify_heard hheard']
  split
  · refine ⟨⟨fun hn => absurd hc hn, fun _ => .inl hnone, fun _ m hm => ?_, fun _ => ?_⟩, hreceived,
      fun a => hreturned ▸ Nat.le_refl _, fun a => ?_⟩
    · rcases mem_append.mp hm with hm | hm
      · exact hheld m hm
      · cases mem_singleton.mp hm
        refine ⟨⟨rfl, hopen.bound⟩, ?_, hnum⟩
        rw [ht]
        simp only [fill, setMeta, if_true, MetaMemory.put]
    · refine nodup_append.mpr ⟨henc ▸ h.nodup hc, nodup_singleton _, ?_⟩
      rintro m hm m' hm' rfl
      cases mem_singleton.mp hm'
      exact hopen.free (henc ▸ hm)
    · have hcollected : collected { t with encoder := t.encoder ++ [⟨true, i⟩] } = [] :=
        collected_none hnone
      rw [total, total, hcollected, delivered_append, covers, if_pos hc, hopen.collected_eq, hlisted,
        hdelivered, count_append, count_append, count_nil]
      simp only [hreturned]
      omega
  · rename_i hfail
    have hone : c.videoBatchSize = 1 := hok.resolve_left hfail
    have hempty : (s.streamMetaMemory i).listed = [] := MetaMemory.listed_of_empty (by omega)
    have hadds := adds_bufDone t hlt
    refine ⟨hshape.bufDone _, hadds.received.trans hreceived, fun a => hreturned ▸ hadds.returned a, fun a => ?_⟩
    rw [hadds.total, total, total, collected_none hnone, hopen.collected_eq, hempty, hdelivered, hreturned]

/-! ### The routine -/

/-- With this frame a slot is full. -/
def Fills (c : VideoConfig) (s : VideoCbStream) : Prop :=
  (s.openMeta c).curMetaMemory ≠ none ∧ (s.openMeta c).curBufIndex = some (c.videoBatchSize - 1)
deriving Decidable

theorem openMeta_heard (h : s.Heard) : (s.openMeta c).Heard := by
  rw [openMeta]
  split
  · split
    · exact h
    · exact h
  · exact h

theorem Shape.collect (h : s.Shape c) (hc : c.Collects) (hlt : frame.bufIdx < c.numBufs)
    (hfills : Fills c s → s.Heard ∧ (ok = true ∨ c.videoBatchSize = 1))
    (hstep : s.collect c frame ok = some t) :
    t.Shape c ∧ Adds c s t [frame.bufIdx] := by
  obtain ⟨hshape, hadds⟩ := h.openMeta hc
  have hmod : frame.bufIdx % 256 = frame.bufIdx :=
    Nat.mod_eq_of_lt (Nat.lt_trans hlt c.numBufs_lt)
  have hheard : s.Heard → (s.openMeta c).Heard := openMeta_heard
  rw [Fills] at hfills
  rw [VideoCbStream.collect, hmod] at hstep
  simp only at hstep
  generalize s.openMeta c = u at hshape hadds hheard hfills hstep
  split at hstep
  · cases hstep
  · rcases hshape.slot hc with hnone | ⟨i, hopen⟩
    · rw [hnone] at hstep
      cases hstep
      have hone : ({ u with curMetaMemory := none, curBufIndex := none } : VideoCbStream).Shape c :=
        ⟨fun hn => absurd hc hn, fun _ => .inl rfl, hshape.held, hshape.nodup⟩
      have hsame : Adds c u { u with curMetaMemory := none, curBufIndex := none } [] := by
        refine ⟨rfl, fun _ => Nat.le_refl _, fun a => ?_⟩
        rw [total, total, collected_none hnone]
        rfl
      exact ⟨hone.bufDone _, (hadds.trans hsame).trans (adds_bufDone _ hlt)⟩
    · have hnh : c.updateNativeHandle (some i) = some i := by
        rw [VideoConfig.updateNativeHandle, filter_some, if_pos (decide_eq_true hopen.handle)]
      rw [hopen.memory, hopen.place, hnh] at hstep
      simp only [hopen.filled] at hstep
      split at hstep
      · rename_i hfull
        cases hstep
        have hready := hfills ⟨by rw [hopen.memory]; rintro ⟨⟩, by
          rw [hopen.filled, ← hfull, Nat.add_sub_cancel]⟩
        obtain ⟨hlast, hadd⟩ :=
          hshape.putLast hc hopen hfull rfl (hheard hready.1) hready.2 hlt
        exact ⟨hlast, hadds.trans hadd⟩
      · rename_i hfull
        cases hstep
        have hroom := hopen.room
        obtain ⟨hmore, hadd⟩ := hshape.putMore hc hopen (by omega) rfl
        exact ⟨hmore, hadds.trans hadd⟩

/-- A memory is handed to the encoder, if somebody listens. -/
def Delivers (c : VideoConfig) (s : VideoCbStream) (frame : VideoFrame) : Prop :=
  if c.batchMode then frame.memInfo = true ∧ frame.bufIdx < c.metaBufCount
  else if c.videoBatchSize = 0 then True
  else Fills c s
deriving Decidable

/-- **The condition**: the frame is of this camera; a frame that is handed over by itself has a camera
memory; and where a memory is handed over, somebody listens, and a batch of several frames is taken. -/
def Kept (c : VideoConfig) (s : VideoCbStream) : Input → Prop
  | .frame frame notifyOk =>
    frame.validHandle = true ∧
    (c.batchMode = false → c.videoBatchSize = 0 → frame.memInfo = true ∧
      c.getMemory frame.bufIdx c.storeMetaDataInFrame ≠ none) ∧
    (Delivers c s frame → s.Heard ∧ (notifyOk = true ∨ ¬ c.Collects ∨ c.videoBatchSize = 1))
  | .messages _ _ | .release _ _ => True

theorem getMemory_index {index : ℕ} {metadata : Bool} (h : c.getMemory index metadata = some mem) :
    mem.index = index := by
  rw [VideoConfig.getMemory] at h
  split at h
  · cases h
  · cases h
    rfl

theorem Shape.routine (h : s.Shape c) (hlt : frame.bufIdx < c.numBufs)
    (hkept : Kept c s (.frame frame ok)) (hstep : s.videoStreamCbRoutine c frame ok = some t) :
    t.Shape c ∧ Adds c s t [frame.bufIdx] := by
  obtain ⟨hvalid, hmem, hdeliver⟩ := hkept
  rw [videoStreamCbRoutine, if_neg (by rw [hvalid]; exact nofun)] at hstep
  rw [Delivers] at hdeliver
  split at hstep
  · rename_i hbatch
    have hc : ¬ c.Collects := by
      rintro ⟨hplane, -⟩
      rw [hplane] at hbatch
      cases hbatch
    rw [if_pos hbatch] at hdeliver
    cases hstep
    rw [container]
    split
    · rename_i slot mem hinfo hnh hget
      rw [VideoConfig.updateNativeHandle, filter_some] at hnh
      split at hnh
      · rename_i hbound
        exact h.notify hc (hdeliver ⟨hinfo, of_decide_eq_true hbound⟩).1 hlt (getMemory_index hget)
      · cases hnh
    · rename_i slot hinfo hnh hget
      rw [VideoConfig.updateNativeHandle, filter_some] at hnh
      split at hnh
      · rename_i hbound
        have hmeta := of_decide_eq_true hbound
        rw [VideoConfig.getMemory, if_neg (by simp; omega)] at hget
        cases hget
      · cases hnh
    · exact ⟨h.bufDone _, adds_bufDone s hlt⟩
  · rename_i hbatch
    rw [if_neg hbatch] at hdeliver
    have hplane : c.batchMode = false := by simpa using hbatch
    split at hstep
    · rename_i hzero
      rw [if_pos hzero] at hdeliver
      have hc : ¬ c.Collects := fun hc => hc.2 hzero
      obtain ⟨hinfo, hget⟩ := hmem hplane hzero
      cases hstep
      rw [direct, if_pos hinfo]
      split
      · rename_i mem hsome
        exact h.notify hc (hdeliver trivial).1 hlt (getMemory_index hsome)
      · rename_i hnone
        exact absurd hnone hget
    · rename_i hzero
      rw [if_neg hzero] at hdeliver
      have hc : c.Collects := ⟨hplane, hzero⟩
      refine h.collect hc hlt (fun hf => ?_) hstep
      obtain ⟨hheard, hok⟩ := hdeliver hf
      exact ⟨hheard, hok.imp id fun hor => hor.resolve_left fun hn => hn hc⟩

/-! ### The encoder returns a memory -/

theorem foldl_bufDone {l : List ℕ} (s : VideoCbStream) (h : ∀ b ∈ l, b < c.numBufs) :
    l.foldl (fun s b => s.bufDone c b) s = { s with returned := s.returned ++ l } := by
  induction l generalizing s with
  | nil => rw [foldl_nil, append_nil]
  | cons b l ih =>
    rw [foldl_cons, ih _ fun a ha => h a (mem_cons_of_mem b ha), bufDone, if_pos (h b mem_cons_self)]
    simp only [append_assoc, singleton_append]

theorem count_delivered_erase (hmem : mem ∈ s.encoder) (b : ℕ) : (s.delivered c).count b =
      (s.covers c mem).count b + ((s.encoder.erase mem).flatMap (s.covers c)).count b := by
  have hperm := (perm_cons_erase hmem).flatMap_right (s.covers c)
  rw [delivered, hperm.count_eq b, flatMap_cons, count_append]

/-- The slot that is open or the memories that stay with the encoder are not the slot that returns. -/
theorem Shape.releaseSlot (h : s.Shape c) (hc : c.Collects) (hmem : mem ∈ s.encoder)
    (hret : t.returned = s.returned ++ (s.streamMetaMemory mem.index).listed)
    (hrec : t.received = s.received)
    (hslots : ∀ j, j ≠ mem.index → t.streamMetaMemory j = s.streamMetaMemory j)
    (hcur : t.curMetaMemory = s.curMetaMemory ∧ t.curBufIndex = s.curBufIndex ∧
      t.curMetaIndex = s.curMetaIndex) (henc : t.encoder = s.encoder.erase mem) :
    t.Shape c ∧ Adds c s t [] := by
  have hother : ∀ m ∈ s.encoder.erase mem, m.index ≠ mem.index := by
    intro m hm heq
    have hne := ((h.nodup hc).mem_erase_iff.mp hm).1
    have hboth : m.metadata = mem.metadata := by
      rw [(h.held hc m (mem_of_mem_erase hm)).1.1, (h.held hc mem hmem).1.1]
    cases m
    cases mem
    cases heq
    cases hboth
    exact hne rfl
  have hslot : s.curMetaMemory = none ∨ ∃ i, s.Open c i ∧ t.Open c i ∧ t.streamMetaMemory i = s.streamMetaMemory i := by
    refine (h.slot hc).imp id ?_
    rintro ⟨i, hi⟩
    have hne : i ≠ mem.index := fun heq => h.index_ne hc hmem hi.free heq.symm
    refine ⟨i, hi, ⟨hcur.1.trans hi.memory, hcur.2.2.trans hi.place, ?_, ?_, hi.handle, hi.bound, ?_⟩, hslots i hne⟩
    · rw [hcur.2.1, hslots i hne, hi.filled]
    · rw [hslots i hne]
      exact hi.room
    · rw [henc]
      exact fun hm => hi.free (mem_of_mem_erase hm)
  have hcollected : t.collected = s.collected := by
    rcases hslot with hnone | ⟨i, hi, hi', heq⟩
    · rw [collected_none hnone, collected_none (hcur.1.trans hnone)]
    · rw [hi.collected_eq, hi'.collected_eq, heq]
  have hdelivered : t.delivered c = (s.encoder.erase mem).flatMap (s.covers c) := by
    rw [delivered, henc]
    refine flatMap_congr fun m hm => ?_
    rw [covers, covers, hslots m.index (hother m hm)]
  refine ⟨⟨fun hn => absurd hc hn, fun _ => ?_, fun _ m hm => ?_, fun _ => ?_⟩, hrec, fun b => ?_, fun b => ?_⟩
  · exact hslot.imp hcur.1.trans fun ⟨i, _, hi', _⟩ => ⟨i, hi'⟩
  · rw [henc] at hm
    rw [hslots m.index (hother m hm)]
    exact h.held hc m (mem_of_mem_erase hm)
  · rw [henc]
    exact (h.nodup hc).erase mem
  · rw [hret, count_append]
    omega
  · rw [total, total, hret, hcollected, hdelivered, count_delivered_erase hmem, covers, if_pos hc,
      count_append, count_nil]
    omega

/-- **A memory comes back** from the encoder: its frames go to the driver, or `BAD_INDEX` is answered. -/
theorem Shape.release (h : s.Shape c) (hmem : mem ∈ s.encoder) {isMetaData : Bool}
    (hlt : ∀ b ∈ s.delivered c, b < c.numBufs)
    (ht : t = { (s.bufDoneOpaque c mem isMetaData).2 with
      encoder := if (s.bufDoneOpaque c mem isMetaData).1 then
        (s.bufDoneOpaque c mem isMetaData).2.encoder.erase mem
        else (s.bufDoneOpaque c mem isMetaData).2.encoder }) :
    t.Shape c ∧ Adds c s t [] := by
  rw [bufDoneOpaque] at ht
  split at ht
  · rw [ht]
    exact ⟨h, Adds.refl c s⟩
  · rename_i index hindex
    have heq : mem.index = index := by
      rw [VideoConfig.getMatchBufIndex] at hindex
      exact some_inj.mp (ite_none_right_eq_some.mp hindex).2
    split at ht
    · rw [ht]
      exact ⟨h, Adds.refl c s⟩
    · rename_i hnum
      rw [← heq] at ht hnum
      by_cases hc : c.Collects
      · obtain ⟨⟨-, hbound⟩, -, hfull⟩ := h.held hc mem hmem
        have hpos : 0 < (s.streamMetaMemory mem.index).numBuffers := by
          rw [hfull]
          exact Nat.pos_of_ne_zero hc.2
        have hlisted : ∀ b ∈ (s.streamMetaMemory mem.index).listed, b < c.numBufs := by
          intro b hb
          refine hlt b (mem_flatMap.mpr ⟨mem, hmem, ?_⟩)
          rwa [covers, if_pos hc]
        rw [if_pos ⟨hbound, hpos⟩, foldl_bufDone s hlisted] at ht
        refine h.releaseSlot hc hmem ?_ ?_ ?_ ?_ ?_
        · rw [ht]
          rfl
        · rw [ht]
          rfl
        · intro j hj
          rw [ht]
          exact if_neg hj
        · rw [ht]
          exact ⟨rfl, rfl, rfl⟩
        · rw [ht]
          rfl
      · obtain ⟨hnone, hzero⟩ := h.idle hc
        rw [if_neg (by rw [hzero]; omega), VideoCbStream.bufDone, if_pos (by omega)] at ht
        rw [ht]
        refine ⟨⟨fun _ => h.idle hc, fun h => absurd h hc, fun h => absurd h hc,
          fun h => absurd h hc⟩, rfl, fun b => ?_, fun b => ?_⟩
        · simp only [count_append]
          omega
        · have hcovers : s.covers c mem = [mem.index] := by rw [covers, if_neg hc]
          have hsplit := count_delivered_erase (c := c) hmem b
          rw [hcovers] at hsplit
          have hcollected : collected { s with
              returned := s.returned ++ [mem.index], encoder := s.encoder.erase mem } =
              s.collected := rfl
          have hdelivered : delivered { s with
              returned := s.returned ++ [mem.index], encoder := s.encoder.erase mem } c =
              (s.encoder.erase mem).flatMap (s.covers c) := rfl
          simp only [if_true]
          rw [total, total, hcollected, hdelivered, hsplit, count_append, count_nil]
          omega

/-! ### Runs -/

/-- **The invariant of the stream**: the frames that were received are placed, each in one place. -/
structure Inv (c : VideoConfig) (s : VideoCbStream) : Prop where
  shape : s.Shape c
  placed : ∀ b, s.received.count b = s.total c b
  once : ∀ b, s.collected.count b + (s.delivered c).count b ≤ 1
  known : ∀ b ∈ s.received, b < c.numBufs

theorem Inv.delivered_lt (h : s.Inv c) (hb : b ∈ s.delivered c) : b < c.numBufs := by
  refine h.known b (count_pos_iff.mp ?_)
  have hpos := count_pos_iff.mpr hb
  rw [h.placed, total]
  omega

theorem Inv.adds {l : List ℕ} (h : s.Inv c) (hshape : t.Shape c)
    (hadds : Adds c { s with received := s.received ++ l } t l)
    (hnew : ∀ b, s.received.count b + l.count b ≤ s.returned.count b + 1)
    (hknown : ∀ b ∈ l, b < c.numBufs) : t.Inv c := by
  have hplaced : ∀ b, t.received.count b = t.total c b := by
    intro b
    have htotal : total c { s with received := s.received ++ l } b = s.total c b := rfl
    rw [hadds.total, hadds.received, htotal, count_append, h.placed]
  refine ⟨hshape, hplaced, fun b => ?_, fun b hb => ?_⟩
  · have hall := hplaced b
    have hgrow := hadds.returned b
    have hone := hnew b
    rw [hadds.received, count_append, total] at hall
    simp only at hgrow
    omega
  · rw [hadds.received] at hb
    rcases mem_append.mp hb with hb | hb
    · exact h.known b hb
    · exact hknown b hb

theorem openMeta_received (s : VideoCbStream) (c : VideoConfig) (l : List ℕ) :
    ({ s with received := l } : VideoCbStream).openMeta c = { s.openMeta c with received := l } := by
  rw [openMeta, openMeta]
  split
  · cases hfind : (range cameraMinVideoBatchBuffers).find? fun i =>
        (s.streamMetaMemory i).consumerOwned = false with
    | none => simp only
    | some i =>
      simp only
      rfl
  · rfl

theorem Kept.received {l : List ℕ} (h : Kept c s (.frame frame ok)) :
    Kept c { s with received := l } (.frame frame ok) := by
  refine ⟨h.1, h.2.1, fun hdeliver => h.2.2 ?_⟩
  rw [Delivers, Fills, openMeta_received] at hdeliver
  exact hdeliver

theorem Inv.next {input : Input} (h : s.Inv c) (hkept : Kept c s input)
    (hstep : VideoCbStream.next c s input = some t) : t.Inv c := by
  cases input with
  | frame frame ok =>
    rw [VideoCbStream.next] at hstep
    split at hstep
    · rename_i hdriver
      have hshape : Shape c { s with received := s.received ++ [frame.bufIdx] } :=
        ⟨h.shape.idle, fun hc => (h.shape.slot hc).imp id fun ⟨i, hi⟩ =>
          ⟨i, hi.memory, hi.place, hi.filled, hi.room, hi.handle, hi.bound, hi.free⟩,
          h.shape.held, h.shape.nodup⟩
      obtain ⟨hshape', hadds⟩ := hshape.routine hdriver.1 hkept.received hstep
      refine h.adds hshape' hadds (fun b => ?_) fun b hb => ?_
      · rw [count_singleton]
        split
        · rename_i heq
          have hsame := hdriver.2
          rw [beq_iff_eq.mp heq] at hsame
          omega
        · have hall := h.placed b
          have hone := h.once b
          rw [total] at hall
          omega
      · rw [mem_singleton.mp hb]
        exact hdriver.1
    · cases hstep
  | messages dataCbTimestamp msgEnabled =>
    cases hstep
    exact ⟨⟨h.shape.idle, fun hc => (h.shape.slot hc).imp id fun ⟨i, hi⟩ =>
      ⟨i, hi.memory, hi.place, hi.filled, hi.room, hi.handle, hi.bound, hi.free⟩,
      h.shape.held, h.shape.nodup⟩, h.placed, h.once, h.known⟩
  | release opq isMetaData =>
    rw [VideoCbStream.next] at hstep
    split at hstep
    · rename_i hmem
      obtain ⟨hshape, hadds⟩ := h.shape.release hmem (fun b hb => h.delivered_lt hb) (some_inj.mp hstep).symm
      refine h.adds hshape (l := []) ⟨?_, hadds.returned, hadds.total⟩ (fun b => ?_) nofun
      · rw [hadds.received, append_nil]
      · have hall := h.placed b
        have hone := h.once b
        rw [total] at hall
        rw [count_nil]
        omega
    · cases hstep

/-- The invariant says that the frames are conserved. -/
theorem Inv.conserved (h : s.Inv c) : s.Conserved c where
  placed := h.placed
  once := h.once
  full hc mem hmem := by
    rw [covers, if_pos hc, MetaMemory.listed, length_map, length_range]
    exact (h.shape.held hc mem hmem).2.2
  nodup := h.shape.nodup
  closed hc mem hmem hopen := by
    rcases h.shape.slot hc with hnone | ⟨i, hi⟩
    · rw [openSlot_none hnone] at hopen
      cases hopen
    · rw [hi.openSlot_eq] at hopen
      exact h.shape.index_ne hc hmem hi.free (some_inj.mp hopen).symm

/-- No frame has come, and the encoder has nothing. -/
structure Fresh (s : VideoCbStream) : Prop where
  received : s.received = []
  returned : s.returned = []
  encoder : s.encoder = []

/-- The stream is started. -/
theorem Fresh.inv (h : s.Fresh) (c : VideoConfig) : s.start.Inv c := by
  have hcollected : s.start.collected = [] := rfl
  have hdelivered : s.start.delivered c = [] := by
    have henc : s.start.encoder = [] := h.encoder
    rw [delivered, henc, flatMap_nil]
  refine ⟨⟨fun _ => ⟨rfl, fun _ => rfl⟩, fun _ => .inl rfl, fun _ m hm => ?_, fun _ => ?_⟩,
    fun b => ?_, fun b => ?_, fun b hb => ?_⟩
  · rw [start, h.encoder] at hm
    cases hm
  · rw [start, h.encoder]
    exact nodup_nil
  · rw [total, hcollected, hdelivered, start, h.received, h.returned]
    rfl
  · rw [hcollected, hdelivered]
    exact Nat.zero_le 1
  · rw [start, h.received] at hb
    cases hb

/-- **In every run that meets the condition** the frames are conserved. -/
theorem conserved_run {c : VideoConfig} {s t : VideoCbStream} {inputs : List Input} (h₀ : s.Fresh)
    (hrun : Run (guarded (Kept c) (fires (next c))) s.start inputs t) : t.Conserved c := by
  have hinv : t.Inv c := hrun.invariant (I := Inv c) (fun s input t hs hstep => hs.next hstep.1 hstep.2) (h₀.inv c)
  exact hinv.conserved

instance (c : VideoConfig) (s : VideoCbStream) : DecidablePred (Kept c s) := fun e => by
  delta Kept
  cases e <;> infer_instance

/-- Batches of three frames, in nine buffers. -/
def batchesOfThree : VideoConfig where
  videoBatchSize := 3
  batchMode := false
  storeMetaDataInFrame := true
  numBufs := 9
  bufferCount := 9
  metaBufCount := 3
  batch_le := by decide
  numBufs_lt := by decide

/-- The callbacks are set, and three frames arrive. -/
def firstBatch (notifyOk : Bool) : List Input :=
  [.messages true true, .frame ⟨true, 0, true⟩ true, .frame ⟨true, 1, true⟩ true, .frame ⟨true, 2, true⟩ notifyOk]

/-- A batch goes to the encoder and comes back; another one is begun. -/
theorem conserved_session : ∃ t, Run (guarded (Kept batchesOfThree) (fires (next batchesOfThree))) (start {})
      (firstBatch true ++ [.frame ⟨true, 3, true⟩ true, .release ⟨true, 0⟩ true]) t ∧
      (t.returned = [0, 1, 2] ∧ t.collected = [3]) ∧ t.Conserved batchesOfThree :=
  (exists_run (by decide +kernel)).imp fun _ h => ⟨h.1, h.2, conserved_run ⟨rfl, rfl, rfl⟩ h.1⟩

/-- The delivery of a batch fails: only its last frame goes back to the driver, and no one has the
others. -/
theorem batch_lost : ∃ t, Run (fires (next batchesOfThree)) (start {}) (firstBatch false) t ∧
      (t.received = [0, 1, 2] ∧ t.returned = [2] ∧ t.collected = [] ∧
        t.delivered batchesOfThree = []) ∧ ¬ t.Conserved batchesOfThree := by
  refine (exists_run_fires (by decide +kernel)).imp fun t h => ⟨h.1, h.2, fun hconserved => ?_⟩
  obtain ⟨hreceived, hreturned, hcollected, hdelivered⟩ := h.2
  have hplaced := hconserved.placed 0
  rw [hreceived, hreturned, hcollected, hdelivered] at hplaced
  exact absurd hplaced (by decide)

end VideoCbStream

end Marlin
