import Mathlib.Data.List.Count
import Marlin.ProcessingChannel
import Marlin.Transition

/-!
# The Bypass of a YUV Channel

A `QCamera3YUVChannel` whose stream does no post-processing sends the frames that need some to its
post-processor, each in a buffer of the heap, and lets the others bypass it. `mOfflinePpInfoList` has a node
for each live request, and a frame is returned when its node is the head: a frame that bypasses and comes
earlier is kept in its node, a frame that was processed and comes earlier is dropped.

The callbacks of the stream and those of the post-processor come in two threads. Each takes frames from the
list under `mOfflinePpLock` and returns them after it. `Delivery` is what one of them still has to return.

## Conventions

* A super buffer has one buffer, whose index is one that the stream has. `mBypass` is set.
* The post-processor gives back the frames in the order in which it got them, into their output buffers.
* What the callbacks report besides a buffer is left out: errors of buffers, and the end of offline jobs.
* A configuration for the post-processor and the dumps are left out.

## Main results

* `Ordered`, `Marked`, `HeapMarks`, `Located`: what the events keep, each about a part of the channel, with a
  lemma for each thing that happens to the part.
-/

open List Option Transition

namespace Marlin

namespace YuvBypass

/-- `cam_edge_mode_t`. -/
inductive EdgeMode
  | off
  | fast
  | highQuality
  | zeroShutterLag
  deriving DecidableEq

/-- `cam_noise_reduction_mode_t`. -/
inductive NoiseReductionMode
  | off
  | fast
  | highQuality
  | minimal
  | zeroShutterLag
  deriving DecidableEq

/-- The metadata of a request that `needsFramePostprocessing` reads. -/
structure FrameSettings where
  edgeMode : Option EdgeMode := none
  noiseRedMode : Option NoiseReductionMode := none
  cropRegion : Option (ℤ × ℤ) := none
  deriving DecidableEq

/-- `PpInfo`. -/
structure PpInfo where
  frameNumber : ℕ
  offlinePpFlag : Bool
  output : ℕ
  callback_buffer : Option SuperBuf := none
  deriving DecidableEq

/-- A frame of the post-processor. -/
structure PpJob where
  frameNumber : ℕ
  output : ℕ
  deriving DecidableEq

/-- The buffer of a frame, as it is requested and returned. -/
structure FrameBuffer where
  buffer : Option ℕ
  frameNumber : ℤ
  deriving DecidableEq

/-- The frame of a node, for the post-processor. -/
def PpInfo.job (e : PpInfo) : PpJob := ⟨e.frameNumber, e.output⟩

/-- The frame of a node, as it is returned. -/
def PpInfo.result (e : PpInfo) : FrameBuffer := ⟨some e.output, e.frameNumber⟩

/-- What a callback still has to do: a processed frame to issue, where `streamCbRoutine` of the base class is,
the frames for it, and whether to look for more then. -/
structure Delivery where
  issue : Option PpJob := none
  current : CallbackPhase := .idle
  pending : List SuperBuf := []
  again : Bool := false
  deriving DecidableEq

/-- The two threads of the callbacks. -/
inductive CallbackThread
  | stream
  | reprocess
  deriving DecidableEq

/-- The calls of a request. -/
structure YuvCalls where
  registers : Bool := true
  starts : Bool := true
  allocates : Bool := true
  bufDone : Bool := true
  deriving DecidableEq

/-- The fields of `QCamera3YUVChannel` for its bypass, what its callbacks have to do, the buffers that the
stream has and the frames that the post-processor has, and the buffers that were requested and returned. -/
structure YuvChannel where
  channel : ProcessingChannel
  width : ℤ
  height : ℤ
  m_bIsActive : Bool := false
  mEdgeMode : EdgeMode := .off
  mNoiseRedMode : NoiseReductionMode := .off
  mCropRegion : ℤ × ℤ := (0, 0)
  mOfflinePpInfoList : List PpInfo := []
  mFreeHeapBufferList : List ℕ := []
  delivery : CallbackThread → Delivery := fun _ => {}
  camera : List ℕ := []
  jobs : List PpJob := []
  requested : List FrameBuffer := []
  returned : List FrameBuffer := []
  last : ℤ := -1

namespace YuvChannel

/-- The memory of the stream. -/
def mMemory (s : YuvChannel) : StreamMem := s.channel.mMemory

/-- The channel with another memory. -/
def setMemory (s : YuvChannel) (m : StreamMem) : YuvChannel :=
  { s with channel := { s.channel with mMemory := m } }

/-- The channel with another delivery of a thread. -/
def setDelivery (s : YuvChannel) (t : CallbackThread) (d : Delivery) : YuvChannel :=
  { s with delivery := Function.update s.delivery t d }

/-! ### Requests -/

/-- `needsFramePostprocessing`. Settings that a request lacks are those of the last one. -/
def needsFramePostprocessing (s : YuvChannel) (settings : FrameSettings) : Bool × YuvChannel :=
  let s := { s with
    mEdgeMode := settings.edgeMode.getD s.mEdgeMode
    mNoiseRedMode := settings.noiseRedMode.getD s.mNoiseRedMode
    mCropRegion := settings.cropRegion.getD s.mCropRegion }
  let ppNeeded :=
    (s.mEdgeMode ≠ .off ∧ s.mEdgeMode ≠ .zeroShutterLag) ∨
    (s.mNoiseRedMode ≠ .zeroShutterLag ∧ s.mNoiseRedMode ≠ .off ∧ s.mNoiseRedMode ≠ .minimal) ∨
    (s.mCropRegion.1 < s.width ∨ s.mCropRegion.2 < s.height)
  (decide ppNeeded, s)

/-- `registerBuffer`. A buffer that is registered is left so. -/
def registerBuffer (s : YuvChannel) (buffer : ℕ) (registers : Bool) : Bool × YuvChannel :=
  match s.mMemory.getMatchBufIndex buffer with
  | some _ => (true, s)
  | none =>
    let r := s.mMemory.registerBuffer buffer
    if registers ∧ r.1 then (true, s.setMemory r.2) else (false, s)

/-- `start`, of a channel that is not active. -/
def start (s : YuvChannel) (starts : Bool) : Bool × YuvChannel :=
  if s.m_bIsActive then (true, s)
  else if starts then (true, { s with m_bIsActive := true }) else (false, s)

/-- The mark and the `bufDone` of a live request. -/
def queueBuffer (s : YuvChannel) (buffer frameNumber : ℕ) (bufDone : Bool) : Bool × YuvChannel :=
  match s.mMemory.getMatchBufIndex buffer with
  | none => (false, s)
  | some index =>
    let r := s.mMemory.markFrameNumber index (OrderState.int32 frameNumber)
    if !r.1 then (false, s)
    else if bufDone then (true, { s.setMemory r.2 with camera := s.camera ++ [index] })
    else (false, s.setMemory (r.2.markFrameNumber index (-1)).2)

/-- `request` of the base class, without an input buffer. A channel that is not active registers the buffer
before its start. -/
def requestBuffer (s : YuvChannel) (buffer frameNumber : ℕ) (calls : YuvCalls) : Bool × YuvChannel :=
  let r := s.registerBuffer buffer calls.registers
  if !r.1 then (false, r.2)
  else
    let r := r.2.start calls.starts
    if !r.1 then (false, r.2) else r.2.queueBuffer buffer frameNumber calls.bufDone

/-- A buffer of the heap: one that is free, or a new one. -/
def takeHeapBuffer (s : YuvChannel) (allocates : Bool) : Option (ℕ × YuvChannel) :=
  match s.mFreeHeapBufferList with
  | bufIdx :: rest => some (bufIdx, { s with mFreeHeapBufferList := rest })
  | [] =>
    if allocates ∧ s.mMemory.heap.length < s.mMemory.mMaxHeapBuffers then
      some (s.mMemory.heap.length, s.setMemory { s.mMemory with heap := s.mMemory.heap ++ [-1] })
    else none

/-- The request of a frame for the post-processor. What `bufDone` answers is not looked at. -/
def requestOfflinePp (s : YuvChannel) (frameNumber : ℕ) (calls : YuvCalls) : Bool × YuvChannel :=
  let r := s.start calls.starts
  if !r.1 then (false, r.2)
  else
    match r.2.takeHeapBuffer calls.allocates with
    | none => (false, r.2)
    | some (bufIdx, s) =>
      let s := s.setMemory (s.mMemory.markFrameNumber bufIdx (OrderState.int32 frameNumber)).2
      (true, if calls.bufDone then { s with camera := s.camera ++ [bufIdx] } else s)

/-- `request`, without an input buffer. Its node is in the list before anything else is tried. -/
def request (s : YuvChannel) (buffer : Option ℕ) (frameNumber : ℕ) (metadata : Option FrameSettings)
    (calls : YuvCalls) : Bool × YuvChannel :=
  match buffer, metadata with
  | some buffer, some settings =>
    let r := s.needsFramePostprocessing settings
    let ppInfo := { frameNumber := frameNumber, offlinePpFlag := r.1, output := buffer }
    let s := { r.2 with mOfflinePpInfoList := r.2.mOfflinePpInfoList ++ [ppInfo] }
    if r.1 then s.requestOfflinePp frameNumber calls else s.requestBuffer buffer frameNumber calls
  | _, _ => (false, s)

/-! ### Callbacks -/

/-- A frame number as a `uint32_t`. -/
def uint32 (frameNumber : ℤ) : ℕ := (frameNumber % 2 ^ 32).toNat

/-- The node of a frame number. -/
def ppInfo (s : YuvChannel) (frameNumber : ℕ) : Option PpInfo :=
  s.mOfflinePpInfoList.find? fun e => e.frameNumber == frameNumber

/-- The head of the list is the node of the frame number. -/
def AtHead (s : YuvChannel) (frameNumber : ℕ) : Prop :=
  s.mOfflinePpInfoList.head?.map PpInfo.frameNumber = some frameNumber
deriving Decidable

/-- A frame is kept in its node. -/
def keep (frameNumber : ℕ) (b : SuperBuf) : List PpInfo → List PpInfo
  | [] => []
  | e :: es =>
    if e.frameNumber = frameNumber then { e with callback_buffer := some b } :: es
    else e :: keep frameNumber b es

/-- `streamCbRoutine` up to that of the base class: `allocated` is the allocation of the frame for the
post-processor. A buffer without a node, or without such a frame, is queued again. -/
def streamCbRoutine (s : YuvChannel) (index : ℕ) (error allocated : Bool) : YuvChannel :=
  let resultFrameNumber := uint32 (s.channel.frameNumber index)
  match s.ppInfo resultFrameNumber with
  | none => s
  | some info =>
    let came := { s with camera := s.camera.erase index }
    if info.offlinePpFlag then
      if allocated then { came with jobs := s.jobs ++ [⟨resultFrameNumber, info.output⟩] } else s
    else if s.AtHead resultFrameNumber then
      setDelivery { came with mOfflinePpInfoList := s.mOfflinePpInfoList.tail } .stream
        { current := .look ⟨index, error⟩, again := true }
    else
      { came with mOfflinePpInfoList := keep resultFrameNumber ⟨index, error⟩ s.mOfflinePpInfoList }

/-- `getNextPendingCbBuffer`: the frame and the rest of the list. -/
def getNextPendingCbBuffer : List PpInfo → Option (SuperBuf × List PpInfo)
  | [] => none
  | e :: es => e.callback_buffer.map fun b => (b, es)

/-- `getNextPendingCbBuffer`, until there is no frame. -/
def takePending : List PpInfo → List SuperBuf × List PpInfo
  | [] => ([], [])
  | e :: es =>
    match e.callback_buffer with
    | none => ([], e :: es)
    | some b => (b :: (takePending es).1, (takePending es).2)

/-- `reprocessCbRoutine`, with `handleOfflinePpCallback`, up to the frames that are returned. -/
def reprocessCbRoutine (s : YuvChannel) (job : PpJob) : YuvChannel :=
  match s.ppInfo job.frameNumber with
  | none => s.setDelivery .reprocess { issue := some job }
  | some info =>
    if ¬ s.AtHead job.frameNumber then s
    else if info.offlinePpFlag then
      match s.mMemory.heap.findIdx? fun n => n == OrderState.int32 job.frameNumber with
      | none => s
      | some bufferIndex =>
        let r := takePending s.mOfflinePpInfoList.tail
        let s := s.setMemory (s.mMemory.markFrameNumber bufferIndex (-1)).2
        setDelivery { s with
          mFreeHeapBufferList := s.mFreeHeapBufferList ++ [bufferIndex]
          mOfflinePpInfoList := r.2 } .reprocess { issue := some job, pending := r.1 }
    else s

/-- A buffer of the framework, and its frame number. -/
def frameBuffer (m : StreamMem) (index : ℕ) : FrameBuffer where
  buffer := (m.gralloc index).map GrallocBuffer.handle
  frameNumber := (m.gralloc index).elim (-1) GrallocBuffer.frameNumber

/-- A turn of `streamCbRoutine` of the base class. What it returns is the buffer of the frame. -/
def look (s : YuvChannel) (b : SuperBuf) : CallbackPhase × YuvChannel :=
  let r := s.channel.lookAtFrame b
  let results := r.2.sent.drop s.channel.sent.length
  (r.1, { s with
    channel := r.2
    returned := s.returned ++
      results.map fun x => ⟨(s.mMemory.gralloc b.bufIdx).map GrallocBuffer.handle, x.frameNumber⟩ })

/-- One turn of a callback. -/
def turn (s : YuvChannel) (t : CallbackThread) : YuvChannel :=
  let d := s.delivery t
  match d.issue with
  | some job =>
    setDelivery { s with returned := s.returned ++ [⟨some job.output, job.frameNumber⟩] } t { d with issue := none }
  | none =>
    match d.current with
    | .look b => (s.look b).2.setDelivery t { d with current := (s.look b).1 }
    | .next =>
      setDelivery { s with channel := s.channel.nextFrame.2 } t { d with current := s.channel.nextFrame.1 }
    | .idle =>
      match d.pending with
      | b :: bs => s.setDelivery t { d with current := .look b, pending := bs }
      | [] =>
        match getNextPendingCbBuffer s.mOfflinePpInfoList with
        | some (b, rest) =>
          setDelivery { s with mOfflinePpInfoList := rest } t { d with current := .look b }
        | none => s.setDelivery t {}

end YuvChannel

/-- Requests, the callbacks, and their turns. -/
inductive YuvEvent
  | request (buffer : Option ℕ) (frameNumber : ℕ) (metadata : Option FrameSettings) (calls : YuvCalls)
  | streamCbRoutine (index : ℕ) (error allocated : Bool)
  | reprocessCbRoutine
  | turn (t : CallbackThread)
  deriving DecidableEq

namespace YuvChannel

/-- The framework has the buffer: it was returned as often as it was requested. -/
def Owned (s : YuvChannel) (buffer : Option ℕ) : Prop :=
  (s.requested.map FrameBuffer.buffer).count buffer = (s.returned.map FrameBuffer.buffer).count buffer
deriving Decidable

/-- A request, with what is noted of it. -/
def requestFrame (s : YuvChannel) (buffer : Option ℕ) (frameNumber : ℕ)
    (metadata : Option FrameSettings) (calls : YuvCalls) : YuvChannel :=
  let r := s.request buffer frameNumber metadata calls
  { r.2 with
    requested := if r.1 then s.requested ++ [⟨buffer, frameNumber⟩] else s.requested
    last := frameNumber }

/-- The events that can happen: requests come with increasing numbers and with buffers of the framework, each
thread runs one callback at a time, and the frames of the post-processor come back in order. -/
def step (s : YuvChannel) : YuvEvent → Option YuvChannel
  | .request buffer frameNumber metadata calls =>
    if s.last < frameNumber ∧ s.Owned buffer then
      some (s.requestFrame buffer frameNumber metadata calls)
    else none
  | .streamCbRoutine index error allocated =>
    if s.delivery .stream = {} ∧ index ∈ s.camera then some (s.streamCbRoutine index error allocated)
    else none
  | .reprocessCbRoutine =>
    match s.jobs with
    | job :: jobs =>
      if s.delivery .reprocess = {} then some (reprocessCbRoutine { s with jobs := jobs } job)
      else none
    | [] => none
  | .turn t => if s.delivery t = {} then none else some (s.turn t)

/-- A channel before its first request. -/
def init (mMaxHeapBuffers : ℕ) (width height : ℤ) : YuvChannel where
  channel := { mMemory := { mMaxHeapBuffers := mMaxHeapBuffers } }
  width := width
  height := height

/-- The condition on a request with a buffer and metadata: what it needs is there, and its calls succeed. -/
def Succeeds (s : YuvChannel) (buffer : ℕ) (settings : FrameSettings) (calls : YuvCalls) : Prop :=
  (s.m_bIsActive = true ∨ calls.starts = true) ∧ calls.bufDone = true ∧
    if (s.needsFramePostprocessing settings).1 = true then
      s.mFreeHeapBufferList ≠ [] ∨ (calls.allocates = true ∧ s.mMemory.heap.length < s.mMemory.mMaxHeapBuffers)
    else
      (s.mMemory.getMatchBufIndex buffer).isSome = true ∨
        (calls.registers = true ∧ (s.mMemory.registerBuffer buffer).1 = true)

instance (s : YuvChannel) (buffer : ℕ) (settings : FrameSettings) (calls : YuvCalls) :
    Decidable (s.Succeeds buffer settings calls) :=
  inferInstanceAs (Decidable (_ ∧ _ ∧ ite _ _ _))

/-- The condition on the events. A request that has a node succeeds, and its number is one of an `int32_t`; a
frame of the post-processor is the head; and a thread takes frames while the other one returns none. -/
def Whole (s : YuvChannel) : YuvEvent → Prop
  | .request buffer frameNumber metadata calls =>
    frameNumber < 2 ^ 31 ∧ ∀ b ∈ buffer, ∀ settings ∈ metadata, s.Succeeds b settings calls
  | .streamCbRoutine index _ _ =>
    ∀ info ∈ s.ppInfo (uint32 (s.channel.frameNumber index)), info.offlinePpFlag = false →
      s.AtHead info.frameNumber → s.delivery .reprocess = {}
  | .reprocessCbRoutine =>
    s.delivery .stream = {} ∧ ∀ job ∈ s.jobs.head?, s.AtHead job.frameNumber
  | .turn _ => True

instance (s : YuvChannel) (e : YuvEvent) : Decidable (s.Whole e) := by
  delta Whole
  cases e <;> infer_instance

/-! ### The order of the frames -/

/-- The frames that were returned and those that are outstanding are the ones requested, in order. -/
structure Ordered (returned outstanding requested : List FrameBuffer) (last : ℤ) : Prop where
  all : returned ++ outstanding = requested
  increasing : (requested.map FrameBuffer.frameNumber).Pairwise (· < ·)
  number : ∀ r ∈ requested, 0 ≤ r.frameNumber ∧ r.frameNumber < 2 ^ 31 ∧ r.frameNumber ≤ last

section

variable {returned outstanding requested : List FrameBuffer} {last : ℤ}

variable {r : FrameBuffer}

/-- A frame is requested. -/
theorem Ordered.request (h : Ordered returned outstanding requested last)
    (hlast : last < r.frameNumber) (hzero : 0 ≤ r.frameNumber) (hbound : r.frameNumber < 2 ^ 31) :
    Ordered returned (outstanding ++ [r]) (requested ++ [r]) r.frameNumber := by
  refine ⟨by rw [← append_assoc, h.all], ?_, fun q hq => ?_⟩
  · rw [map_append, pairwise_append]
    refine ⟨h.increasing, pairwise_singleton _ _, fun n hn k hk => ?_⟩
    obtain ⟨q, hq, rfl⟩ := mem_map.mp hn
    obtain rfl := mem_singleton.mp hk
    exact lt_of_le_of_lt (h.number q hq).2.2 hlast
  · rcases mem_append.mp hq with hq | hq
    · obtain ⟨hq0, hq1, hq2⟩ := h.number q hq
      exact ⟨hq0, hq1, by omega⟩
    · obtain rfl := mem_singleton.mp hq
      exact ⟨hzero, hbound, le_rfl⟩

theorem Ordered.later (h : Ordered returned outstanding requested last) {n : ℤ} (hn : last ≤ n) :
    Ordered returned outstanding requested n :=
  ⟨h.all, h.increasing, fun r hr =>
    ⟨(h.number r hr).1, (h.number r hr).2.1, (h.number r hr).2.2.trans hn⟩⟩

theorem Ordered.deliver (h : Ordered returned (r :: outstanding) requested last) :
    Ordered (returned ++ [r]) outstanding requested last :=
  ⟨(append_assoc ..).trans h.all, h.increasing, h.number⟩

theorem Ordered.mem_requested (h : Ordered returned outstanding requested last)
    (hr : r ∈ outstanding) : r ∈ requested :=
  h.all ▸ mem_append_right _ hr

theorem Ordered.outstanding_lt (h : Ordered returned outstanding requested last) :
    (outstanding.map FrameBuffer.frameNumber).Pairwise (· < ·) := by
  have hall := h.increasing
  rw [← h.all, map_append, pairwise_append] at hall
  exact hall.2.1

theorem Ordered.first_lt {q : FrameBuffer} (h : Ordered returned (r :: outstanding) requested last)
    (hq : q ∈ outstanding) : r.frameNumber < q.frameNumber :=
  rel_of_pairwise_cons h.outstanding_lt (mem_map_of_mem hq)

end

/-! ### The marks of the framework's buffers -/

/-- A buffer with a frame number is that of a frame for which `P` holds, and no other has the number. -/
structure Marked (m : StreamMem) (P : FrameBuffer → Prop) : Prop where
  place : ∀ i g, m.gralloc i = some g → i ∈ m.grallocIndices
  frame : ∀ i g, m.gralloc i = some g → g.frameNumber ≠ -1 → P ⟨some g.handle, g.frameNumber⟩
  unique : ∀ i j g g', m.gralloc i = some g → m.gralloc j = some g' →
    g.frameNumber = g'.frameNumber → g.frameNumber ≠ -1 → i = j

section

variable {m : StreamMem} {P Q : FrameBuffer → Prop}

variable {i : ℕ}

theorem setBuffer_cases {j : ℕ} {b : Option GrallocBuffer} {g : GrallocBuffer}
    (h : (m.setBuffer i b).gralloc j = some g) :
    (j = i ∧ b = some g) ∨ (j ≠ i ∧ m.gralloc j = some g) := by
  by_cases hji : j = i
  · subst hji
    exact .inl ⟨rfl, (StreamMem.setBuffer_self j b).symm.trans h⟩
  · exact .inr ⟨hji, (StreamMem.setBuffer_of_ne hji b).symm.trans h⟩

theorem Marked.mono (h : Marked m P) (hPQ : ∀ r, P r → Q r) : Marked m Q :=
  ⟨h.place, fun i g hi hne => hPQ _ (h.frame i g hi hne), h.unique⟩

theorem Marked.register (h : Marked m P) (hi : i ∈ m.grallocIndices) (buffer : ℕ) :
    Marked (m.setBuffer i (some { handle := buffer })) P := by
  refine ⟨fun j g hj => ?_, fun j g hj hne => ?_, fun j k g g' hj hk heq hne => ?_⟩
  · rcases setBuffer_cases hj with ⟨rfl, -⟩ | ⟨-, hj⟩
    · exact hi
    · exact h.place j g hj
  · rcases setBuffer_cases hj with ⟨-, hg⟩ | ⟨-, hj⟩
    · cases hg
      exact absurd rfl hne
    · exact h.frame j g hj hne
  · rcases setBuffer_cases hj with ⟨-, hg⟩ | ⟨-, hj⟩
    · cases hg
      exact absurd rfl hne
    rcases setBuffer_cases hk with ⟨-, hg⟩ | ⟨-, hk⟩
    · cases hg
      exact absurd heq hne
    · exact h.unique j k g g' hj hk heq hne

theorem Marked.mark (h : Marked m P) (hi : i ∈ m.grallocIndices) {buffer : ℕ} {n : ℤ}
    (hnew : ∀ r, P r → r.frameNumber ≠ n) (hold : ∀ r, P r → Q r) (hframe : Q ⟨some buffer, n⟩) :
    Marked (m.setBuffer i (some ⟨buffer, n⟩)) Q := by
  have hother (j : ℕ) (g : GrallocBuffer) (hj : m.gralloc j = some g) (hne : g.frameNumber ≠ -1) :
      g.frameNumber ≠ n := hnew _ (h.frame j g hj hne)
  refine ⟨fun j g hj => ?_, fun j g hj hne => ?_, fun j k g g' hj hk heq hne => ?_⟩
  · rcases setBuffer_cases hj with ⟨rfl, -⟩ | ⟨-, hj⟩
    · exact hi
    · exact h.place j g hj
  · rcases setBuffer_cases hj with ⟨-, hg⟩ | ⟨-, hj⟩
    · cases hg
      exact hframe
    · exact hold _ (h.frame j g hj hne)
  · rcases setBuffer_cases hj with ⟨hji, hg⟩ | ⟨-, hj⟩
    · cases hg
      rcases setBuffer_cases hk with ⟨hki, -⟩ | ⟨-, hk⟩
      · rw [hji, hki]
      · exact absurd heq.symm (hother k g' hk (heq ▸ hne))
    · rcases setBuffer_cases hk with ⟨-, hg⟩ | ⟨-, hk⟩
      · cases hg
        exact absurd heq (hother j g hj hne)
      · exact h.unique j k g g' hj hk heq hne

theorem Marked.unregister (h : Marked m P) {g : GrallocBuffer} (hi : m.gralloc i = some g)
    (hother : ∀ r, P r → r.frameNumber ≠ g.frameNumber → Q r) : Marked (m.setBuffer i none) Q := by
  have hcases (j : ℕ) (g' : GrallocBuffer) (hj : (m.setBuffer i none).gralloc j = some g') :
      j ≠ i ∧ m.gralloc j = some g' := by
    rcases setBuffer_cases hj with ⟨-, hg⟩ | hj
    · cases hg
    · exact hj
  refine ⟨fun j g' hj => h.place j g' (hcases j g' hj).2, fun j g' hj hne => ?_,
    fun j k g₁ g₂ hj hk => h.unique j k g₁ g₂ (hcases j g₁ hj).2 (hcases k g₂ hk).2⟩
  obtain ⟨hji, hj⟩ := hcases j g' hj
  exact hother _ (h.frame j g' hj hne) fun heq => hji (h.unique j i g' g hj hi heq hne)

/-! ### The marks of the heap -/

/-- The heap buffers with a frame number are those of frames for the post-processor, one each, and the others
are free once. -/
structure HeapMarks (heap : List ℤ) (free : List ℕ) (list : List PpInfo) : Prop where
  listed : ∀ (i : ℕ) (n : ℤ), heap[i]? = some n → n ≠ -1 → ∃ e ∈ list, e.offlinePpFlag = true ∧ (e.frameNumber : ℤ) = n
  unique : ∀ (i j : ℕ) (n : ℤ), n ≠ -1 → heap[i]? = some n → heap[j]? = some n → i = j
  free : ∀ i, free.count i = if heap[i]? = some (-1) then 1 else 0

section

variable {heap : List ℤ} {free : List ℕ} {list list' : List PpInfo}

theorem HeapMarks.mono (h : HeapMarks heap free list)
    (hlist : ∀ e ∈ list, e.offlinePpFlag = true → e ∈ list') : HeapMarks heap free list' := by
  refine ⟨fun i n hi hne => ?_, h.unique, h.free⟩
  obtain ⟨e, he, hflag, hn⟩ := h.listed i n hi hne
  exact ⟨e, hlist e he hflag, hflag, hn⟩

variable {i : ℕ}

theorem getElem?_set_cases {l : List ℤ} {j : ℕ} {a n : ℤ} (h : (l.set i a)[j]? = some n) :
    (j = i ∧ a = n) ∨ (j ≠ i ∧ l[j]? = some n) := by
  by_cases hij : i = j
  · subst hij
    rw [getElem?_set_self'] at h
    obtain ⟨_, -, heq⟩ := map_eq_some_iff.mp h
    exact .inl ⟨rfl, heq⟩
  · rw [getElem?_set_ne hij] at h
    exact .inr ⟨Ne.symm hij, h⟩

theorem HeapMarks.of_free (h : HeapMarks heap free list) (hi : i ∈ free) : heap[i]? = some (-1) := by
  have hone := one_le_count_iff.mpr hi
  rw [h.free i] at hone
  split at hone
  · assumption
  · omega

theorem HeapMarks.allocate (h : HeapMarks heap [] list) : HeapMarks (heap ++ [-1]) [heap.length] list := by
  have hcases (i : ℕ) (n : ℤ) (hi : (heap ++ [-1])[i]? = some n) : heap[i]? = some n ∨ (i = heap.length ∧ n = -1) := by
    rcases Nat.lt_trichotomy i heap.length with hlt | heq | hgt
    · exact .inl ((getElem?_append_left hlt).symm.trans hi)
    · subst heq
      rw [getElem?_concat_length] at hi
      exact .inr ⟨rfl, (some.inj hi).symm⟩
    · rw [getElem?_eq_none (by rw [length_append]; exact hgt)] at hi
      cases hi
  refine ⟨fun i n hi hne => ?_, fun i j n hne hi hj => ?_, fun i => ?_⟩
  · rcases hcases i n hi with hi | ⟨-, hn⟩
    · exact h.listed i n hi hne
    · exact absurd hn hne
  · rcases hcases i n hi with hi | ⟨-, hn⟩
    · rcases hcases j n hj with hj | ⟨-, hn⟩
      · exact h.unique i j n hne hi hj
      · exact absurd hn hne
    · exact absurd hn hne
  · have hold : ¬ heap[i]? = some (-1) := fun hi => by
      have hfree := h.free i
      rw [if_pos hi, count_nil] at hfree
      cases hfree
    by_cases hi : i = heap.length
    · subst hi
      rw [getElem?_concat_length, if_pos rfl, count_singleton_self]
    · rw [count_singleton, if_neg (by simpa using Ne.symm hi), if_neg]
      intro heq
      rcases hcases i (-1) heq with heq | ⟨hlength, -⟩
      · exact hold heq
      · exact hi hlength

/-- A free buffer is taken for a new frame. -/
theorem HeapMarks.take (h : HeapMarks heap (i :: free) list) {e : PpInfo}
    (hflag : e.offlinePpFlag = true) (hnew : ∀ e' ∈ list, e'.frameNumber ≠ e.frameNumber) :
    HeapMarks (heap.set i e.frameNumber) free (list ++ [e]) := by
  have hother (j : ℕ) (n : ℤ) (hj : heap[j]? = some n) (hne : n ≠ -1) : (e.frameNumber : ℤ) ≠ n := by
    obtain ⟨e', he', -, hn⟩ := h.listed j n hj hne
    have hdistinct := hnew e' he'
    omega
  refine ⟨fun j n hj hne => ?_, fun j k n hne hj hk => ?_, fun j => ?_⟩
  · rcases getElem?_set_cases hj with ⟨-, hn⟩ | ⟨-, hj⟩
    · exact ⟨e, mem_append_right _ mem_cons_self, hflag, hn⟩
    · obtain ⟨e', he', hflag', hn⟩ := h.listed j n hj hne
      exact ⟨e', mem_append_left _ he', hflag', hn⟩
  · rcases getElem?_set_cases hj with ⟨hji, hn⟩ | ⟨-, hj⟩
    · rcases getElem?_set_cases hk with ⟨hki, -⟩ | ⟨-, hk⟩
      · rw [hji, hki]
      · exact absurd hn (hother k n hk hne)
    · rcases getElem?_set_cases hk with ⟨-, hn⟩ | ⟨-, hk⟩
      · exact absurd hn (hother j n hj hne)
      · exact h.unique j k n hne hj hk
  · have hfree := h.free j
    by_cases hji : j = i
    · subst hji
      rw [count_cons_self] at hfree
      rw [if_neg fun heq => ?_]
      · split at hfree <;> omega
      · rcases getElem?_set_cases heq with ⟨-, hn⟩ | ⟨hne, -⟩
        · omega
        · exact hne rfl
    · rw [count_cons_of_ne (Ne.symm hji)] at hfree
      rw [getElem?_set_ne (Ne.symm hji)]
      exact hfree

theorem HeapMarks.release {e : PpInfo} (h : HeapMarks heap free (e :: list))
    (hi : heap[i]? = some (e.frameNumber : ℤ)) : HeapMarks (heap.set i (-1)) (free ++ [i]) list := by
  refine ⟨fun j n hj hne => ?_, fun j k n hne hj hk => ?_, fun j => ?_⟩
  · rcases getElem?_set_cases hj with ⟨-, hn⟩ | ⟨hji, hj⟩
    · exact absurd hn.symm hne
    · obtain ⟨e', he', hflag, hn⟩ := h.listed j n hj hne
      rcases mem_cons.mp he' with rfl | he'
      · exact absurd (h.unique j i n hne hj (hn ▸ hi)) hji
      · exact ⟨e', he', hflag, hn⟩
  · rcases getElem?_set_cases hj with ⟨-, hn⟩ | ⟨-, hj⟩
    · exact absurd hn.symm hne
    rcases getElem?_set_cases hk with ⟨-, hn⟩ | ⟨-, hk⟩
    · exact absurd hn.symm hne
    · exact h.unique j k n hne hj hk
  · have hfree := h.free j
    rw [count_append]
    by_cases hji : j = i
    · subst hji
      obtain ⟨hlt, -⟩ := List.getElem?_eq_some_iff.mp hi
      rw [count_singleton_self, getElem?_set_self hlt, if_pos rfl, hfree, hi, if_neg fun heq => ?_]
      have hn := some.inj heq
      omega
    · rw [count_singleton, if_neg (by simpa using Ne.symm hji), Nat.add_zero, getElem?_set_ne (Ne.symm hji)]
      exact hfree

end

/-! ### Where the frames of the list are -/

/-- The buffer at the index is that of the node. -/
def Holds (m : StreamMem) (e : PpInfo) (i : ℕ) : Prop :=
  if e.offlinePpFlag = true then m.heap[i]? = some (e.frameNumber : ℤ)
  else m.gralloc i = some ⟨e.output, e.frameNumber⟩

/-- No buffer is that of two frames, and no frame has two buffers. -/
structure Exact (m : StreamMem) : Prop where
  frame : ∀ e e' i, Holds m e i → Holds m e' i → e.frameNumber = e'.frameNumber
  index : ∀ e i j, Holds m e i → Holds m e j → i = j

theorem exact_of_marks {free : List ℕ} {list : List PpInfo} (hmarked : Marked m P)
    (hheap : HeapMarks m.heap free list) (hcapacity : m.heap.length ≤ m.mMaxHeapBuffers) : Exact m := by
  have hpool (i : ℕ) (n : ℤ) (g : GrallocBuffer) (hi : m.heap[i]? = some n) (hg : m.gralloc i = some g) :
      False := by
    obtain ⟨hlt, -⟩ := List.getElem?_eq_some_iff.mp hi
    have hle := (StreamMem.mem_grallocIndices.mp (hmarked.place i g hg)).1
    omega
  refine ⟨fun e e' i he he' => ?_, fun e i j hi hj => ?_⟩
  · rw [Holds] at he he'
    split at he <;> split at he'
    · exact Int.ofNat.inj (some.inj (he.symm.trans he'))
    · exact (hpool i _ _ he he').elim
    · exact (hpool i _ _ he' he).elim
    · have heq := congrArg GrallocBuffer.frameNumber (some.inj (he.symm.trans he'))
      exact Int.ofNat.inj heq
  · rw [Holds] at hi hj
    split at hi <;> rename_i hflag
    · rw [if_pos hflag] at hj
      exact hheap.unique i j _ (by omega) hi hj
    · rw [if_neg hflag] at hj
      exact hmarked.unique i j _ _ hi hj rfl (by change (e.frameNumber : ℤ) ≠ -1; omega)

/-- Each node of the list is one of four: its frame was kept, its buffer is with the stream, or its frame is
with the post-processor; and each buffer of the stream and each frame of the post-processor has a node. -/
structure Located (m : StreamMem) (list : List PpInfo) (camera : List ℕ) (jobs : List PpJob) : Prop where
  distinct : (list.map PpInfo.frameNumber).Nodup
  kept : ∀ e ∈ list, ∀ b, e.callback_buffer = some b → e.offlinePpFlag = false ∧ Holds m e b.bufIdx
  away : ∀ e ∈ list, e.callback_buffer = none → ∃ i, Holds m e i ∧
    (i ∈ camera ∨ (e.offlinePpFlag = true ∧ e.job ∈ jobs))
  waiting : ∀ i ∈ camera, ∃ e ∈ list, e.callback_buffer = none ∧ Holds m e i ∧ e.job ∉ jobs
  waitingNodup : camera.Nodup
  processed : ∀ j ∈ jobs, ∃ e ∈ list, e.offlinePpFlag = true ∧ e.job = j
  processedNodup : jobs.Nodup

section

variable {list : List PpInfo} {camera : List ℕ} {jobs : List PpJob} {e e' : PpInfo}

theorem Located.eq_of_number (h : Located m list camera jobs) (he : e ∈ list) (he' : e' ∈ list)
    (heq : e.frameNumber = e'.frameNumber) : e = e' :=
  inj_on_of_nodup_map h.distinct he he' heq

variable {i : ℕ}

theorem Holds.memory {m m' : StreamMem} {e : PpInfo} (h : Holds m e i)
    (hheap : e.offlinePpFlag = true → m.heap[i]? = some (e.frameNumber : ℤ) → m'.heap[i]? = some (e.frameNumber : ℤ))
    (hgralloc : m.gralloc i = some ⟨e.output, e.frameNumber⟩ → m'.gralloc i = some ⟨e.output, e.frameNumber⟩) :
    Holds m' e i := by
  rw [Holds] at h ⊢
  split
  · rename_i hflag
    rw [if_pos hflag] at h
    exact hheap hflag h
  · rename_i hflag
    rw [if_neg hflag] at h
    exact hgralloc h

theorem Located.memory (h : Located m list camera jobs) {m' : StreamMem}
    (hm : ∀ e ∈ list, ∀ i, Holds m e i → Holds m' e i) : Located m' list camera jobs := by
  refine ⟨h.distinct, fun e he b hb => ?_, fun e he hnone => ?_, fun i hi => ?_, h.waitingNodup, h.processed,
    h.processedNodup⟩
  · obtain ⟨hflag, hholds⟩ := h.kept e he b hb
    exact ⟨hflag, hm e he _ hholds⟩
  · obtain ⟨i, hi, hplace⟩ := h.away e he hnone
    exact ⟨i, hm e he i hi, hplace⟩
  · obtain ⟨e, he, hnone, hholds, hjob⟩ := h.waiting i hi
    exact ⟨e, he, hnone, hm e he i hholds, hjob⟩

/-- **A request**: its buffer is with the stream. -/
theorem Located.request (h : Located m list camera jobs) (hcallback : e.callback_buffer = none)
    (hnew : ∀ e' ∈ list, e'.frameNumber ≠ e.frameNumber) (hi : Holds m e i) (hcamera : i ∉ camera) :
    Located m (list ++ [e]) (camera ++ [i]) jobs := by
  have hjob : e.job ∉ jobs := fun hmem => by
    obtain ⟨e', he', -, heq⟩ := h.processed _ hmem
    exact hnew e' he' (congrArg PpJob.frameNumber heq)
  refine ⟨?_, fun e' he' b hb => ?_, fun e' he' hnone => ?_, fun j hj => ?_, ?_, fun j hj => ?_, h.processedNodup⟩
  · rw [map_append, nodup_append]
    refine ⟨h.distinct, nodup_singleton _, fun n hn k hk => ?_⟩
    obtain ⟨e', he', rfl⟩ := mem_map.mp hn
    obtain rfl := mem_singleton.mp hk
    exact hnew e' he'
  · rcases mem_append.mp he' with he' | he'
    · exact h.kept e' he' b hb
    · obtain rfl := mem_singleton.mp he'
      rw [hcallback] at hb
      cases hb
  · rcases mem_append.mp he' with he' | he'
    · obtain ⟨j, hj, hplace⟩ := h.away e' he' hnone
      exact ⟨j, hj, hplace.imp_left (mem_append_left _)⟩
    · obtain rfl := mem_singleton.mp he'
      exact ⟨i, hi, .inl (mem_append_right _ mem_cons_self)⟩
  · rcases mem_append.mp hj with hj | hj
    · obtain ⟨e', he', hplace⟩ := h.waiting j hj
      exact ⟨e', mem_append_left _ he', hplace⟩
    · obtain rfl := mem_singleton.mp hj
      exact ⟨e, mem_append_right _ mem_cons_self, hcallback, hi, hjob⟩
  · refine nodup_append.mpr ⟨h.waitingNodup, nodup_singleton _, fun j hj k hk => ?_⟩
    obtain rfl := mem_singleton.mp hk
    exact fun heq => hcamera (heq ▸ hj)
  · obtain ⟨e', he', hplace⟩ := h.processed j hj
    exact ⟨e', mem_append_left _ he', hplace⟩

theorem Located.submit (h : Located m list camera jobs) (hexact : Exact m) (hi : i ∈ camera)
    (he : e ∈ list) (hholds : Holds m e i) (hflag : e.offlinePpFlag = true) :
    Located m list (camera.erase i) (jobs ++ [e.job]) := by
  obtain ⟨e₀, he₀, hnone₀, hholds₀, hjob₀⟩ := h.waiting i hi
  obtain rfl := h.eq_of_number he he₀ (hexact.frame e e₀ i hholds hholds₀)
  refine ⟨h.distinct, h.kept, fun e' he' hnone => ?_, fun j hj => ?_, h.waitingNodup.erase _, fun j hj => ?_, ?_⟩
  · obtain ⟨j, hj, hplace⟩ := h.away e' he' hnone
    by_cases hji : j = i
    · subst hji
      obtain rfl := h.eq_of_number he he' (hexact.frame e e' j hholds hj)
      exact ⟨j, hj, .inr ⟨hflag, mem_append_right _ mem_cons_self⟩⟩
    · exact ⟨j, hj, hplace.imp (mem_erase_of_ne hji).mpr fun hjob => ⟨hjob.1, mem_append_left _ hjob.2⟩⟩
  · have hne : j ≠ i := fun heq => h.waitingNodup.not_mem_erase (heq ▸ hj)
    obtain ⟨e', he', hnone, hholds', hjob⟩ := h.waiting j (mem_of_mem_erase hj)
    refine ⟨e', he', hnone, hholds', fun hmem => ?_⟩
    rcases mem_append.mp hmem with hmem | hmem
    · exact hjob hmem
    · have heq := congrArg PpJob.frameNumber (mem_singleton.mp hmem)
      obtain rfl := h.eq_of_number he' he heq
      exact hne (hexact.index e' j i hholds' hholds)
  · rcases mem_append.mp hj with hj | hj
    · exact h.processed j hj
    · obtain rfl := mem_singleton.mp hj
      exact ⟨e, he, hflag, rfl⟩
  · refine nodup_append.mpr ⟨h.processedNodup, nodup_singleton _, fun j hj k hk => ?_⟩
    obtain rfl := mem_singleton.mp hk
    exact fun heq => hjob₀ (heq ▸ hj)

theorem Located.drop (h : Located m (e :: list) camera jobs) (hexact : Exact m) {camera' : List ℕ}
    {jobs' : List PpJob} (hcamera' : camera'.Sublist camera) (hjobs' : jobs'.Sublist jobs)
    (hcamera : ∀ i ∈ camera, i ∈ camera' ∨ Holds m e i) (hgone : ∀ i ∈ camera', ¬ Holds m e i)
    (hjobs : ∀ j ∈ jobs, j ∈ jobs' ∨ j = e.job) (hdone : e.offlinePpFlag = true → e.job ∉ jobs') :
    Located m list camera' jobs' := by
  have hdistinct := h.distinct
  rw [map_cons, nodup_cons] at hdistinct
  have hother : ∀ e' ∈ list, e.frameNumber ≠ e'.frameNumber := fun e' he' heq =>
    hdistinct.1 (heq ▸ mem_map_of_mem he')
  refine ⟨hdistinct.2, fun e' he' => h.kept e' (mem_cons_of_mem _ he'), fun e' he' hnone => ?_,
    fun i hi => ?_, h.waitingNodup.sublist hcamera', fun j hj => ?_, h.processedNodup.sublist hjobs'⟩
  · obtain ⟨i, hi, hplace⟩ := h.away e' (mem_cons_of_mem _ he') hnone
    refine ⟨i, hi, hplace.imp (fun hmem => ?_) fun hjob => ⟨hjob.1, ?_⟩⟩
    · exact (hcamera i hmem).resolve_right fun hhead => hother e' he' (hexact.frame e e' i hhead hi)
    · exact (hjobs _ hjob.2).resolve_right fun heq =>
        hother e' he' (congrArg PpJob.frameNumber heq).symm
  · obtain ⟨e', he', hnone, hholds, hjob⟩ := h.waiting i (hcamera'.subset hi)
    rcases mem_cons.mp he' with rfl | he'
    · exact absurd hholds (hgone i hi)
    · exact ⟨e', he', hnone, hholds, fun hmem => hjob (hjobs'.subset hmem)⟩
  · obtain ⟨e', he', hflag, hjob⟩ := h.processed j (hjobs'.subset hj)
    rcases mem_cons.mp he' with rfl | he'
    · exact absurd (hjob ▸ hj) (hdone hflag)
    · exact ⟨e', he', hflag, hjob⟩

variable {b : SuperBuf}

theorem Located.takeKept (h : Located m (e :: list) camera jobs) (hexact : Exact m)
    (hb : e.callback_buffer = some b) : Located m list camera jobs := by
  obtain ⟨hflag, -⟩ := h.kept e mem_cons_self b hb
  refine h.drop hexact (List.Sublist.refl _) (List.Sublist.refl _) (fun i hi => .inl hi) (fun i hi hholds => ?_)
    (fun j hj => .inl hj) fun htrue => absurd (hflag.symm.trans htrue) (by decide)
  obtain ⟨e', he', hnone, hholds', -⟩ := h.waiting i hi
  obtain rfl := h.eq_of_number mem_cons_self he' (hexact.frame e e' i hholds hholds')
  rw [hb] at hnone
  cases hnone

theorem Located.takeHead (h : Located m (e :: list) camera jobs) (hexact : Exact m)
    (hflag : e.offlinePpFlag = false) (hholds : Holds m e i) :
    Located m list (camera.erase i) jobs := by
  refine h.drop hexact erase_sublist (List.Sublist.refl _) (fun j hj => ?_) (fun j hj hj' => ?_)
    (fun j hj => .inl hj) fun htrue => absurd (hflag.symm.trans htrue) (by decide)
  · by_cases hji : j = i
    · exact .inr (hji ▸ hholds)
    · exact .inl ((mem_erase_of_ne hji).mpr hj)
  · obtain rfl := hexact.index e j i hj' hholds
    exact h.waitingNodup.not_mem_erase hj

theorem Located.finish (h : Located m (e :: list) camera (e.job :: jobs)) (hexact : Exact m) :
    Located m list camera jobs := by
  have hnodup := nodup_cons.mp h.processedNodup
  refine h.drop hexact (List.Sublist.refl _) (sublist_cons_self _ _) (fun i hi => .inl hi)
    (fun i hi hholds => ?_) (fun j hj => (mem_cons.mp hj).symm) fun _ => hnodup.1
  obtain ⟨e', he', -, hholds', hjob⟩ := h.waiting i hi
  obtain rfl := h.eq_of_number mem_cons_self he' (hexact.frame e e' i hholds hholds')
  exact hjob mem_cons_self

theorem mem_keep {n : ℕ} (hnodup : (list.map PpInfo.frameNumber).Nodup) (he : e ∈ list)
    (hn : e.frameNumber = n) : e' ∈ keep n b list ↔
      e' = { e with callback_buffer := some b } ∨ (e' ∈ list ∧ e'.frameNumber ≠ n) := by
  induction list with
  | nil => cases he
  | cons head tail ih =>
    rw [map_cons, nodup_cons] at hnodup
    rw [keep]
    rcases mem_cons.mp he with rfl | he
    · have hother : ∀ e' ∈ tail, e'.frameNumber ≠ n := fun e' he' heq =>
        hnodup.1 (hn.trans heq.symm ▸ mem_map_of_mem he')
      rw [if_pos hn, mem_cons, mem_cons]
      refine or_congr_right ⟨fun he' => ⟨.inr he', hother e' he'⟩, fun h => h.1.resolve_left fun heq => ?_⟩
      exact h.2 (heq ▸ hn)
    · have hne : head.frameNumber ≠ n := fun heq =>
        hnodup.1 (heq.trans hn.symm ▸ mem_map_of_mem he)
      rw [if_neg hne, mem_cons, mem_cons, ih hnodup.2 he]
      constructor
      · rintro (rfl | heq | ⟨hmem, hn'⟩)
        · exact .inr ⟨.inl rfl, hne⟩
        · exact .inl heq
        · exact .inr ⟨.inr hmem, hn'⟩
      · rintro (heq | ⟨rfl | hmem, hn'⟩)
        · exact .inr (.inl heq)
        · exact .inl rfl
        · exact .inr (.inr ⟨hmem, hn'⟩)

theorem map_keep {γ : Type} (f : PpInfo → γ) (hf : ∀ e b, f { e with callback_buffer := b } = f e) (n : ℕ)
    (b : SuperBuf) : (keep n b list).map f = list.map f := by
  induction list with
  | nil => rfl
  | cons head tail ih =>
    rw [keep]
    split
    · rw [map_cons, map_cons, hf]
    · rw [map_cons, map_cons, ih]

/-- **A frame that bypasses is kept.** -/
theorem Located.keep (h : Located m list camera jobs) (hexact : Exact m)
    (he : e ∈ list) (hholds : Holds m e i) (hflag : e.offlinePpFlag = false) (hb : b.bufIdx = i) :
    Located m (YuvChannel.keep e.frameNumber b list) (camera.erase i) jobs := by
  have hmem (e' : PpInfo) : e' ∈ YuvChannel.keep e.frameNumber b list ↔
      e' = { e with callback_buffer := some b } ∨ (e' ∈ list ∧ e'.frameNumber ≠ e.frameNumber) :=
    mem_keep h.distinct he rfl
  refine ⟨?_, fun e' he' b' hb' => ?_, fun e' he' hnone => ?_, fun j hj => ?_, h.waitingNodup.erase _,
    fun j hj => ?_, h.processedNodup⟩
  · rw [map_keep PpInfo.frameNumber fun _ _ => rfl]
    exact h.distinct
  · rcases (hmem e').mp he' with rfl | ⟨he', -⟩
    · cases hb'
      exact ⟨hflag, hb ▸ hholds⟩
    · exact h.kept e' he' b' hb'
  · rcases (hmem e').mp he' with rfl | ⟨he', hne⟩
    · cases hnone
    · obtain ⟨j, hj, hplace⟩ := h.away e' he' hnone
      refine ⟨j, hj, hplace.imp_left (mem_erase_of_ne fun heq => ?_).mpr⟩
      exact hne (hexact.frame e' e i (heq ▸ hj) hholds)
  · have hji : j ≠ i := fun heq => h.waitingNodup.not_mem_erase (heq ▸ hj)
    obtain ⟨e', he', hnone, hholds', hjob⟩ := h.waiting j (mem_of_mem_erase hj)
    refine ⟨e', (hmem e').mpr (.inr ⟨he', fun heq => ?_⟩), hnone, hholds', hjob⟩
    obtain rfl := h.eq_of_number he' he heq
    exact hji (hexact.index e' j i hholds' hholds)
  · obtain ⟨e', he', hflag', hjob⟩ := h.processed j hj
    refine ⟨e', (hmem e').mpr (.inr ⟨he', fun heq => ?_⟩), hflag', hjob⟩
    obtain rfl := h.eq_of_number he' he heq
    exact absurd (hflag.symm.trans hflag') (by decide)

end

end

end YuvChannel

end YuvBypass

end Marlin
