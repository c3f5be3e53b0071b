import Mathlib.Algebra.Group.Int.Defs
import Mathlib.Algebra.GroupWithZero.Nat
import Mathlib.Data.List.Basic

/-!
# The Pending Lists of the HAL

`QCamera3HardwareInterface` keeps what it owes to the framework in lists: the requests, the
buffers with the channels, the reprocess results that wait for older requests, and the frames
that were dropped. This module has their data and the handlers of the callbacks that come from
the channels; `sent` are the calls to the framework in order.

## Conventions

* A stream is named by its number, a buffer by the number of its handle; `streamID` gives the
  id that the backend knows a stream by. `mPendingRequestsList` is searched by frame number.
* Times, fences, settings and the contents of metadata are left out: of a result it is kept
  whether it has metadata.
* The loop of `handleMetadataWithLock` runs over the list as it was when it started. The entry
  that `handlePendingReprocResults` erases has a higher number than the loop goes to.

## Main definitions

* `removeBuf`, `getBufErrStatus`: the map of the pending buffers.
* `handlePendingReprocResults`, `handleMetadataWithLock`, `handleInputBufferWithLock`,
  `handleBuffersDuringFlushLock`, `handleBufferWithLock`: the handlers.
-/

namespace Marlin

/-- `State`. -/
inductive HalState
  | closed | opened | initialized | configured | started | error | deinit
  deriving DecidableEq

/-- `camera3_stream_buffer_t`, with whether its status is an error. -/
structure StreamBuffer where
  stream : ℕ
  buffer : ℕ
  error : Bool := false
  deriving DecidableEq

/-- `RequestedBufferInfo`. -/
structure RequestedBufferInfo where
  stream : ℕ
  buffer : Option StreamBuffer := none
  needMetadata : Bool := false
  deriving DecidableEq

/-- `PendingRequestInfo`. -/
structure PendingRequestInfo where
  frameNumber : ℕ
  buffers : List RequestedBufferInfo
  inputBuffer : Option StreamBuffer := none
  bUrgentReceived : Bool := false
  partialResultCnt : ℕ := 0
  partialResultDropped : Bool := false
  shutterNotified : Bool := false
  pipelineDepth : ℕ := 0
  deriving DecidableEq

/-- `PendingBufferInfo`, with whether its status is an error. -/
structure PendingBufferInfo where
  stream : ℕ
  buffer : ℕ
  bufStatus : Bool := false
  deriving DecidableEq

/-- `PendingBuffersInRequest`. -/
structure PendingBuffersInRequest where
  frameNumber : ℕ
  pendingBufferList : List PendingBufferInfo
  deriving DecidableEq

/-- `PendingReprocessResult`. Its message is the shutter of its frame. -/
structure PendingReprocessResult where
  frameNumber : ℕ
  buffer : StreamBuffer
  deriving DecidableEq

/-- `PendingFrameDropInfo`. -/
structure PendingFrameDropInfo where
  frameNumber : ℕ
  streamID : ℕ
  deriving DecidableEq

/-- `camera3_capture_result_t`. -/
structure CaptureResult where
  frameNumber : ℕ
  outputBuffers : List StreamBuffer := []
  inputBuffer : Option StreamBuffer := none
  partialResult : ℕ := 0
  metadata : Bool := false
  deriving DecidableEq

/-- The calls to the framework: `notify` with its messages, and `process_capture_result`. -/
inductive Callback
  | shutter (frameNumber : ℕ)
  | errorDevice
  | errorRequest (frameNumber : ℕ)
  | errorResult (frameNumber : ℕ)
  | errorBuffer (frameNumber stream : ℕ)
  | result (r : CaptureResult)
  deriving DecidableEq

/-- What a metadata buffer says: whether it has the entries that are read, the normal and the
urgent frame number where they are valid, and the streams that dropped the frame. -/
structure MetadataInfo where
  valid : Bool := true
  frameNumber : Option ℕ := none
  urgentFrameNumber : Option ℕ := none
  frameDrop : List ℕ := []
  deriving DecidableEq

/-- The channels with whether each is active: those for metadata, analysis and support, those
of the streams and the one for raw dumps. `handle` is `mChannelHandle`, with whether the
bundle is started. -/
structure HalChannels where
  metadata : Bool := false
  analysis : Option Bool := none
  support : Option Bool := none
  streams : List Bool := []
  rawDump : Option Bool := none
  handle : Option Bool := none
  deriving DecidableEq

/-- `PARTIAL_RESULT_COUNT`. -/
def partialResultCount : ℕ := 2

/-- The fields of `QCamera3HardwareInterface` that requests and their results work on. -/
structure HardwareInterface where
  mState : HalState := .configured
  mFlush : Bool := false
  mFlushPerf : Bool := false
  mPendingRequestsList : List PendingRequestInfo := []
  mPendingBuffersMap : List PendingBuffersInRequest := []
  numPendingBufsAtFlush : ℕ := 0
  mPendingReprocessResultList : List PendingReprocessResult := []
  mPendingFrameDropList : List PendingFrameDropInfo := []
  mPendingLiveRequest : ℕ := 0
  mCurrentRequestId : ℤ := -1
  mNeedSensorRestart : Bool := false
  mBatchSize : ℕ := 0
  mToBeQueuedVidBufs : ℕ := 0
  mFirstFrameNumberInBatch : ℕ := 0
  mPendingBatchMap : List (ℕ × ℕ) := []
  channels : HalChannels := {}
  streamID : ℕ → ℕ := id
  sent : List Callback := []

/-- The decrement of a `uint32_t`. -/
def decU32 (n : ℕ) : ℕ := if n = 0 then 2 ^ 32 - 1 else n - 1

/-! ### The map of the pending buffers -/

/-- `PendingBuffersMap::removeBuf`. A request without buffers leaves the map. -/
def removeBuf (buffer : ℕ) : List PendingBuffersInRequest → List PendingBuffersInRequest
  | [] => []
  | req :: reqs =>
    if req.pendingBufferList.any (fun k => k.buffer == buffer) then
      let l := req.pendingBufferList.eraseP (fun k => k.buffer == buffer)
      if l = [] then reqs else { req with pendingBufferList := l } :: reqs
    else req :: removeBuf buffer reqs

/-- `PendingBuffersMap::getBufErrStatus`. -/
def getBufErrStatus (map : List PendingBuffersInRequest) (buffer : ℕ) : Bool :=
  ((map.flatMap PendingBuffersInRequest.pendingBufferList).find?
    (fun k => k.buffer == buffer)).elim false PendingBufferInfo.bufStatus

/-- `PendingBuffersMap::get_num_overall_buffers`. -/
def getNumOverallBuffers (map : List PendingBuffersInRequest) : ℕ :=
  (map.map fun req => req.pendingBufferList.length).sum

namespace HardwareInterface

/-! ### The parts of the handlers -/

/-- A call to the framework. -/
def send (s : HardwareInterface) (c : Callback) : HardwareInterface :=
  { s with sent := s.sent ++ [c] }

/-- `erasePendingRequest`. -/
def erasePendingRequest (s : HardwareInterface) (frameNumber : ℕ) : HardwareInterface :=
  { s with mPendingRequestsList :=
      s.mPendingRequestsList.eraseP fun k => k.frameNumber == frameNumber }

/-- A pending request is changed. -/
def modifyRequest (s : HardwareInterface) (frameNumber : ℕ)
    (f : PendingRequestInfo → PendingRequestInfo) : HardwareInterface :=
  { s with mPendingRequestsList :=
      s.mPendingRequestsList.map fun k => if k.frameNumber = frameNumber then f k else k }

/-- Whether the frame is listed as dropped for the stream; if so it leaves the list. -/
def takeFrameDrop (s : HardwareInterface) (stream frameNumber : ℕ) : Bool × HardwareInterface :=
  let here := fun m : PendingFrameDropInfo =>
    m.streamID == s.streamID stream && m.frameNumber == frameNumber
  (s.mPendingFrameDropList.any here, { s with mPendingFrameDropList := s.mPendingFrameDropList.eraseP here })

/-- The status of a buffer before it is returned: it is an error if the channel says so, if
the frame was dropped, or if the map says so. The buffer leaves the map. -/
def takeBuffer (s : HardwareInterface) (frameNumber : ℕ) (b : StreamBuffer) : StreamBuffer × HardwareInterface :=
  let (dropped, s) := s.takeFrameDrop b.stream frameNumber
  let error := b.error || dropped || getBufErrStatus s.mPendingBuffersMap b.buffer
  ({ b with error := error }, { s with mPendingBuffersMap := removeBuf b.buffer s.mPendingBuffersMap })

/-- The cached buffers of a request, one after the other. -/
def takeBuffers (frameNumber : ℕ) : List StreamBuffer → HardwareInterface → List StreamBuffer × HardwareInterface
  | [], s => ([], s)
  | b :: bs, s =>
    let (b, s) := s.takeBuffer frameNumber b
    let (bs, s) := takeBuffers frameNumber bs s
    (b :: bs, s)

/-- A reprocess result is sent with the input buffer of its request, which is erased. -/
def sendReprocResult (s : HardwareInterface) (k : PendingRequestInfo) (b : StreamBuffer) :
    HardwareInterface :=
  (s.send (.result
    { frameNumber := k.frameNumber
      outputBuffers := [b]
      inputBuffer := k.inputBuffer
      partialResult := partialResultCount
      metadata := true })).erasePendingRequest k.frameNumber

/-- `handlePendingReprocResults`. -/
def handlePendingReprocResults (s : HardwareInterface) (frameNumber : ℕ) :
    HardwareInterface :=
  match s.mPendingReprocessResultList.find? (fun j => j.frameNumber == frameNumber) with
  | some j =>
    let s := s.send (.shutter frameNumber)
    let s := match s.mPendingRequestsList.find? (fun k => k.frameNumber == j.frameNumber) with
      | some k => s.sendReprocResult k j.buffer
      | none => s
    { s with mPendingReprocessResultList :=
        s.mPendingReprocessResultList.eraseP fun j => j.frameNumber == frameNumber }
  | none => s

/-! ### Metadata -/

/-- The urgent frame number of a metadata buffer: live requests before it missed theirs, and
the request gets a partial result. -/
def handleUrgent (urgent : ℕ) : List PendingRequestInfo → List PendingRequestInfo × List Callback
  | [] => ([], [])
  | i :: is =>
    let i := if i.inputBuffer = none ∧ i.frameNumber < urgent ∧ i.partialResultCnt = 0 then
      { i with partialResultDropped := true, partialResultCnt := 1 } else i
    if i.frameNumber = urgent ∧ i.bUrgentReceived = false then
      let result : CaptureResult :=
        { frameNumber := urgent, partialResult := i.partialResultCnt + 1, metadata := true }
      ({ i with partialResultCnt := i.partialResultCnt + 1, bUrgentReceived := true } :: is, [.result result])
    else
      let (is, sent) := handleUrgent urgent is
      (i :: is, sent)

/-- The buffers of a request whose streams dropped the frame are reported and noted. -/
def reportFrameDrops (s : HardwareInterface) (frameDrop : List ℕ) (i : PendingRequestInfo) :
    HardwareInterface :=
  let dropped := i.buffers.flatMap fun j =>
    (frameDrop.filter fun k => k == s.streamID j.stream).map fun _ => j.stream
  { s with
    sent := s.sent ++ dropped.map (Callback.errorBuffer i.frameNumber)
    mPendingFrameDropList := s.mPendingFrameDropList ++ dropped.map fun stream => ⟨i.frameNumber, s.streamID stream⟩ }

/-- The buffers that a request has got so far. -/
def cachedBuffers (i : PendingRequestInfo) : List StreamBuffer :=
  i.buffers.filterMap RequestedBufferInfo.buffer

/-- The result of a live request: the one of the frame has metadata, an older one or one
without its urgent metadata is an error. It takes the buffers that were cached; an error
without buffers is not sent. -/
def sendMetadataResult (s : HardwareInterface) (frameNumber : ℕ) (i : PendingRequestInfo) :
    HardwareInterface :=
  let s := { s with mPendingLiveRequest := decU32 s.mPendingLiveRequest }
  let current := i.frameNumber == frameNumber
  let s := if current then s.send (.shutter i.frameNumber) else s
  let errorResult := !current || i.partialResultDropped
  let s := if errorResult then s.send (.errorResult i.frameNumber) else s
  let (bs, s) := takeBuffers frameNumber (cachedBuffers i) s
  let result : CaptureResult :=
    { frameNumber := i.frameNumber
      outputBuffers := bs
      inputBuffer := i.inputBuffer
      partialResult := i.partialResultCnt
      metadata := current }
  if bs ≠ [] ∨ errorResult = false then s.send (.result result) else s

/-- One turn of the loop over the requests up to the frame number. Older reprocess requests
stay. -/
def metadataEntry (s : HardwareInterface) (m : MetadataInfo) (frameNumber : ℕ)
    (i : PendingRequestInfo) : HardwareInterface :=
  let i := { i with partialResultCnt := i.partialResultCnt + 1 }
  let s := s.reportFrameDrops m.frameDrop i
  if i.frameNumber < frameNumber ∧ i.inputBuffer.isSome then
    s.modifyRequest i.frameNumber fun _ => i
  else
    let s := (s.sendMetadataResult frameNumber i).erasePendingRequest i.frameNumber
    if s.mPendingReprocessResultList ≠ [] then s.handlePendingReprocResults (frameNumber + 1)
    else s

/-- The loop over the requests up to the frame number. -/
def metadataLoop (m : MetadataInfo) (frameNumber : ℕ) : List PendingRequestInfo → HardwareInterface → HardwareInterface
  | [], s => s
  | i :: is, s =>
    if frameNumber < i.frameNumber then s
    else metadataLoop m frameNumber is (s.metadataEntry m frameNumber i)

/-- The end of `handleMetadataWithLock`: the requests get deeper into the pipeline. -/
def doneMetadata (s : HardwareInterface) : HardwareInterface :=
  { s with mPendingRequestsList :=
      s.mPendingRequestsList.map fun i => { i with pipelineDepth := (i.pipelineDepth + 1) % 256 } }

/-- The urgent part of `handleMetadataWithLock`. -/
def urgentMetadata (s : HardwareInterface) (urgent : ℕ) : HardwareInterface :=
  let r := handleUrgent urgent s.mPendingRequestsList
  { s with mPendingRequestsList := r.1, sent := s.sent ++ r.2 }

/-- `handleMetadataWithLock`. -/
def handleMetadataWithLock (s : HardwareInterface) (m : MetadataInfo) : HardwareInterface :=
  if s.mFlushPerf ∨ s.mState = .error ∨ s.mState = .deinit then s
  else if m.valid then
    let s := match m.urgentFrameNumber with
      | some urgent => s.urgentMetadata urgent
      | none => s
    let s := match m.frameNumber with
      | some frameNumber => metadataLoop m frameNumber s.mPendingRequestsList s
      | none => s
    s.doneMetadata
  else s.doneMetadata

/-! ### Buffers -/

/-- `handleInputBufferWithLock`. -/
def handleInputBufferWithLock (s : HardwareInterface) (frameNumber : ℕ) : HardwareInterface :=
  match s.mPendingRequestsList.find? (fun i => i.frameNumber == frameNumber) with
  | some i =>
    if i.inputBuffer.isSome then
      let s := if i.shutterNotified then s else s.send (.shutter frameNumber)
      (s.send (.result
        { frameNumber := frameNumber
          inputBuffer := i.inputBuffer
          partialResult := partialResultCount
          metadata := true })).erasePendingRequest frameNumber
    else s
  | none => s

/-- `handleBuffersDuringFlushLock`. The buffer is counted if the map has it. -/
def handleBuffersDuringFlushLock (s : HardwareInterface) (b : StreamBuffer) :
    HardwareInterface :=
  if s.mPendingBuffersMap.any (fun req => req.pendingBufferList.any (·.buffer == b.buffer)) then
    { s with numPendingBufsAtFlush := decU32 s.numPendingBufsAtFlush }
  else s

/-- A buffer whose request is not pending goes to the framework. -/
def sendBuffer (s : HardwareInterface) (b : StreamBuffer) (frameNumber : ℕ) :
    HardwareInterface :=
  let (b, s) := s.takeBuffer frameNumber b
  s.send (.result { frameNumber := frameNumber, outputBuffers := [b] })

/-- A buffer of a reprocess request is the result, which waits while an older request is
pending. -/
def handleReprocBuffer (s : HardwareInterface) (i : PendingRequestInfo) (b : StreamBuffer) :
    HardwareInterface :=
  let b := { b with error := b.error || getBufErrStatus s.mPendingBuffersMap b.buffer }
  let s := { s with mPendingBuffersMap := removeBuf b.buffer s.mPendingBuffersMap }
  if s.mPendingRequestsList.any (fun j => decide (j.frameNumber < i.frameNumber)) then
    { s with mPendingReprocessResultList :=
        s.mPendingReprocessResultList ++ [⟨i.frameNumber, b⟩] }
  else (s.send (.shutter i.frameNumber)).sendReprocResult i b

/-- A buffer of a live request is cached in each entry of its stream that has none. -/
def cacheBuffer (b : StreamBuffer) (j : RequestedBufferInfo) : RequestedBufferInfo :=
  if j.stream = b.stream ∧ j.buffer = none then { j with buffer := some b } else j

/-- `handleBufferWithLock`. -/
def handleBufferWithLock (s : HardwareInterface) (b : StreamBuffer) (frameNumber : ℕ) :
    HardwareInterface :=
  if s.mState = .error ∨ s.mState = .deinit then s
  else if s.mFlushPerf then s.handleBuffersDuringFlushLock b
  else
    match s.mPendingRequestsList.find? (fun i => i.frameNumber == frameNumber) with
    | none => s.sendBuffer b frameNumber
    | some i =>
      if i.inputBuffer.isSome then s.handleReprocBuffer i b
      else s.modifyRequest frameNumber fun i => { i with buffers := i.buffers.map (cacheBuffer b) }

end HardwareInterface

end Marlin
