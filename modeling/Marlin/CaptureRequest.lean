import Marlin.PendingFlush

/-!
# Capture Requests

`processCaptureRequest` of `QCamera3HardwareInterface`, up to the wait at its end, as a chain of
sections. A section goes on to the next one or leaves the function. What the channels, the
fences, the backend and the translation of the settings answer is the argument `RequestCalls`.

`setFrameParameters` may change the size of the batches and ask for a restart of the sensor,
which returns everything that is pending as errors. The callbacks that come while the restart
has the mutex released are not part of the function.

## Main definitions

* `startChannels`: the start of the channels by the first request.
* `parseSettings`: the settings of a live request and the first frame of a batch.
* `insertRequest`: the lists take the request.
* `requestChannels`: the requests to the channels.
* `queueSettings`: the settings go to the backend.
* `processCaptureRequest`: all of it.
-/

namespace Marlin

/-- Why a request is rejected. -/
inductive Rejection
  | deviceError | badState | invalid | dualCam
  | metadataStart | analysisStart | supportStart | streamStart | rawDumpStart | bundleStart
  | noRequestId | fence | frameParameters | frameNumberEntry | restart | inputFence
  | reprocParameters | channelRequest | twoMetadata | streamIdEntry
  deriving DecidableEq

/-- How `processCaptureRequest` leaves: it goes on to its wait, it returns `NO_ERROR` during
one of the two flushes, or it returns an error. -/
inductive RequestExit
  | accepted
  | duringFlushPerf
  | duringFlush
  | rejected (r : Rejection)
  deriving DecidableEq

/-- The kinds of output streams that `processCaptureRequest` tells apart. -/
inductive OutputKind
  | blob | yuv | other
  deriving DecidableEq

/-- An output buffer of a request, with the format of its stream and whether that is a video
stream. -/
structure CaptureOutput where
  stream : ℕ
  buffer : ℕ
  kind : OutputKind := .other
  isVideo : Bool := false
  deriving DecidableEq

/-- `camera3_capture_request_t`, with whether it has settings and the request id in them. -/
structure CaptureRequest where
  frameNumber : ℕ
  outputs : List CaptureOutput
  inputBuffer : Option StreamBuffer := none
  settings : Bool := true
  requestId : Option ℤ := none
  deriving DecidableEq

/-- Whether each channel starts, and `start_channel` of the bundle. -/
structure StartAnswers where
  metadata : Bool := true
  analysis : Bool := true
  support : Bool := true
  stream : ℕ → Bool := fun _ => true
  rawDump : Bool := true
  bundle : Bool := true

/-- The answers to the calls of one `flush`: whether the cameras are unlinked, the bundle is set
anew, and the starts of the channels. -/
structure FlushAnswers where
  unlink : Bool := true
  bundleInfo : Bool := true
  start : StartAnswers := {}

/-- The answers to the calls of one `processCaptureRequest`: whether the buffers are valid,
those to the flush in state `ERROR`, whether the cameras are linked; the starts of the channels by
the first request and by a restart of the sensor; the fences; the size of the batches and
whether the sensor is to be restarted, or that the parameters fail; and for each output whether
its channel takes it, and needs metadata. -/
structure RequestCalls where
  buffersValid : Bool := true
  deviceFlush : FlushAnswers := {}
  dualCam : Bool := true
  start : StartAnswers := {}
  fence : ℕ → Bool := fun _ => true
  frameParameters : Option (ℕ × Bool) := some (0, false)
  frameNumberEntry : Bool := true
  restart : StartAnswers := {}
  inputFence : Bool := true
  reprocParameters : Bool := true
  channelRequest : ℕ → Option Bool := fun _ => some false
  streamIdEntry : Bool := true

/-- A section of `processCaptureRequest`. -/
abbrev Section := Except (RequestExit × HardwareInterface) HardwareInterface

/-- `MAX_NUM_STREAMS`. -/
def maxNumStreams : ℕ := 8

namespace HardwareInterface

/-- The function is left. -/
def leave (s : HardwareInterface) (e : RequestExit) : Section := .error (e, s)

/-! ### The state and the request -/

/-- `stopAllChannels`. -/
def stopAllChannels (c : HalChannels) : HalChannels :=
  { c with
    metadata := false
    analysis := c.analysis.map fun _ => false
    support := c.support.map fun _ => false
    streams := c.streams.map fun _ => false
    rawDump := c.rawDump.map fun _ => false }

/-- The channels are changed. -/
def setChannels (s : HardwareInterface) (c : HalChannels) : HardwareInterface :=
  { s with channels := c }

/-- `start` of the channels of the streams, until one fails: whether none did, and which are
active. -/
def startStreams (streamStart : ℕ → Bool) : ℕ → List Bool → Bool × List Bool
  | _, [] => (true, [])
  | k, c :: cs =>
    if streamStart k then
      let (ok, cs) := startStreams streamStart (k + 1) cs
      (ok, true :: cs)
    else (false, c :: cs)

/-- `startAllChannels`: whether all started, and which are active. The answer of the analysis
channel is not looked at. -/
def startAllChannels (start : StartAnswers) (c : HalChannels) : Bool × HalChannels :=
  if start.metadata = false then (false, c)
  else
    let r := startStreams start.stream 0 c.streams
    let c := { c with metadata := true, streams := r.2 }
    if r.1 = false then (false, c)
    else
      let c := { c with analysis := c.analysis.map fun active => active || start.analysis }
      if c.support.isSome ∧ start.support = false then (false, c)
      else
        let c := { c with support := c.support.map fun _ => true }
        if c.rawDump.isSome ∧ start.rawDump = false then (false, c)
        else (true, { c with rawDump := c.rawDump.map fun _ => true })

/-- `flush(restartChannels)`: whether it gets through. The answer of the bundle is not looked at. -/
def flush (restartChannels : Bool) (answers : FlushAnswers) (s : HardwareInterface) : Bool × HardwareInterface :=
  let s := { s with mFlush := true, channels := stopAllChannels s.channels }
  if answers.unlink = false then (false, s)
  else
    let s := s.setChannels { s.channels with handle := s.channels.handle.map fun _ => false }
    if answers.bundleInfo = false then (false, s)
    else
      let s := { s with mPendingLiveRequest := 0 }
      let s := { s.notifyErrorForPendingRequests with mFlush := false }
      let r := if restartChannels then startAllChannels answers.start s.channels
        else (true, s.channels)
      let s := s.setChannels r.2
      if r.1 = false then (false, s)
      else
        (true, s.setChannels { s.channels with
          handle := s.channels.handle.map fun _ => answers.start.bundle })

/-- `handleCameraDeviceError` in state `ERROR`. -/
def handleCameraDeviceError (s : HardwareInterface) (answers : FlushAnswers) :
    HardwareInterface :=
  ({ (s.flush false answers).2 with mState := .deinit }).send .errorDevice

/-- The test of `mState`. -/
def checkState (calls : RequestCalls) (s : HardwareInterface) : Section :=
  match s.mState with
  | .configured | .started => .ok s
  | .error => (s.handleCameraDeviceError calls.deviceFlush).leave (.rejected .deviceError)
  | _ => s.leave (.rejected .badState)

/-- `validateCaptureRequest`. -/
def validateCaptureRequest (calls : RequestCalls) (req : CaptureRequest) (s : HardwareInterface) : Section :=
  if (req.settings = false ∧ s.mState = .configured) ∨ req.outputs.length < 1 ∨
      maxNumStreams ≤ req.outputs.length ∨ calls.buffersValid = false then
    s.leave (.rejected .invalid)
  else .ok s

/-! ### The start of the channels -/

/-- `start` of the metadata channel. -/
def startMetadata (calls : RequestCalls) (s : HardwareInterface) : Section :=
  if calls.start.metadata then .ok (s.setChannels { s.channels with metadata := true })
  else s.leave (.rejected .metadataStart)

/-- `start` of the analysis channel. Its failure stops the metadata channel. -/
def startAnalysis (calls : RequestCalls) (s : HardwareInterface) : Section :=
  match s.channels.analysis with
  | none => .ok s
  | some _ =>
    if calls.start.analysis then .ok (s.setChannels { s.channels with analysis := some true })
    else (s.setChannels { s.channels with metadata := false }).leave (.rejected .analysisStart)

/-- `start` of the support channel. Its failure stops the two before. -/
def startSupport (calls : RequestCalls) (s : HardwareInterface) : Section :=
  match s.channels.support with
  | none => .ok s
  | some _ =>
    if calls.start.support then .ok (s.setChannels { s.channels with support := some true })
    else
      (s.setChannels { s.channels with
        metadata := false
        analysis := s.channels.analysis.map fun _ => false }).leave (.rejected .supportStart)

/-- The loop over the channels of the streams. Its failure stops nothing. -/
def startStreamChannels (calls : RequestCalls) (s : HardwareInterface) : Section :=
  let r := startStreams calls.start.stream 0 s.channels.streams
  let s := s.setChannels { s.channels with streams := r.2 }
  if r.1 then .ok s else s.leave (.rejected .streamStart)

/-- `start` of the raw dump channel. Its failure stops all before. -/
def startRawDump (calls : RequestCalls) (s : HardwareInterface) : Section :=
  match s.channels.rawDump with
  | none => .ok s
  | some active =>
    if calls.start.rawDump then .ok (s.setChannels { s.channels with rawDump := some true })
    else
      (s.setChannels { stopAllChannels s.channels with rawDump := some active }).leave (.rejected .rawDumpStart)

/-- `start_channel` of the bundle. Its failure stops nothing. -/
def startBundle (calls : RequestCalls) (s : HardwareInterface) : Section :=
  match s.channels.handle with
  | none => .ok s
  | some _ =>
    if calls.start.bundle then .ok (s.setChannels { s.channels with handle := some true })
    else s.leave (.rejected .bundleStart)

/-- The link to the other camera of a pair. -/
def linkCameras (calls : RequestCalls) (s : HardwareInterface) : Section :=
  if calls.dualCam then .ok s else s.leave (.rejected .dualCam)

/-- The first request after a configuration starts the channels. -/
def startChannels (calls : RequestCalls) (s : HardwareInterface) : Section :=
  if s.mState = .configured then do
    let s ← linkCameras calls s
    let s ← startMetadata calls s
    let s ← startAnalysis calls s
    let s ← startSupport calls s
    let s ← startStreamChannels calls s
    let s ← startRawDump calls s
    let s ← startBundle calls s
    .ok { s with mPendingLiveRequest := 0 }
  else .ok s

/-! ### The settings -/

/-- No request is taken during `flushPerf`. -/
def checkFlushPerf (s : HardwareInterface) : Section :=
  if s.mFlushPerf then s.leave .duringFlushPerf else .ok s

/-- The request id. A request without one takes the last one, if there is one. -/
def checkRequestId (req : CaptureRequest) (s : HardwareInterface) : Section :=
  match req.requestId with
  | some id => .ok { s with mCurrentRequestId := id }
  | none =>
    if s.mState = .configured ∨ s.mCurrentRequestId = -1 then
      s.leave (.rejected .noRequestId)
    else .ok s

/-- The fences of the output buffers. -/
def waitFences (calls : RequestCalls) (req : CaptureRequest) (s : HardwareInterface) : Section :=
  if (List.range req.outputs.length).all calls.fence then .ok s
  else s.leave (.rejected .fence)

/-- Whether a video buffer is requested. -/
def isVidBufRequested (req : CaptureRequest) : Bool :=
  req.outputs.any CaptureOutput.isVideo

/-- `setFrameParameters`, which is called outside batches, for previews and at the start of a
batch. -/
def setFrameParameters (calls : RequestCalls) (req : CaptureRequest) (s : HardwareInterface) :
    Section :=
  if s.mBatchSize = 0 ∨ isVidBufRequested req = false ∨ s.mToBeQueuedVidBufs = 0 then
    match calls.frameParameters with
    | some (batchSize, restart) =>
      .ok { s with
        mBatchSize := batchSize
        mNeedSensorRestart := s.mNeedSensorRestart || restart }
    | none => s.leave (.rejected .frameParameters)
  else .ok s

/-- The frame number of a request of a batch. -/
def markBatch (calls : RequestCalls) (req : CaptureRequest) (s : HardwareInterface) : Section :=
  if s.mBatchSize = 0 then .ok s
  else
    let s := if s.mToBeQueuedVidBufs = 0 then
        { s with mFirstFrameNumberInBatch := req.frameNumber } else s
    if calls.frameNumberEntry then .ok s else s.leave (.rejected .frameNumberEntry)

/-- `dynamicUpdateMetaStreamInfo`: the channels are stopped, what is pending is returned as
errors, and the channels are started again. -/
def restartSensor (calls : RequestCalls) (s : HardwareInterface) : Section :=
  if s.mNeedSensorRestart then
    let s := s.notifyErrorForPendingRequests
    let r := startAllChannels calls.restart (stopAllChannels s.channels)
    let s := s.setChannels r.2
    if r.1 then .ok { s with mNeedSensorRestart := false } else s.leave (.rejected .restart)
  else .ok s

/-- The settings of a live request, or the fence of the input buffer. -/
def parseSettings (calls : RequestCalls) (req : CaptureRequest) (s : HardwareInterface) :
    Section :=
  if req.inputBuffer = none then do
    let s ← setFrameParameters calls req s
    let s ← markBatch calls req s
    restartSensor calls s
  else if calls.inputFence then .ok s
  else s.leave (.rejected .inputFence)

/-! ### The lists and the channels -/

/-- The lists take the request. -/
def insertRequest (req : CaptureRequest) (s : HardwareInterface) : HardwareInterface :=
  { s with
    mPendingBuffersMap := s.mPendingBuffersMap ++
      [⟨req.frameNumber, req.outputs.map fun o => { stream := o.stream, buffer := o.buffer }⟩]
    mPendingRequestsList := s.mPendingRequestsList ++
      [{ frameNumber := req.frameNumber
         buffers := req.outputs.map fun o => { stream := o.stream }
         inputBuffer := req.inputBuffer }] }

/-- A request inserted during `flush` stays in the lists. -/
def checkFlush (s : HardwareInterface) : Section :=
  if s.mFlush then s.leave .duringFlush else .ok s

/-- `setReprocParameters` of a reprocess request. -/
def setReprocParameters (calls : RequestCalls) (req : CaptureRequest) (s : HardwareInterface) :
    Section :=
  if req.inputBuffer.isSome ∧ calls.reprocParameters = false then
    s.leave (.rejected .reprocParameters)
  else .ok s

/-- Whether an output that its channel took needs metadata: a picture of a live request does,
and other formats than these do not. -/
def needsMetadata (req : CaptureRequest) (o : CaptureOutput) (answer : Bool) : Bool :=
  match o.kind with
  | .blob => req.inputBuffer.isNone
  | .yuv => answer
  | .other => false

/-- A video buffer of a batch is counted, also when the channel does not take it. -/
def countVideoBuffer (o : CaptureOutput) (s : HardwareInterface) : HardwareInterface :=
  if o.kind = .other ∧ o.isVideo ∧ s.mBatchSize ≠ 0 then
    { s with mToBeQueuedVidBufs := (s.mToBeQueuedVidBufs + 1) % 256 }
  else s

/-- The entry of an output in its request notes that it needs metadata. -/
def markNeedMetadata (s : HardwareInterface) (frameNumber k : ℕ) (need : Bool) :
    HardwareInterface :=
  s.modifyRequest frameNumber fun i =>
    { i with buffers := i.buffers.modify k fun j => { j with needMetadata := need } }

/-- The requests to the channels of the outputs, and how many need metadata. -/
def requestOutputs (calls : RequestCalls) (req : CaptureRequest) : ℕ → List CaptureOutput → ℕ → HardwareInterface →
      Except (RequestExit × HardwareInterface) (ℕ × HardwareInterface)
  | _, [], n, s => .ok (n, s)
  | k, o :: os, n, s =>
    let s := s.countVideoBuffer o
    match calls.channelRequest k with
    | some answer =>
      let need := needsMetadata req o answer
      requestOutputs calls req (k + 1) os (n + need.toNat) (s.markNeedMetadata req.frameNumber k need)
    | none => .error (.rejected .channelRequest, s)

/-- The requests to the channels. Two outputs that need metadata are not supported. -/
def requestChannels (calls : RequestCalls) (req : CaptureRequest) (s : HardwareInterface) :
    Section := do
  let (n, s) ← requestOutputs calls req 0 req.outputs 0 s
  if 1 < n then s.leave (.rejected .twoMetadata) else .ok s

/-- `mPendingBatchMap.add`. -/
def addBatch (map : List (ℕ × ℕ)) (last first : ℕ) : List (ℕ × ℕ) :=
  map.filter (fun e => e.1 != last) ++ [(last, first)]

/-- The settings go to the backend: of every request outside batches, of previews, and of the
request that fills its batch. -/
def queueSettings (calls : RequestCalls) (req : CaptureRequest) (s : HardwareInterface) :
    Section :=
  if req.inputBuffer = none then
    if s.mBatchSize = 0 ∨ isVidBufRequested req = false ∨ s.mToBeQueuedVidBufs = s.mBatchSize then
      if calls.streamIdEntry then
        .ok { s with
          mToBeQueuedVidBufs := 0
          mPendingBatchMap :=
            addBatch s.mPendingBatchMap req.frameNumber s.mFirstFrameNumberInBatch
          mPendingLiveRequest := (s.mPendingLiveRequest + 1) % 2 ^ 32 }
      else s.leave (.rejected .streamIdEntry)
    else .ok { s with mPendingLiveRequest := (s.mPendingLiveRequest + 1) % 2 ^ 32 }
  else .ok s

/-- Up to the lists. -/
def prepareRequest (calls : RequestCalls) (req : CaptureRequest) (s : HardwareInterface) :
    Section := do
  let s ← checkState calls s
  let s ← validateCaptureRequest calls req s
  let s ← startChannels calls s
  let s ← checkFlushPerf s
  let s ← checkRequestId req s
  let s ← waitFences calls req s
  parseSettings calls req s

/-- From the lists on. -/
def submitRequest (calls : RequestCalls) (req : CaptureRequest) (s : HardwareInterface) :
    Section := do
  let s ← checkFlush s
  let s ← setReprocParameters calls req s
  let s ← requestChannels calls req s
  let s ← queueSettings calls req s
  .ok { s with mState := .started }

/-- `processCaptureRequest` up to its wait. -/
def processCaptureRequest (calls : RequestCalls) (req : CaptureRequest) (s : HardwareInterface) :
    RequestExit × HardwareInterface :=
  match prepareRequest calls req s >>= fun s => submitRequest calls req (insertRequest req s) with
  | .ok s => (.accepted, s)
  | .error r => r

end HardwareInterface

end Marlin
