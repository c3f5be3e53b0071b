import Marlin.CaptureResults

/-!
# Flushing the Pending Lists

`notifyErrorForPendingRequests` returns what is pending as errors: it walks over the map of the
pending buffers, and takes the head of the list of requests when its number is the one of the
entry. `flushPerf` counts the buffers in the map, waits until as many have come, and then
returns the errors; while it waits, the handlers only count.

An allocation does not fail: `new` does not return a null pointer.
-/

namespace Marlin

/-- `UINT_MAX`. -/
def uintMax : ℕ := 2 ^ 32 - 1

namespace HardwareInterface

/-- The buffers of an entry of the map, returned as errors. -/
def errorBuffers (req : PendingBuffersInRequest) : List StreamBuffer :=
  req.pendingBufferList.map fun info => ⟨info.stream, info.buffer, true⟩

/-- An entry of the map whose request has got its metadata. `input` is what an earlier turn
left in the result. -/
def notifyErrorBuffers (s : HardwareInterface) (req : PendingBuffersInRequest)
    (input : Option StreamBuffer) : HardwareInterface :=
  { s with sent := s.sent ++ req.pendingBufferList.map (fun info => .errorBuffer req.frameNumber info.stream) ++
      [.result
        { frameNumber := req.frameNumber
          outputBuffers := errorBuffers req
          inputBuffer := input }] }

/-- The input buffer that goes with an entry of the map: that of the head of the requests, if
it has the number of the entry. -/
def matchingInput (s : HardwareInterface) (req : PendingBuffersInRequest) : Option StreamBuffer :=
  (s.mPendingRequestsList.head?.filter fun i => i.frameNumber == req.frameNumber).bind PendingRequestInfo.inputBuffer

/-- An entry of the map from the oldest request on. The head of the requests is erased if it
has the number of the entry. -/
def notifyErrorRequest (s : HardwareInterface) (req : PendingBuffersInRequest) :
    HardwareInterface :=
  { s with
    sent := s.sent ++
      [.errorRequest req.frameNumber,
        .result
          { frameNumber := req.frameNumber
            outputBuffers := errorBuffers req
            inputBuffer := s.matchingInput req }]
    mPendingRequestsList := match s.mPendingRequestsList with
      | [] => []
      | i :: is => if i.frameNumber = req.frameNumber then is else i :: is }

/-- The walk of `notifyErrorForPendingRequests` over the map. -/
def notifyErrorLoop (frameNum : ℕ) :
    List PendingBuffersInRequest → Option StreamBuffer → HardwareInterface → HardwareInterface
  | [], _, s => s
  | req :: reqs, input, s =>
    if req.frameNumber < frameNum then
      notifyErrorLoop frameNum reqs input (s.notifyErrorBuffers req input)
    else
      notifyErrorLoop frameNum reqs (s.matchingInput req) (s.notifyErrorRequest req)

/-- The number of the oldest request. -/
def oldestFrameNum (s : HardwareInterface) : ℕ :=
  (s.mPendingRequestsList.head?.map PendingRequestInfo.frameNumber).getD uintMax

/-- `notifyErrorForPendingRequests`. The list of requests is not cleared. -/
def notifyErrorForPendingRequests (s : HardwareInterface) : HardwareInterface :=
  { notifyErrorLoop s.oldestFrameNum s.mPendingBuffersMap none s with
    mPendingFrameDropList := []
    mPendingBuffersMap := []
    mPendingReprocessResultList := [] }

/-! ### `flushPerf` -/

/-- `flushPerf` until it waits, with whether the backend took the flush: whether it waits. -/
def flushPerfStart (s : HardwareInterface) (flushed : Bool) : Bool × HardwareInterface :=
  let s := { s with
    mFlushPerf := true
    numPendingBufsAtFlush := getNumOverallBuffers s.mPendingBuffersMap }
  if flushed = false ∨ s.numPendingBufsAtFlush = 0 then (false, { s with mFlushPerf := false })
  else (true, s)

/-- `flushPerf` after it has waited, with whether the wait failed. -/
def flushPerfEnd (s : HardwareInterface) (failed : Bool) : HardwareInterface :=
  if failed then { s with mFlushPerf := false }
  else { s.notifyErrorForPendingRequests with mPendingLiveRequest := 0, mFlushPerf := false }

end HardwareInterface

end Marlin
