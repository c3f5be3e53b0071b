import Mathlib.Data.Nat.Notation

/-!
# The Post-Processor

`QCamera3PostProcessor` makes JPEG pictures of the frames of its parent channel. Frames, their
metadata, the frames of the framework and the JPEG settings of the requests come in by queues of
their own, without an identifier, and a job is made of what is at the heads of the queues. A thread
of its own does the jobs, at each `DO_NEXT_JOB`: it starts an encoding, then a job for a frame of the
framework, then one for a frame of the parent's stream.

## Conventions

* The three parts of a `DO_NEXT_JOB` are steps of their own; the callbacks and requests of the other
  threads fall between them as they fall between two commands.
* A queue that is not active is empty, since `flush` empties it, so a dequeue from it finds nothing.
  The six queues are switched on and off together (`queuesActive`); `ongoingJpegQ` is always on.
* The nodes of the queues are allocated. The `malloc` of `processData`, which returns with the lock
  held where it fails, succeeds.
* What the code does not have: the frame numbers of frames, metadata and settings, which say what
  request they are of; `parentBufs`, the buffers that the parent's stream has; `reprocessing`, what
  the reprocess stream works on, in order; and `created`, what the jobs were made of.
* For settings the frame number is the one that `mMemory` of the parent has for the output buffer. It
  stays the request's until the buffer is returned, as the framework gives no buffer twice.

## Main results

* `processPPData_frame`, `releaseSuperBuf_frame`: what these functions leave alone.
-/

namespace Marlin

open List

/-- `reprocess_type_t`. -/
inductive ReprocessType
  | none
  | jpeg
  | yuv
  | priv
  | raw
  deriving DecidableEq

/-- `mm_camera_super_buf_t` with its one buffer: of the parent's stream, or of the reprocess stream. -/
structure PpFrame where
  bufIdx : ℕ
  ofParent : Bool := true
  frameNumber : ℕ
  deriving DecidableEq

/-- `mm_camera_super_buf_t` of the metadata stream. -/
structure PpMetadata where
  frameNumber : ℕ
  deriving DecidableEq

/-- `qcamera_fwk_input_pp_data_t`, with the index of its metadata buffer. -/
structure FwkInput where
  frameNumber : ℕ
  metaBufIdx : ℕ
  reprocessType : ReprocessType
  deriving DecidableEq

/-- `jpeg_settings_t`. -/
structure JpegSettings where
  outBufIndex : ℕ
  frameNumber : ℕ
  deriving DecidableEq

/-- `qcamera_hal3_pp_data_t`. -/
structure PpJob where
  srcFrame : Option PpFrame := none
  fwkSrcFrame : Option FwkInput := none
  srcMetadata : Option PpMetadata := none
  jpegSettings : Option JpegSettings
  deriving DecidableEq

/-- `qcamera_hal3_jpeg_data_t`. -/
structure JpegJob where
  srcFrame : Option PpFrame := none
  srcReprocFrame : Option PpFrame := none
  fwkFrame : Option FwkInput := none
  fwkSrcBuffer : Option FwkInput := none
  srcMetadata : Option PpMetadata := none
  jpegSettings : JpegSettings
  deriving DecidableEq

/-- The requests that the source frame, the metadata and the settings of a job are of. -/
structure JobParts where
  source : ℕ
  metadata : Option ℕ
  settings : Option ℕ
  deriving DecidableEq

/-- `QCamera3PostProcessor`. -/
structure PostProcessor where
  isActive : Bool := false
  queuesActive : Bool := true
  reprocChannel : Bool := false
  inputPPQ : List PpFrame := []
  inputFWKPPQ : List FwkInput := []
  ongoingPPQ : List PpJob := []
  inputJpegQ : List JpegJob := []
  ongoingJpegQ : List JpegJob := []
  inputMetaQ : List PpMetadata := []
  jpegSettingsQ : List JpegSettings := []
  parentBufs : List ℕ := []
  reprocessing : List ℕ := []
  created : List JobParts := []

/-- The results of the calls for a frame of the framework: the job, and the reprocess request. -/
structure FwkCalls where
  allocated : Bool := true
  reprocessed : Bool := true
  deriving DecidableEq

/-- The results of the calls for a frame of the parent's stream: the job, `overrideMetadata`, the
reprocess request or the JPEG job, and `bufDone` of the frame where these fail. -/
structure LiveCalls where
  allocated : Bool := true
  overridden : Bool := true
  reprocessed : Bool := true
  jpegAllocated : Bool := true
  bufDone : Bool := true
  deriving DecidableEq

/-- The results of the calls of `start`: the reprocess channel is added and started. -/
structure PpStartCalls where
  added : Bool := true
  started : Bool := true
  deriving DecidableEq

/-- What a job for a frame is made of. -/
def PpJob.parts (job : PpJob) (source : ℕ) : JobParts where
  source := source
  metadata := job.fwkSrcFrame.elim (job.srcMetadata.map (·.frameNumber)) fun f => some f.frameNumber
  settings := job.jpegSettings.map (·.frameNumber)

namespace PostProcessor

/-- `enqueue`. -/
def enqueue {α : Type} (active : Bool) (queue : List α) (a : α) : List α :=
  if active then queue ++ [a] else queue

/-! ### What comes in -/

/-- `processData`, of a frame of the parent's stream. -/
def processData (s : PostProcessor) (frame : PpFrame) : PostProcessor :=
  { s with inputPPQ := enqueue s.queuesActive s.inputPPQ frame }

/-- `processPPMetadata`. -/
def processPPMetadata (s : PostProcessor) (reprocMeta : PpMetadata) : PostProcessor :=
  { s with inputMetaQ := enqueue s.queuesActive s.inputMetaQ reprocMeta }

/-- `processJpegSettingData`. -/
def processJpegSettingData (s : PostProcessor) (jpegSettings : JpegSettings) : PostProcessor :=
  { s with jpegSettingsQ := enqueue s.queuesActive s.jpegSettingsQ jpegSettings }

/-- `processData`, of a frame of the framework, and whether the JPEG job is allocated. -/
def processFwkData (s : PostProcessor) (frame : FwkInput) (allocated : Bool) : PostProcessor :=
  if frame.reprocessType ≠ .none then
    { s with inputFWKPPQ := enqueue s.queuesActive s.inputFWKPPQ frame }
  else
    match s.jpegSettingsQ with
    | [] => s
    | settings :: rest =>
      if allocated then
        { s with
          jpegSettingsQ := rest
          inputJpegQ := enqueue s.queuesActive s.inputJpegQ { fwkFrame := some frame, jpegSettings := settings }
          created := s.created ++ [⟨frame.frameNumber, some frame.frameNumber, some settings.frameNumber⟩] }
      else { s with jpegSettingsQ := rest }

/-- The rest of `processPPData`, with the reprocessing job that was dequeued. -/
def queueJpegJob (s : PostProcessor) (job : PpJob) (frame : PpFrame) (allocated : Bool) : Bool × PostProcessor :=
  match job.jpegSettings with
  | none => (false, s)
  | some settings =>
    if (job.srcFrame.isNone ∧ job.fwkSrcFrame.isNone) ∨ !allocated then (false, s)
    else
      (true, { s with
        inputJpegQ := enqueue s.queuesActive s.inputJpegQ
          { srcFrame := some frame
            srcReprocFrame := if some frame = job.srcFrame then none else job.srcFrame
            fwkSrcBuffer := job.fwkSrcFrame
            srcMetadata := job.srcMetadata
            jpegSettings := settings }
        created := s.created ++ [job.parts frame.frameNumber] })

/-- `processPPData`, and whether it succeeds. -/
def processPPData (s : PostProcessor) (frame : PpFrame) (allocated : Bool) : Bool × PostProcessor :=
  match s.ongoingPPQ with
  | [] => (false, s)
  | job :: rest => { s with ongoingPPQ := rest }.queueJpegJob job frame allocated

/-! ### The data thread -/

/-- `releaseSuperBuf`: the parent queues the buffer to its stream again. -/
def releaseSuperBuf (s : PostProcessor) (frame : PpFrame) (bufDone : Bool) : PostProcessor :=
  if frame.ofParent && bufDone then { s with parentBufs := s.parentBufs ++ [frame.bufIdx] } else s

/-- The first part of `DO_NEXT_JOB`: without an ongoing encoding one is started. -/
def startJpeg (s : PostProcessor) (encoded : Bool) : PostProcessor :=
  match s.ongoingJpegQ, s.inputJpegQ with
  | [], job :: rest =>
    { s with
      inputJpegQ := rest
      ongoingJpegQ := if encoded then [job] else [] }
  | _, _ => s

/-- A job for a frame of the framework. One that is not started is taken off the end of the queue. -/
def startFwkJob (s : PostProcessor) (job : PpJob) (frame : FwkInput) (calls : FwkCalls) :
    PostProcessor :=
  if !calls.allocated || !s.reprocChannel then s
  else
    let s := { s with created := s.created ++ [job.parts frame.frameNumber] }
    if calls.reprocessed then
      { s with
        ongoingPPQ := enqueue s.queuesActive s.ongoingPPQ job
        reprocessing := s.reprocessing ++ [frame.frameNumber] }
    else s

/-- The second part: the job for the first frame of the framework. -/
def startFwk (s : PostProcessor) (calls : FwkCalls) : PostProcessor :=
  match s.inputFWKPPQ with
  | [] => s
  | frame :: rest =>
    { s with inputFWKPPQ := rest, jpegSettingsQ := s.jpegSettingsQ.tail }.startFwkJob
      { fwkSrcFrame := some frame, jpegSettings := s.jpegSettingsQ.head? } frame calls

/-- A job for a frame of the parent's stream. After a failing `overrideMetadata` it stays in the
queue, though it is freed. -/
def startLiveJob (s : PostProcessor) (job : PpJob) (frame : PpFrame) (calls : LiveCalls) :
    PostProcessor :=
  if !calls.allocated then s.releaseSuperBuf frame calls.bufDone
  else
    let s := { s with created := s.created ++ [job.parts frame.frameNumber] }
    let started := { s with ongoingPPQ := enqueue s.queuesActive s.ongoingPPQ job }
    if s.reprocChannel then
      if !calls.overridden then started.releaseSuperBuf frame calls.bufDone
      else if calls.reprocessed then
        { started with reprocessing := s.reprocessing ++ [frame.frameNumber] }
      else s.releaseSuperBuf frame calls.bufDone
    else
      let r := started.processPPData frame calls.jpegAllocated
      if r.1 then r.2 else r.2.releaseSuperBuf frame calls.bufDone

/-- The third part: the job for the first frame of the parent's stream, with the first metadata. -/
def startLive (s : PostProcessor) (calls : LiveCalls) : PostProcessor :=
  match s.inputPPQ, s.inputMetaQ with
  | frame :: frames, reprocMeta :: metas =>
    { s with
      inputPPQ := frames
      inputMetaQ := metas
      jpegSettingsQ := s.jpegSettingsQ.tail }.startLiveJob
        { srcFrame := some frame
          srcMetadata := some reprocMeta
          jpegSettings := s.jpegSettingsQ.head? } frame calls
  | _, _ => s

/-- `DO_NEXT_JOB` while the thread is not active. -/
def dropNext (s : PostProcessor) (bufDone : Bool) : PostProcessor :=
  let s := { s with
    inputJpegQ := s.inputJpegQ.tail
    inputMetaQ := s.inputMetaQ.tail
    inputFWKPPQ := s.inputFWKPPQ.tail }
  match s.inputPPQ with
  | [] => s
  | frame :: frames => { s with inputPPQ := frames }.releaseSuperBuf frame bufDone

/-- `CAMERA_CMD_TYPE_START_DATA_PROC`. -/
def startDataProc (s : PostProcessor) : PostProcessor :=
  { s with isActive := true, queuesActive := true }

/-- `start`, of a configuration. -/
def start (s : PostProcessor) (reprocessType : ReprocessType) (calls : PpStartCalls) :
    PostProcessor :=
  if reprocessType = .none then s.startDataProc
  else
    let s := { s with reprocessing := [] }
    if !calls.added || (reprocessType = .jpeg && !calls.started) then
      { s with reprocChannel := false }
    else { s with reprocChannel := true }.startDataProc

/-- The frames that are released go back to the stream. -/
def releaseAll (bufDone : ℕ → Bool) (s : PostProcessor) (frames : List PpFrame) : PostProcessor :=
  frames.foldl (fun s frame => s.releaseSuperBuf frame (bufDone frame.bufIdx)) s

/-- `stop`: `CAMERA_CMD_TYPE_STOP_DATA_PROC`, and the reprocess channel is deleted. -/
def stop (s : PostProcessor) (bufDone : ℕ → Bool) : PostProcessor :=
  let s := { s with isActive := false, ongoingJpegQ := [] }
  let s :=
    if s.queuesActive then
      let frames := s.ongoingPPQ.filterMap (·.srcFrame) ++ s.inputPPQ
      { s with
        queuesActive := false
        ongoingPPQ := []
        inputJpegQ := []
        inputPPQ := []
        inputFWKPPQ := []
        inputMetaQ := []
        jpegSettingsQ := [] }.releaseAll bufDone frames
    else s
  { s with reprocChannel := false, reprocessing := [] }

/-- `flush`, up to the offline buffers of the reprocess channel. -/
def flush (s : PostProcessor) : PostProcessor := { s with ongoingJpegQ := [] }

/-! ### What comes back -/

/-- The end of a reprocessing, for a JPEG: `streamCbRoutine` of the reprocess channel, with the
reprocessed frame and whether it and its JPEG job are allocated. -/
def jpegReprocessed (s : PostProcessor) (frame : PpFrame) (copied allocated : Bool) :
    PostProcessor :=
  let s := { s with reprocessing := s.reprocessing.tail }
  if copied then (s.processPPData frame allocated).2 else s

/-- The end of a reprocessing, for another output: the job at the head of the queue is released. -/
def outputReprocessed (s : PostProcessor) : PostProcessor :=
  { s with reprocessing := s.reprocessing.tail, ongoingPPQ := s.ongoingPPQ.tail }

/-- `findJpegJobByJobId`, of a valid job id. -/
def findJpegJob (s : PostProcessor) : Option JpegJob × PostProcessor :=
  (s.ongoingJpegQ.head?, { s with ongoingJpegQ := s.ongoingJpegQ.tail })

/-! ### What they leave alone -/

theorem queueJpegJob_frame (s : PostProcessor) (job : PpJob) (frame : PpFrame) (allocated : Bool) :
    ∃ queue created, (s.queueJpegJob job frame allocated).2 =
        { s with inputJpegQ := queue, created := created } ∧
      ∀ p ∈ created, p ∈ s.created ∨ p = job.parts frame.frameNumber := by
  rw [queueJpegJob]
  cases job.jpegSettings with
  | none => exact ⟨s.inputJpegQ, s.created, rfl, fun _ hp => .inl hp⟩
  | some settings =>
    simp only
    split
    · exact ⟨s.inputJpegQ, s.created, rfl, fun _ hp => .inl hp⟩
    · refine ⟨_, _, rfl, fun p hp => ?_⟩
      exact (mem_append.mp hp).imp id mem_singleton.mp

/-- `processPPData` takes the head of the queue of the reprocessing jobs. -/
theorem processPPData_frame (s : PostProcessor) (frame : PpFrame) (allocated : Bool) :
    ∃ queue created, (s.processPPData frame allocated).2 =
        { s with ongoingPPQ := s.ongoingPPQ.tail, inputJpegQ := queue, created := created } ∧
      ∀ p ∈ created, p ∈ s.created ∨ ∃ job ∈ s.ongoingPPQ.head?, p = job.parts frame.frameNumber := by
  obtain ⟨isActive, queuesActive, reprocChannel, inputPPQ, inputFWKPPQ, ongoingPPQ, _⟩ := s
  cases ongoingPPQ with
  | nil => exact ⟨_, _, rfl, fun _ hp => .inl hp⟩
  | cons job rest =>
    obtain ⟨queue, created, heq, hcreated⟩ := queueJpegJob_frame _ job frame allocated
    exact ⟨queue, created, heq, fun p hp => (hcreated p hp).imp id fun hp => ⟨job, rfl, hp⟩⟩

/-- A frame that is released changes the stream's buffers only. -/
theorem releaseSuperBuf_frame (s : PostProcessor) (frame : PpFrame) (bufDone : Bool) :
    s.releaseSuperBuf frame bufDone = { s with
      parentBufs := s.parentBufs ++ if frame.ofParent && bufDone then [frame.bufIdx] else [] } := by
  rw [releaseSuperBuf]
  split
  · rfl
  · rw [append_nil]

end PostProcessor

end Marlin
