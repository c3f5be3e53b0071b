import Marlin.CaptureSections

/-!
# When the Lists Take a Request

Each section of `processCaptureRequest` goes on under a condition on the request, on the answers
to its calls and on the state before the call. The conditions are given here in the order of the
sections, with the state in which the next section starts.

## Main definitions

* `Entering`: the request is valid and the channels start; `opened` is the state after.
* `Prepares`: the request id, the fences and the settings; `ready` is the state after.
* `Restarts`: the sensor is restarted; `Reopens`: its channels start again.
* `Takes`: all of these; `listing` is the state in which the lists take the request.

## Main results

* `prepareRequest_meets`: exactly when the lists take the request, and what happens if not.
-/

open Outcome

namespace Marlin

namespace HardwareInterface

/-! ### The conditions -/

variable (calls : RequestCalls) (req : CaptureRequest) (s : HardwareInterface)

/-- `validateCaptureRequest` succeeds. -/
def Valid : Prop :=
  (req.settings = true ∨ s.mState ≠ .configured) ∧ 1 ≤ req.outputs.length ∧
    req.outputs.length < maxNumStreams ∧ calls.buffersValid = true

/-- Every channel starts. -/
def StartsAll (start : StartAnswers) (c : HalChannels) : Prop :=
  start.metadata = true ∧ (c.analysis.isSome → start.analysis = true) ∧ (c.support.isSome → start.support = true) ∧
    (∀ k < c.streams.length, start.stream k = true) ∧
    (c.rawDump.isSome → start.rawDump = true) ∧ (c.handle.isSome → start.bundle = true)

/-- The first request after a configuration starts every channel. -/
def Starts : Prop :=
  s.mState = .configured → calls.dualCam = true ∧ StartsAll calls.start s.channels

/-- The request is valid and the channels start. -/
def Entering : Prop := s.Open ∧ Valid calls req s ∧ Starts calls s

/-- All channels are active. -/
def startedChannels (c : HalChannels) : HalChannels where
  metadata := true
  analysis := c.analysis.map fun _ => true
  support := c.support.map fun _ => true
  streams := c.streams.map fun _ => true
  rawDump := c.rawDump.map fun _ => true
  handle := c.handle.map fun _ => true

/-- The state after the start of the channels. -/
def opened : HardwareInterface :=
  if s.mState = .configured then
    { s with channels := startedChannels s.channels, mPendingLiveRequest := 0 }
  else s

/-- The request has an id, or takes the last one. -/
def HasRequestId : Prop :=
  req.requestId = none → s.mState ≠ .configured ∧ s.mCurrentRequestId ≠ -1

/-- `setFrameParameters` is called. -/
def SetsParameters : Prop :=
  s.mBatchSize = 0 ∨ isVidBufRequested req = false ∨ s.mToBeQueuedVidBufs = 0
deriving Decidable

/-- The size of the batches after `setFrameParameters`. -/
def newBatchSize : ℕ :=
  if SetsParameters req s then calls.frameParameters.elim s.mBatchSize Prod.fst
  else s.mBatchSize

/-- Whether the sensor is to be restarted after `setFrameParameters`. -/
def needsRestart : Bool :=
  s.mNeedSensorRestart || (decide (SetsParameters req s) && calls.frameParameters.elim false Prod.snd)

/-- The settings of a live request are taken. -/
def TakesSettings : Prop :=
  (SetsParameters req s → calls.frameParameters.isSome = true) ∧
    (newBatchSize calls req s ≠ 0 → calls.frameNumberEntry = true)

/-- The request id, the fences and the settings are in order. -/
def Prepares : Prop :=
  HasRequestId req s ∧ (List.range req.outputs.length).all calls.fence = true ∧
    if req.inputBuffer = none then TakesSettings calls req s else calls.inputFence = true

/-- The state after the settings of a live request. -/
def withSettings : HardwareInterface :=
  if req.inputBuffer = none then
    { s with
      mBatchSize := newBatchSize calls req s
      mNeedSensorRestart := needsRestart calls req s
      mFirstFrameNumberInBatch :=
        if newBatchSize calls req s ≠ 0 ∧ s.mToBeQueuedVidBufs = 0 then req.frameNumber
        else s.mFirstFrameNumberInBatch }
  else s

/-- The state after the request id. -/
def identified : HardwareInterface :=
  { s with mCurrentRequestId := req.requestId.getD s.mCurrentRequestId }

/-- The state before a restart of the sensor. -/
def ready : HardwareInterface := withSettings calls req (identified req s.opened)

/-- The request restarts the sensor. -/
def Restarts : Prop := req.inputBuffer = none ∧ needsRestart calls req s = true
deriving Decidable

/-- The channels start again. The answer of the analysis channel does not matter. -/
def Reopens (start : StartAnswers) (c : HalChannels) : Prop :=
  start.metadata = true ∧ (∀ k < c.streams.length, start.stream k = true) ∧
    (c.support.isSome → start.support = true) ∧ (c.rawDump.isSome → start.rawDump = true)

/-- The state after a restart of the sensor. -/
def reopened (calls : RequestCalls) (s : HardwareInterface) : HardwareInterface :=
  { s.notifyErrorForPendingRequests with
    channels := (startAllChannels calls.restart (stopAllChannels s.channels)).2
    mNeedSensorRestart := false }

/-- The lists take the request. -/
def Takes : Prop :=
  Entering calls req s ∧ s.mFlushPerf = false ∧ Prepares calls req s ∧
    (Restarts calls req s → Reopens calls.restart s.channels)

/-- The state in which the lists take the request. -/
def listing : HardwareInterface :=
  if Restarts calls req s then reopened calls (ready calls req s) else ready calls req s

/-! ### Up to the start of the channels -/

variable {t : HardwareInterface}

theorem validateCaptureRequest_eq_ok : validateCaptureRequest calls req s = .ok t ↔ Valid calls req s ∧ t = s := by
  have hvalid : Valid calls req s ↔ ¬ ((req.settings = false ∧ s.mState = .configured) ∨
      req.outputs.length < 1 ∨ maxNumStreams ≤ req.outputs.length ∨ calls.buffersValid = false) := by
    rw [Valid]
    grind
  rw [validateCaptureRequest, hvalid]
  exact error_ite_eq_ok

theorem startStreams_all (start : ℕ → Bool) (k : ℕ) (cs : List Bool) :
    (startStreams start k cs).1 = true ↔ ∀ j < cs.length, start (k + j) = true := by
  induction cs generalizing k with
  | nil => simp [startStreams]
  | cons c cs ih =>
    rw [startStreams]
    split
    · rename_i hstart
      change (startStreams start (k + 1) cs).1 = true ↔ _
      rw [ih]
      constructor
      · rintro h j hj
        cases j with
        | zero => exact hstart
        | succ j =>
          rw [show k + (j + 1) = k + 1 + j by omega]
          exact h j (by simpa using hj)
      · rintro h j hj
        rw [show k + 1 + j = k + (j + 1) by omega]
        exact h (j + 1) (by simpa using hj)
    · rename_i hstart
      simp only [Bool.false_eq_true, false_iff, not_forall]
      exact ⟨0, by simp, hstart⟩

theorem startStreams_started {start : ℕ → Bool} {k : ℕ} {cs : List Bool} (h : (startStreams start k cs).1 = true) :
    (startStreams start k cs).2 = cs.map fun _ => true := by
  induction cs generalizing k with
  | nil => rfl
  | cons c cs ih =>
    rw [startStreams] at h ⊢
    split
    · rename_i hstart
      rw [if_pos hstart] at h
      rw [List.map_cons, ← ih h]
    · rename_i hstart
      simp [hstart] at h

theorem startAnalysis_eq_ok : startAnalysis calls s = .ok t ↔
    (s.channels.analysis.isSome → calls.start.analysis = true) ∧
      t = s.setChannels { s.channels with analysis := s.channels.analysis.map fun _ => true } := by
  rw [startAnalysis]
  cases h : s.channels.analysis with
  | none =>
    have hsame : s.setChannels { s.channels with analysis := none } = s := by
      rw [← h]
      rfl
    simp only [Option.isSome_none, Bool.false_eq_true, false_implies, Option.map_none, hsame, true_and]
    exact ok_eq_ok
  | some active =>
    simp only [Option.isSome_some, true_implies, Option.map_some]
    exact ite_error_eq_ok

theorem startSupport_eq_ok : startSupport calls s = .ok t ↔ (s.channels.support.isSome → calls.start.support = true) ∧
      t = s.setChannels { s.channels with support := s.channels.support.map fun _ => true } := by
  rw [startSupport]
  cases h : s.channels.support with
  | none =>
    have hsame : s.setChannels { s.channels with support := none } = s := by
      rw [← h]
      rfl
    simp only [Option.isSome_none, Bool.false_eq_true, false_implies, Option.map_none, hsame, true_and]
    exact ok_eq_ok
  | some active =>
    simp only [Option.isSome_some, true_implies, Option.map_some]
    exact ite_error_eq_ok

theorem startStreamChannels_eq_ok : startStreamChannels calls s = .ok t ↔
    (∀ k < s.channels.streams.length, calls.start.stream k = true) ∧
      t = s.setChannels { s.channels with streams := s.channels.streams.map fun _ => true } := by
  have hall := startStreams_all calls.start.stream 0 s.channels.streams
  simp only [Nat.zero_add] at hall
  rw [startStreamChannels, ← hall]
  dsimp only
  rw [leave, ite_error_eq_ok]
  refine and_congr_right fun h => ?_
  rw [startStreams_started h]

theorem startRawDump_eq_ok : startRawDump calls s = .ok t ↔ (s.channels.rawDump.isSome → calls.start.rawDump = true) ∧
      t = s.setChannels { s.channels with rawDump := s.channels.rawDump.map fun _ => true } := by
  rw [startRawDump]
  cases h : s.channels.rawDump with
  | none =>
    have hsame : s.setChannels { s.channels with rawDump := none } = s := by
      rw [← h]
      rfl
    simp only [Option.isSome_none, Bool.false_eq_true, false_implies, Option.map_none, hsame, true_and]
    exact ok_eq_ok
  | some active =>
    simp only [Option.isSome_some, true_implies, Option.map_some]
    exact ite_error_eq_ok

theorem startBundle_eq_ok : startBundle calls s = .ok t ↔ (s.channels.handle.isSome → calls.start.bundle = true) ∧
      t = s.setChannels { s.channels with handle := s.channels.handle.map fun _ => true } := by
  rw [startBundle]
  cases h : s.channels.handle with
  | none =>
    have hsame : s.setChannels { s.channels with handle := none } = s := by
      rw [← h]
      rfl
    simp only [Option.isSome_none, Bool.false_eq_true, false_implies, Option.map_none, hsame, true_and]
    exact ok_eq_ok
  | some active =>
    simp only [Option.isSome_some, true_implies, Option.map_some]
    exact ite_error_eq_ok

theorem startChannels_eq_ok : startChannels calls s = .ok t ↔ Starts calls s ∧ t = s.opened := by
  have hlink (s t : HardwareInterface) : linkCameras calls s = .ok t ↔ calls.dualCam = true ∧ t = s :=
    ite_error_eq_ok
  have hmeta (s t : HardwareInterface) : startMetadata calls s = .ok t ↔
      calls.start.metadata = true ∧ t = s.setChannels { s.channels with metadata := true } :=
    ite_error_eq_ok
  rw [startChannels, Starts, opened]
  split
  · rename_i hconf
    simp only [bind_eq_ok, hlink, hmeta, startAnalysis_eq_ok, startSupport_eq_ok,
      startStreamChannels_eq_ok, startRawDump_eq_ok, startBundle_eq_ok, ok_eq_ok, setChannels,
      StartsAll, and_assoc, exists_and_left, exists_eq_left, hconf, true_implies]
    rfl
  · rename_i hconf
    simp only [hconf, false_implies, true_and, ok_eq_ok]

/-! ### Up to the lists -/

theorem opened_eq : s.opened = { s with
    channels := s.opened.channels
    mPendingLiveRequest := s.opened.mPendingLiveRequest } := by
  rw [opened]
  split <;> rfl

theorem checkRequestId_eq_ok : checkRequestId req s = .ok t ↔ HasRequestId req s ∧ t = identified req s := by
  rw [checkRequestId, HasRequestId, identified]
  cases req.requestId with
  | some id =>
    simp only [reduceCtorEq, false_implies, Option.getD_some, true_and]
    exact ok_eq_ok
  | none =>
    simp only [true_implies, Option.getD_none, ← not_or]
    exact error_ite_eq_ok

theorem waitFences_eq_ok : waitFences calls req s = .ok t ↔
    (List.range req.outputs.length).all calls.fence = true ∧ t = s :=
  ite_error_eq_ok

theorem setFrameParameters_eq_ok : setFrameParameters calls req s = .ok t ↔
      (SetsParameters req s → calls.frameParameters.isSome = true) ∧ t = { s with
          mBatchSize := newBatchSize calls req s
          mNeedSensorRestart := needsRestart calls req s } := by
  rw [setFrameParameters, newBatchSize, needsRestart]
  split
  · rename_i hsets
    have hset : SetsParameters req s := hsets
    simp only [hset, true_implies, if_true, decide_true, Bool.true_and]
    cases calls.frameParameters with
    | some p =>
      obtain ⟨batchSize, restart⟩ := p
      simp only [Option.isSome_some, true_and, Option.elim_some]
      exact ok_eq_ok
    | none => simp [leave]
  · rename_i hsets
    have hset : ¬ SetsParameters req s := hsets
    simp only [hset, false_implies, true_and, if_false, decide_false, Bool.false_and, Bool.or_false]
    exact ok_eq_ok

theorem markBatch_eq_ok : markBatch calls req s = .ok t ↔
    (s.mBatchSize ≠ 0 → calls.frameNumberEntry = true) ∧ t = { s with mFirstFrameNumberInBatch :=
        if s.mBatchSize ≠ 0 ∧ s.mToBeQueuedVidBufs = 0 then req.frameNumber
        else s.mFirstFrameNumberInBatch } := by
  rw [markBatch]
  split
  · rename_i hzero
    have hnone : ¬ s.mBatchSize ≠ 0 := not_not_intro hzero
    simp only [hnone, false_implies, false_and, if_false, true_and]
    exact ok_eq_ok
  · rename_i hbatch
    simp only [ne_eq, hbatch, not_false_eq_true, true_implies, true_and]
    refine ite_error_eq_ok.trans (and_congr_right fun _ => ?_)
    split <;> rfl

theorem startAllChannels_all (start : StartAnswers) (c : HalChannels) :
    (startAllChannels start c).1 = true ↔ Reopens start c := by
  have hall := startStreams_all start.stream 0 c.streams
  simp only [Nat.zero_add] at hall
  rw [startAllChannels, Reopens, ← hall]
  cases start.metadata <;> cases hstreams : (startStreams start.stream 0 c.streams).1 <;>
    cases start.support <;> cases start.rawDump <;> cases c.support <;> cases c.rawDump <;>
    simp [hstreams]

theorem reopens_stopAllChannels (start : StartAnswers) (c : HalChannels) :
    Reopens start (stopAllChannels c) ↔ Reopens start c := by
  simp [Reopens, stopAllChannels]

theorem reopens_opened (start : StartAnswers) : Reopens start s.opened.channels ↔ Reopens start s.channels := by
  rw [opened]
  split
  · simp [Reopens, startedChannels]
  · rfl

theorem restartSensor_meets : Meets (fun t => (s.mNeedSensorRestart = true → Reopens calls.restart s.channels) ∧
        t = if s.mNeedSensorRestart then reopened calls s else s)
      (fun r => s.mNeedSensorRestart = true ∧ ¬ Reopens calls.restart s.channels ∧
        r = (.rejected .restart, { reopened calls s with mNeedSensorRestart := true }))
      (restartSensor calls s) := by
  have hnotify : s.notifyErrorForPendingRequests.channels = s.channels := by
    rw [notifyError_rest]
  have hneeds : s.notifyErrorForPendingRequests.mNeedSensorRestart = s.mNeedSensorRestart := by
    rw [notifyError_rest]
  rw [restartSensor]
  cases hneed : s.mNeedSensorRestart with
  | false => exact ⟨fun h => absurd h Bool.false_ne_true, rfl⟩
  | true =>
    simp only [if_true, hnotify, true_implies, true_and]
    rw [← reopens_stopAllChannels, ← startAllChannels_all]
    split
    · rename_i hstart
      exact ⟨hstart, rfl⟩
    · rename_i hstart
      refine ⟨hstart, ?_⟩
      rw [reopened, ← hneed, ← hneeds]
      rfl

/-- The settings without the restart of the sensor. -/
def takeSettings : Section :=
  if req.inputBuffer = none then do
    let s ← setFrameParameters calls req s
    markBatch calls req s
  else if calls.inputFence then .ok s
  else s.leave (.rejected .inputFence)

theorem takeSettings_eq_ok : takeSettings calls req s = .ok t ↔
    (if req.inputBuffer = none then TakesSettings calls req s else calls.inputFence = true) ∧
      t = withSettings calls req s := by
  rw [takeSettings, withSettings]
  split
  · simp only [bind_eq_ok, setFrameParameters_eq_ok, markBatch_eq_ok, TakesSettings, and_assoc,
      exists_and_left, exists_eq_left]
  · exact ite_error_eq_ok

theorem parseSettings_eq : parseSettings calls req s = takeSettings calls req s >>= fun t =>
      if req.inputBuffer = none then restartSensor calls t else .ok t := by
  rw [parseSettings, takeSettings]
  split
  · simp only [bind_assoc]
  · split <;> rfl

theorem withSettings_needs (hlive : req.inputBuffer = none) :
    (withSettings calls req s).mNeedSensorRestart = true ↔ Restarts calls req s := by
  simp [withSettings, Restarts, hlive]

theorem takesSettings_opened : TakesSettings calls req (identified req s.opened) ↔ TakesSettings calls req s := by
  rw [opened_eq]
  rfl

theorem restarts_opened : Restarts calls req (identified req s.opened) ↔ Restarts calls req s := by
  rw [opened_eq]
  rfl

theorem hasRequestId_opened : HasRequestId req s.opened ↔ HasRequestId req s := by
  rw [opened_eq]
  rfl

/-! ### Where the lists do not take it -/

/-- Only the channels are changed. -/
def ChannelsOnly (s t : HardwareInterface) : Prop := t = s.setChannels t.channels

protected theorem ChannelsOnly.trans {s t u : HardwareInterface} (h₁ : ChannelsOnly s t)
    (h₂ : ChannelsOnly t u) : ChannelsOnly s u := by
  have h := h₂
  rw [ChannelsOnly, h₁] at h
  exact h

/-- The request is rejected. -/
def Rejects (e : RequestExit) : Prop := ∃ r, e = .rejected r

theorem startChannels_error :
    Meets (fun _ => True) (fun r => Rejects r.1 ∧ ChannelsOnly s r.2) (startChannels calls s) := by
  have htrans (s t u : HardwareInterface) (h₁ : ChannelsOnly s t) (h₂ : ChannelsOnly t u) :
      ChannelsOnly s u := h₁.trans h₂
  have hlink : Along ChannelsOnly Rejects (linkCameras calls) := by
    intro s
    rw [linkCameras]
    split <;> first | exact rfl | exact ⟨⟨_, rfl⟩, rfl⟩
  have hmeta : Along ChannelsOnly Rejects (startMetadata calls) := by
    intro s
    rw [startMetadata]
    split <;> first | exact rfl | exact ⟨⟨_, rfl⟩, rfl⟩
  have hanalysis : Along ChannelsOnly Rejects (startAnalysis calls) := by
    intro s
    rw [startAnalysis]
    split
    · exact rfl
    · split <;> first | exact rfl | exact ⟨⟨_, rfl⟩, rfl⟩
  have hsupport : Along ChannelsOnly Rejects (startSupport calls) := by
    intro s
    rw [startSupport]
    split
    · exact rfl
    · split <;> first | exact rfl | exact ⟨⟨_, rfl⟩, rfl⟩
  have hstreams : Along ChannelsOnly Rejects (startStreamChannels calls) := by
    intro s
    rw [startStreamChannels]
    dsimp only
    split <;> first | exact rfl | exact ⟨⟨_, rfl⟩, rfl⟩
  have hrawDump : Along ChannelsOnly Rejects (startRawDump calls) := by
    intro s
    rw [startRawDump]
    split
    · exact rfl
    · split <;> first | exact rfl | exact ⟨⟨_, rfl⟩, rfl⟩
  have hbundle : Along ChannelsOnly Rejects (startBundle calls) := by
    intro s
    rw [startBundle]
    split
    · exact rfl
    · split <;> first | exact rfl | exact ⟨⟨_, rfl⟩, rfl⟩
  have hchain := hlink.bind htrans (hmeta.bind htrans (hanalysis.bind htrans (hsupport.bind htrans
    (hstreams.bind htrans (hrawDump.bind htrans hbundle)))))
  rw [startChannels]
  split
  · have hlast := (hchain s).bind (R := fun _ => True)
      (f := fun s => .ok { s with mPendingLiveRequest := 0 }) fun _ _ => trivial
    simpa only [bind_assoc] using hlast
  · trivial

/-- The request id and the settings are changed. -/
def Configures (s t : HardwareInterface) : Prop :=
  t = { s with
    mCurrentRequestId := t.mCurrentRequestId
    mNeedSensorRestart := t.mNeedSensorRestart
    mBatchSize := t.mBatchSize
    mFirstFrameNumberInBatch := t.mFirstFrameNumberInBatch }

protected theorem Configures.trans {s t u : HardwareInterface} (h₁ : Configures s t)
    (h₂ : Configures t u) : Configures s u := by
  have h := h₂
  rw [Configures, h₁] at h
  exact h

/-- The request id, the fences and the settings. -/
def settle : Section := do
  let s ← checkRequestId req s
  let s ← waitFences calls req s
  takeSettings calls req s

theorem settle_configures : Along Configures Rejects (settle calls req) := by
  have htrans (s t u : HardwareInterface) (h₁ : Configures s t) (h₂ : Configures t u) : Configures s u := h₁.trans h₂
  have hid : Along Configures Rejects (checkRequestId req) := by
    intro s
    rw [checkRequestId]
    split
    · exact rfl
    · split <;> first | exact rfl | exact ⟨⟨_, rfl⟩, rfl⟩
  have hfences : Along Configures Rejects (waitFences calls req) := by
    intro s
    rw [waitFences]
    split <;> first | exact rfl | exact ⟨⟨_, rfl⟩, rfl⟩
  have hset : Along Configures Rejects (setFrameParameters calls req) := by
    intro s
    rw [setFrameParameters]
    split
    · split <;> first | exact rfl | exact ⟨⟨_, rfl⟩, rfl⟩
    · exact rfl
  have hmark : Along Configures Rejects (markBatch calls req) := by
    intro s
    rw [markBatch]
    split
    · exact rfl
    · dsimp only
      split <;> split <;> first | exact rfl | exact ⟨⟨_, rfl⟩, rfl⟩
  have htake : Along Configures Rejects (takeSettings calls req) := by
    intro s
    rw [takeSettings]
    split
    · exact hset.bind htrans hmark s
    · split <;> first | exact rfl | exact ⟨⟨_, rfl⟩, rfl⟩
  exact hid.bind htrans (hfences.bind htrans htake)

/-- Where a call is left before the lists take the request, and with what. -/
inductive LeftBefore (calls : RequestCalls) (req : CaptureRequest) (s : HardwareInterface) :
    RequestExit × HardwareInterface → Prop
  | start {e : RequestExit} {t : HardwareInterface} (h : ¬ Entering calls req s)
      (he : Rejects e) (ht : ChannelsOnly s t) : LeftBefore calls req s (e, t)
  | flushPerf (h : Entering calls req s) (hflush : s.mFlushPerf = true) :
      LeftBefore calls req s (.duringFlushPerf, s.opened)
  | settings {e : RequestExit} {t : HardwareInterface} (h : Entering calls req s)
      (hflush : s.mFlushPerf = false) (hnot : ¬ Prepares calls req s) (he : Rejects e)
      (ht : Configures s.opened t) : LeftBefore calls req s (e, t)
  | restart (h : Entering calls req s) (hflush : s.mFlushPerf = false)
      (hprep : Prepares calls req s) (hrestart : Restarts calls req s)
      (hnot : ¬ Reopens calls.restart s.channels) : LeftBefore calls req s (.rejected .restart,
        { reopened calls (ready calls req s) with mNeedSensorRestart := true })

theorem settle_eq_ok : settle calls req s.opened = .ok t ↔ Prepares calls req s ∧ t = ready calls req s := by
  simp only [settle, bind_eq_ok, checkRequestId_eq_ok, waitFences_eq_ok, takeSettings_eq_ok,
    takesSettings_opened, hasRequestId_opened, and_assoc, exists_and_left, exists_eq_left,
    Prepares, ready]

/-- **Up to the lists**: when the lists take the request, and what else can happen. -/
theorem prepareRequest_meets (hopen : s.Open) :
    Meets (fun t => Takes calls req s ∧ t = listing calls req s) (LeftBefore calls req s)
      (prepareRequest calls req s) := by
  have hperf : s.opened.mFlushPerf = s.mFlushPerf := by rw [opened_eq]
  have heq : prepareRequest calls req s =
      validateCaptureRequest calls req s >>= fun t => startChannels calls t >>= fun t =>
        checkFlushPerf t >>= fun t => settle calls req t >>= fun t =>
          if req.inputBuffer = none then restartSensor calls t else .ok t := by
    simp only [prepareRequest, checkState_open calls hopen, settle, parseSettings_eq, bind_assoc]
    rfl
  have hvalid : Meets (fun _ => True) (fun r => Rejects r.1 ∧ ChannelsOnly s r.2)
      (validateCaptureRequest calls req s) := by
    rw [validateCaptureRequest]
    split
    · exact ⟨⟨_, rfl⟩, rfl⟩
    · trivial
  rw [heq]
  refine ((Meets.of_eq_ok (validateCaptureRequest_eq_ok calls req s)).and hvalid).seq ?_ ?_
  · rintro ⟨e, t⟩ ⟨hnot, he, ht⟩
    exact .start (fun h => hnot h.2.1) he ht
  rintro u ⟨⟨hv, hu⟩, -⟩
  rw [hu]
  refine ((Meets.of_eq_ok (startChannels_eq_ok calls s)).and (startChannels_error calls s)).seq ?_ ?_
  · rintro ⟨e, t⟩ ⟨hnot, he, ht⟩
    exact .start (fun h => hnot h.2.2) he ht
  rintro u ⟨⟨hs, hu⟩, -⟩
  rw [hu]
  have henter : Entering calls req s := ⟨hopen, hv, hs⟩
  rw [checkFlushPerf, hperf]
  cases hflush : s.mFlushPerf with
  | true => exact .flushPerf henter hflush
  | false =>
    refine ((Meets.of_eq_ok (settle_eq_ok calls req s)).and (settle_configures calls req s.opened)).seq ?_ ?_
    · rintro ⟨e, t⟩ ⟨hnot, he, ht⟩
      exact .settings henter hflush hnot he ht
    rintro u ⟨⟨hp, hu⟩, -⟩
    rw [hu]
    split
    · rename_i hlive
      have hneed : (ready calls req s).mNeedSensorRestart = true ↔ Restarts calls req s :=
        (withSettings_needs calls req _ hlive).trans (restarts_opened calls req s)
      have hreopen : Reopens calls.restart (ready calls req s).channels ↔ Reopens calls.restart s.channels := by
        rw [ready, withSettings, if_pos hlive]
        exact reopens_opened s calls.restart
      refine (restartSensor_meets calls (ready calls req s)).mono ?_ ?_
      · rintro t ⟨h, ht⟩
        refine ⟨⟨henter, hflush, hp, fun hr => hreopen.mp (h (hneed.mpr hr))⟩, ?_⟩
        simpa only [listing, hneed] using ht
      · rintro r ⟨hr, hnot, rfl⟩
        exact .restart henter hflush hp (hneed.mp hr) fun h => hnot (hreopen.mpr h)
    · rename_i hreproc
      have hnone : ¬ Restarts calls req s := fun h => hreproc h.1
      refine ⟨⟨henter, hflush, hp, fun h => absurd h hnone⟩, ?_⟩
      rw [listing, if_neg hnone]

theorem prepareRequest_of_takes (h : Takes calls req s) : prepareRequest calls req s = .ok (listing calls req s) := by
  have hmeets := prepareRequest_meets calls req s h.1.1
  cases hcase : prepareRequest calls req s with
  | ok t => rw [(hmeets.ok hcase).2]
  | error r =>
    cases hmeets.error hcase with
    | start hnot => exact absurd h.1 hnot
    | flushPerf _ hflush => exact absurd (h.2.1.symm.trans hflush) Bool.false_ne_true
    | settings _ _ hnot => exact absurd h.2.2.1 hnot
    | restart _ _ _ hrestart hnot => exact absurd (h.2.2.2 hrestart) hnot

end HardwareInterface

end Marlin
