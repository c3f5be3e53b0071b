import Marlin.Outcome
import Marlin.PendingDrain

/-!
# The Sections of a Capture Request

Up to the lists, `processCaptureRequest` leaves what is pending alone, but for a restart of the
sensor, which returns it as errors. From the lists on, the request itself is only marked.

## Main results

* `prepared`: what the sections up to the lists change, also where they leave.
* `submitted`: what the sections from the lists on change.
* `processCaptureRequest_cases`: the two ends of a call.
-/

open Ledger Outcome

namespace Marlin

namespace HardwareInterface

/-! ### Up to the lists -/

/-- The pending lists, the calls to the framework and the state are the same. -/
def Untouched (s t : HardwareInterface) : Prop :=
  t = { s with
    channels := t.channels
    mPendingLiveRequest := t.mPendingLiveRequest
    mCurrentRequestId := t.mCurrentRequestId
    mNeedSensorRestart := t.mNeedSensorRestart
    mBatchSize := t.mBatchSize
    mFirstFrameNumberInBatch := t.mFirstFrameNumberInBatch }

protected theorem Untouched.refl (s : HardwareInterface) : Untouched s s := rfl

protected theorem Untouched.trans {s t u : HardwareInterface} (h₁ : Untouched s t)
    (h₂ : Untouched t u) : Untouched s u := by
  have h := h₂
  rw [Untouched, h₁] at h
  exact h

variable {s t : HardwareInterface}

theorem Untouched.ledger (h : Untouched s t) (queued entered : List Out) :
    t.ledger queued entered = s.ledger queued entered := by
  rw [h]
  rfl

theorem Untouched.map (h : Untouched s t) : t.mPendingBuffersMap = s.mPendingBuffersMap := by
  rw [h]

theorem Untouched.working (h : Untouched s t) (hw : s.Working) : t.Working := by
  rw [h]
  exact ⟨hw.flushPerf, hw.state⟩

theorem Untouched.notifyErrorLoop (h : Untouched s t) (frameNum : ℕ)
    (map : List PendingBuffersInRequest) (input : Option StreamBuffer) :
    Untouched (notifyErrorLoop frameNum map input s) (notifyErrorLoop frameNum map input t) := by
  induction map generalizing input s t with
  | nil => exact h
  | cons e map ih =>
    rw [HardwareInterface.notifyErrorLoop, HardwareInterface.notifyErrorLoop]
    split
    · refine ih ?_ input
      rw [Untouched, h]
      rfl
    · have hinput : t.matchingInput e = s.matchingInput e := by
        rw [h]
        rfl
      rw [hinput]
      refine ih ?_ _
      rw [Untouched, h]
      rfl

theorem Untouched.notifyError (h : Untouched s t) :
    Untouched s.notifyErrorForPendingRequests t.notifyErrorForPendingRequests := by
  have hloop := h.notifyErrorLoop s.oldestFrameNum s.mPendingBuffersMap none
  have hold : t.oldestFrameNum = s.oldestFrameNum := by
    rw [h]
    rfl
  have hmap : t.mPendingBuffersMap = s.mPendingBuffersMap := by rw [h]
  rw [notifyErrorForPendingRequests, notifyErrorForPendingRequests, hold, hmap, Untouched]
  rw [Untouched] at hloop
  rw [hloop]

/-- The function is left with the pending lists as they were. -/
def LeavesAlone (s : HardwareInterface) (r : RequestExit × HardwareInterface) : Prop :=
  r.1 ≠ .accepted ∧ Untouched s r.2

/-- A section that leaves the pending lists alone. -/
def Quiet (f : HardwareInterface → Section) : Prop :=
  ∀ s, Meets (Untouched s) (LeavesAlone s) (f s)

theorem Quiet.bind {f g : HardwareInterface → Section} (hf : Quiet f) (hg : Quiet g) : Quiet fun s => f s >>= g :=
  Along.bind (R := Untouched) (E := fun e => e ≠ RequestExit.accepted) (fun _ _ _ => Untouched.trans) hf hg

variable (calls : RequestCalls) (req : CaptureRequest)

theorem quiet_validateCaptureRequest : Quiet (validateCaptureRequest calls req) := by
  rintro s
  rw [validateCaptureRequest]
  split
  · exact ⟨by simp, .refl s⟩
  · exact .refl s

theorem quiet_startMetadata : Quiet (startMetadata calls) := by
  rintro s
  rw [startMetadata]
  split
  · exact rfl
  · exact ⟨by simp, .refl s⟩

theorem quiet_startAnalysis : Quiet (startAnalysis calls) := by
  rintro s
  rw [startAnalysis]
  split
  · exact .refl s
  · split
    · exact rfl
    · exact ⟨by simp, rfl⟩

theorem quiet_startSupport : Quiet (startSupport calls) := by
  rintro s
  rw [startSupport]
  split
  · exact .refl s
  · split
    · exact rfl
    · exact ⟨by simp, rfl⟩

theorem quiet_startStreamChannels : Quiet (startStreamChannels calls) := by
  rintro s
  rw [startStreamChannels]
  dsimp only
  split
  · exact rfl
  · exact ⟨by simp, rfl⟩

theorem quiet_startRawDump : Quiet (startRawDump calls) := by
  rintro s
  rw [startRawDump]
  split
  · exact .refl s
  · split
    · exact rfl
    · exact ⟨by simp, rfl⟩

theorem quiet_startBundle : Quiet (startBundle calls) := by
  rintro s
  rw [startBundle]
  split
  · exact .refl s
  · split
    · exact rfl
    · exact ⟨by simp, rfl⟩

theorem quiet_linkCameras : Quiet (linkCameras calls) := by
  rintro s
  rw [linkCameras]
  split
  · exact .refl s
  · exact ⟨by simp, rfl⟩

theorem quiet_startChannels : Quiet (startChannels calls) := by
  have hlive : Quiet fun s => .ok { s with mPendingLiveRequest := 0 } := fun _ => rfl
  have hchain := (quiet_linkCameras calls).bind ((quiet_startMetadata calls).bind
    ((quiet_startAnalysis calls).bind ((quiet_startSupport calls).bind
      ((quiet_startStreamChannels calls).bind ((quiet_startRawDump calls).bind
        ((quiet_startBundle calls).bind hlive))))))
  rintro s
  rw [startChannels]
  split
  · exact hchain s
  · exact .refl s

theorem quiet_checkFlushPerf : Quiet checkFlushPerf := by
  rintro s
  rw [checkFlushPerf]
  split
  · exact ⟨by simp, rfl⟩
  · exact .refl s

theorem quiet_checkRequestId : Quiet (checkRequestId req) := by
  rintro s
  rw [checkRequestId]
  split
  · exact rfl
  · split
    · exact ⟨by simp, rfl⟩
    · exact .refl s

theorem quiet_waitFences : Quiet (waitFences calls req) := by
  rintro s
  rw [waitFences]
  split
  · exact .refl s
  · exact ⟨by simp, rfl⟩

theorem quiet_setFrameParameters : Quiet (setFrameParameters calls req) := by
  rintro s
  rw [setFrameParameters]
  split
  · split
    · exact rfl
    · exact ⟨by simp, rfl⟩
  · exact .refl s

theorem quiet_markBatch : Quiet (markBatch calls req) := by
  rintro s
  rw [markBatch]
  split
  · exact .refl s
  · dsimp only
    split <;> split
    · exact rfl
    · exact .refl s
    · exact ⟨by simp, rfl⟩
    · exact ⟨by simp, rfl⟩

/-- The state allows requests. -/
def Open (s : HardwareInterface) : Prop := s.mState = .configured ∨ s.mState = .started

theorem checkState_open (h : s.Open) : checkState calls s = .ok s := by
  rw [checkState]
  rcases h with h | h <;> rw [h]

/-- A live request up to the restart of the sensor. -/
def beforeRestart (s : HardwareInterface) : Section := do
  let s ← checkState calls s
  let s ← validateCaptureRequest calls req s
  let s ← startChannels calls s
  let s ← checkFlushPerf s
  let s ← checkRequestId req s
  let s ← waitFences calls req s
  let s ← setFrameParameters calls req s
  markBatch calls req s

/-- Whether the request restarts the sensor. -/
def restarts (s : HardwareInterface) : Bool :=
  req.inputBuffer.isNone &&
    match beforeRestart calls req s with
    | .ok t => t.mNeedSensorRestart
    | .error _ => false

/-- What is pending when the lists take the request: a restart of the sensor has returned
everything as errors. -/
def pendingBefore (s : HardwareInterface) : HardwareInterface :=
  if restarts calls req s then s.notifyErrorForPendingRequests else s

theorem prepareRequest_live (hlive : req.inputBuffer = none) (s : HardwareInterface) :
    prepareRequest calls req s = beforeRestart calls req s >>= restartSensor calls := by
  simp only [prepareRequest, beforeRestart, parseSettings, if_pos hlive, bind_assoc]

/-- **Up to the lists**, what is pending is left alone, but for a restart of the sensor. -/
theorem prepared (h : s.Open) : Meets (Untouched (pendingBefore calls req s))
      (fun r => r.1 ≠ .accepted ∧ Untouched (pendingBefore calls req s) r.2)
      (prepareRequest calls req s) := by
  by_cases hlive : req.inputBuffer = none
  · have hquiet := ((quiet_validateCaptureRequest calls req).bind
      ((quiet_startChannels calls).bind (quiet_checkFlushPerf.bind
        ((quiet_checkRequestId req).bind ((quiet_waitFences calls req).bind
          ((quiet_setFrameParameters calls req).bind (quiet_markBatch calls req))))))) s
    have hbefore : Meets (Untouched s) (LeavesAlone s) (beforeRestart calls req s) := by
      rw [beforeRestart, checkState_open calls h]
      exact hquiet
    rw [prepareRequest_live calls req hlive, pendingBefore, restarts, hlive]
    cases hcase : beforeRestart calls req s with
    | error r => exact hbefore.error hcase
    | ok t =>
      have ht := hbefore.ok hcase
      change Meets _ _ (restartSensor calls t)
      rw [restartSensor]
      cases hneed : t.mNeedSensorRestart with
      | false => simpa [hneed, Meets] using ht
      | true =>
        have hnotify := ht.notifyError
        simp only [Option.isNone_none, Bool.true_and, hneed, if_true]
        split
        · exact hnotify.trans rfl
        · exact ⟨by simp, hnotify.trans rfl⟩
  · have hfence : Quiet fun s => if calls.inputFence then .ok s
        else s.leave (.rejected .inputFence) := by
      rintro s
      dsimp only
      split
      · exact .refl s
      · exact ⟨by simp, .refl s⟩
    have hquiet := ((quiet_validateCaptureRequest calls req).bind
      ((quiet_startChannels calls).bind (quiet_checkFlushPerf.bind
        ((quiet_checkRequestId req).bind ((quiet_waitFences calls req).bind hfence))))) s
    have hrestarts : restarts calls req s = false := by
      rw [restarts, Option.isNone_eq_false_iff.mpr (Option.isSome_iff_ne_none.mpr hlive), Bool.false_and]
    rw [pendingBefore, hrestarts, prepareRequest, checkState_open calls h]
    simp only [parseSettings, if_neg hlive]
    exact hquiet

/-! ### From the lists on -/

/-- From the lists on, the requests are marked, and the counters and the state may change. -/
structure Submitted (s t : HardwareInterface) : Prop where
  rest : t = { s with
    mState := t.mState
    mPendingRequestsList := t.mPendingRequestsList
    mToBeQueuedVidBufs := t.mToBeQueuedVidBufs
    mPendingBatchMap := t.mPendingBatchMap
    mPendingLiveRequest := t.mPendingLiveRequest }
  requests : t.mPendingRequestsList.map ledgerReq = s.mPendingRequestsList.map ledgerReq
  state : t.mState = s.mState ∨ t.mState = .started

protected theorem Submitted.refl (s : HardwareInterface) : Submitted s s := ⟨rfl, rfl, .inl rfl⟩

protected theorem Submitted.trans {s t u : HardwareInterface} (h₁ : Submitted s t)
    (h₂ : Submitted t u) : Submitted s u where
  rest := by
    have h := h₂.rest
    rw [h₁.rest] at h
    exact h
  requests := h₂.requests.trans h₁.requests
  state := by
    rcases h₂.state with h | h
    · rw [h]
      exact h₁.state
    · exact .inr h

theorem Submitted.ledger (h : Submitted s t) (queued entered : List Out) :
    t.ledger queued entered = s.ledger queued entered := by
  rw [HardwareInterface.ledger, h.requests, h.rest]
  rfl

theorem Submitted.map (h : Submitted s t) : t.mPendingBuffersMap = s.mPendingBuffersMap := by
  rw [h.rest]

theorem Submitted.working (h : Submitted s t) (hw : s.Working) : t.Working := by
  constructor
  · rw [h.rest]
    exact hw.flushPerf
  · rcases h.state with hst | hst
    · rw [hst]
      exact hw.state
    · exact .inr hst

theorem submitted_countVideoBuffer (o : CaptureOutput) (s : HardwareInterface) :
    Submitted s (s.countVideoBuffer o) := by
  rw [countVideoBuffer]
  split
  · exact ⟨rfl, rfl, .inl rfl⟩
  · exact .refl s

theorem submitted_markNeedMetadata (s : HardwareInterface) (frameNumber k : ℕ) (need : Bool) :
    Submitted s (s.markNeedMetadata frameNumber k need) := by
  have hslots (l : List RequestedBufferInfo) (k : ℕ) :
      (l.modify k fun j => { j with needMetadata := need }).map ledgerSlot = l.map ledgerSlot := by
    induction l generalizing k with
    | nil => simp
    | cons j l ih => cases k <;> simp [ih, ledgerSlot]
  refine ⟨rfl, ?_, .inl rfl⟩
  simp only [markNeedMetadata, modifyRequest, List.map_map]
  refine List.map_congr_left fun i _ => ?_
  simp only [Function.comp_apply]
  split
  · simp only [ledgerReq, hslots]
  · rfl

theorem submitted_requestOutputs (k n : ℕ) (l : List CaptureOutput) (s : HardwareInterface) :
    Meets (fun r => Submitted s r.2) (fun r => r.1 ≠ .accepted ∧ Submitted s r.2)
      (requestOutputs calls req k l n s) := by
  induction l generalizing k n s with
  | nil => exact Submitted.refl s
  | cons o l ih =>
    have hcount := submitted_countVideoBuffer o s
    rw [requestOutputs]
    dsimp only
    split
    · rename_i answer _
      have hmark := hcount.trans (submitted_markNeedMetadata (s.countVideoBuffer o)
        req.frameNumber k (needsMetadata req o answer))
      exact (ih _ _ _).mono (fun r hr => hmark.trans hr) fun r hr => ⟨hr.1, hmark.trans hr.2⟩
    · exact ⟨by simp, hcount⟩

/-- A section that marks the request. -/
def Submitting (f : HardwareInterface → Section) : Prop :=
  ∀ s, Meets (Submitted s) (fun r => r.1 ≠ .accepted ∧ Submitted s r.2) (f s)

theorem Submitting.bind {f g : HardwareInterface → Section} (hf : Submitting f)
    (hg : Submitting g) : Submitting fun s => f s >>= g :=
  Along.bind (R := Submitted) (E := fun e => e ≠ RequestExit.accepted) (fun _ _ _ => Submitted.trans) hf hg

theorem submitting_requestChannels : Submitting (requestChannels calls req) := by
  rintro s
  refine (submitted_requestOutputs calls req 0 0 req.outputs s).bind ?_
  rintro ⟨n, t⟩ ht
  dsimp only
  split
  · exact ⟨by simp, ht⟩
  · exact ht

theorem submitting_queueSettings : Submitting (queueSettings calls req) := by
  rintro s
  rw [queueSettings]
  split
  · split
    · split
      · exact ⟨rfl, rfl, .inl rfl⟩
      · exact ⟨by simp, .refl s⟩
    · exact ⟨rfl, rfl, .inl rfl⟩
  · exact .refl s

/-- **From the lists on**, the request is only marked. -/
theorem submitted (s : HardwareInterface) : Meets (Submitted s) (fun r => r.1 ≠ .accepted ∧ Submitted s r.2)
      (submitRequest calls req s) := by
  have hflush : Submitting checkFlush := by
    rintro s
    rw [checkFlush]
    split
    · exact ⟨by simp, .refl s⟩
    · exact .refl s
  have hreproc : Submitting (setReprocParameters calls req) := by
    rintro s
    rw [setReprocParameters]
    split
    · exact ⟨by simp, .refl s⟩
    · exact .refl s
  have hstart : Submitting fun s => .ok { s with mState := .started } := by
    rintro s
    exact ⟨rfl, rfl, .inr rfl⟩
  exact hflush.bind (hreproc.bind ((submitting_requestChannels calls req).bind
    ((submitting_queueSettings calls req).bind hstart))) s

variable {calls req} in
theorem processCaptureRequest_of_error {r : RequestExit × HardwareInterface}
    (h : prepareRequest calls req s = .error r) : processCaptureRequest calls req s = r := by
  rw [processCaptureRequest, h]
  rfl

variable {calls req} in
theorem processCaptureRequest_of_ok {t : HardwareInterface} (h : prepareRequest calls req s = .ok t) :
    (∀ u, submitRequest calls req (insertRequest req t) = .ok u → processCaptureRequest calls req s = (.accepted, u)) ∧
      ∀ r, submitRequest calls req (insertRequest req t) = .error r → processCaptureRequest calls req s = r := by
  have hbind : (prepareRequest calls req s >>= fun s => submitRequest calls req (insertRequest req s)) =
      submitRequest calls req (insertRequest req t) := by
    rw [h]
    rfl
  rw [processCaptureRequest, hbind]
  refine ⟨fun u hu => ?_, fun r hr => ?_⟩
  · rw [hu]
  · rw [hr]

/-- **The two ends of a call**: it leaves before the lists take the request, or it goes on with
the request in the lists. -/
theorem processCaptureRequest_cases (h : s.Open) :
    (∃ r, prepareRequest calls req s = .error r ∧ processCaptureRequest calls req s = r ∧
      r.1 ≠ .accepted ∧ Untouched (pendingBefore calls req s) r.2) ∨
    ∃ t, prepareRequest calls req s = .ok t ∧ Untouched (pendingBefore calls req s) t ∧
      Submitted (insertRequest req t) (processCaptureRequest calls req s).2 := by
  have hprep := prepared calls req h
  cases hcase : prepareRequest calls req s with
  | error r =>
    obtain ⟨hr, ht⟩ := hprep.error hcase
    exact .inl ⟨r, rfl, processCaptureRequest_of_error hcase, hr, ht⟩
  | ok t =>
    refine .inr ⟨t, rfl, hprep.ok hcase, ?_⟩
    have hsub := submitted calls req (insertRequest req t)
    obtain ⟨hok, herror⟩ := processCaptureRequest_of_ok hcase
    cases hcase' : submitRequest calls req (insertRequest req t) with
    | ok u =>
      rw [hok u hcase']
      exact hsub.ok hcase'
    | error r =>
      rw [herror r hcase']
      exact (hsub.error hcase').2

theorem outputs_of_prepared (h : prepareRequest calls req s = .ok t) : 1 ≤ req.outputs.length := by
  rw [prepareRequest] at h
  obtain ⟨s₁, -, h⟩ := bind_eq_ok.mp h
  obtain ⟨s₂, hvalid, -⟩ := bind_eq_ok.mp h
  rw [validateCaptureRequest] at hvalid
  split at hvalid
  · simp [leave] at hvalid
  · rename_i hgood
    simp only [not_or] at hgood
    omega

end HardwareInterface

end Marlin
