import Marlin.RequestAdmission

/-!
# The Ends of a Call

From the lists on, `processCaptureRequest` goes to its end or is left with the request in the
lists. With what happens before the lists, this gives the ends of a call.

## Main results

* `submitRequest_meets`: exactly when the function goes on to its end from the lists.
* `processCaptureRequest_ends`: the ends of a call, each with its condition.
-/

open List Outcome

namespace Marlin

namespace HardwareInterface

variable (calls : RequestCalls) (req : CaptureRequest) (s : HardwareInterface)

/-! ### From the lists on -/

/-- How many outputs need metadata. -/
def metadataNeeds : ℕ :=
  req.outputs.zipIdx.countP fun o =>
    needsMetadata req o.1 ((calls.channelRequest o.2).getD false)

/-- How many outputs are counted as video buffers of a batch. -/
def videoBuffers (outputs : List CaptureOutput) : ℕ :=
  outputs.countP fun o => decide (o.kind = .other) && o.isVideo

/-- `mToBeQueuedVidBufs` after the requests to the channels. -/
def filled (outputs : List CaptureOutput) (batchSize toBeQueued : ℕ) : ℕ :=
  if batchSize = 0 ∨ videoBuffers outputs = 0 then toBeQueued
  else (toBeQueued + videoBuffers outputs) % 256

/-- The settings go to the backend. -/
def QueuesSettings (batchSize toBeQueued : ℕ) : Prop :=
  batchSize = 0 ∨ isVidBufRequested req = false ∨ filled req.outputs batchSize toBeQueued = batchSize

/-- The calls after the lists have taken the request succeed. -/
def Submits (batchSize toBeQueued : ℕ) : Prop :=
  (req.inputBuffer.isSome → calls.reprocParameters = true) ∧
    (∀ k < req.outputs.length, (calls.channelRequest k).isSome = true) ∧
    metadataNeeds calls req ≤ 1 ∧
    (req.inputBuffer = none → QueuesSettings req batchSize toBeQueued → calls.streamIdEntry = true)

/-- The entries of requests are marked, and video buffers are counted. -/
def Marks (s t : HardwareInterface) : Prop :=
  t = { s with
    mPendingRequestsList := t.mPendingRequestsList
    mToBeQueuedVidBufs := t.mToBeQueuedVidBufs }

protected theorem Marks.trans {s t u : HardwareInterface} (h₁ : Marks s t) (h₂ : Marks t u) : Marks s u := by
  have h := h₂
  rw [Marks, h₁] at h
  exact h

theorem marks_countVideoBuffer (o : CaptureOutput) : Marks s (s.countVideoBuffer o) := by
  rw [countVideoBuffer]
  split <;> rfl

theorem marks_requestOutputs (k n : ℕ) (l : List CaptureOutput) :
    Meets (fun r => Marks s r.2) (fun r => (∃ e, r.1 = .rejected e) ∧ Marks s r.2)
      (requestOutputs calls req k l n s) := by
  induction l generalizing k n s with
  | nil => exact rfl
  | cons o l ih =>
    have hcount := marks_countVideoBuffer s o
    rw [requestOutputs]
    dsimp only
    split
    · rename_i answer _
      have hmark := hcount.trans (show Marks _ ((s.countVideoBuffer o).markNeedMetadata
        req.frameNumber k (needsMetadata req o answer)) from rfl)
      exact (ih _ _ _).mono (fun r hr => hmark.trans hr) fun r hr => ⟨hr.1, hmark.trans hr.2⟩
    · exact ⟨⟨_, rfl⟩, hcount⟩

theorem filled_cons (o : CaptureOutput) (l : List CaptureOutput) : filled (o :: l) s.mBatchSize s.mToBeQueuedVidBufs =
      filled l (s.countVideoBuffer o).mBatchSize (s.countVideoBuffer o).mToBeQueuedVidBufs := by
  rw [countVideoBuffer]
  by_cases hbatch : s.mBatchSize = 0
  · simp [filled, hbatch]
  · by_cases hvideo : o.kind = .other ∧ o.isVideo
    · rw [if_pos ⟨hvideo.1, hvideo.2, hbatch⟩]
      have hcons : videoBuffers (o :: l) = videoBuffers l + 1 := by
        simp [videoBuffers, hvideo]
      simp only [filled, hcons, hbatch, false_or, Nat.succ_ne_zero, if_false]
      split <;> omega
    · rw [if_neg fun h => hvideo ⟨h.1, h.2.1⟩]
      have hcons : videoBuffers (o :: l) = videoBuffers l :=
        countP_cons_of_neg (by simpa using hvideo)
      rw [filled, hcons, filled]

theorem requestOutputs_accepts (k n : ℕ) (l : List CaptureOutput) :
    match requestOutputs calls req k l n s with
    | .ok (m, t) => (∀ j < l.length, (calls.channelRequest (k + j)).isSome = true) ∧
        m = n + (l.zipIdx k).countP (fun o =>
          needsMetadata req o.1 ((calls.channelRequest o.2).getD false)) ∧
        t.mToBeQueuedVidBufs = filled l s.mBatchSize s.mToBeQueuedVidBufs
    | .error _ => ¬ ∀ j < l.length, (calls.channelRequest (k + j)).isSome = true := by
  induction l generalizing k n s with
  | nil => simp [requestOutputs, filled, videoBuffers]
  | cons o l ih =>
    have hall : (∀ j < (o :: l).length, (calls.channelRequest (k + j)).isSome = true) ↔
        (calls.channelRequest k).isSome = true ∧ ∀ j < l.length, (calls.channelRequest (k + 1 + j)).isSome = true := by
      rw [length_cons, Nat.forall_lt_succ_left]
      simp only [Nat.add_zero, Nat.add_assoc, Nat.add_comm 1]
    rw [requestOutputs]
    simp only [hall]
    cases hcall : calls.channelRequest k with
    | none => simp
    | some answer =>
      have hrest := ih ((s.countVideoBuffer o).markNeedMetadata req.frameNumber k
        (needsMetadata req o answer)) (k + 1) (n + (needsMetadata req o answer).toNat)
      have hfilled := filled_cons s o l
      dsimp only
      split
      · rename_i m t hok
        rw [hok] at hrest
        obtain ⟨h₁, h₂, h₃⟩ := hrest
        refine ⟨⟨rfl, h₁⟩, ?_, h₃.trans hfilled.symm⟩
        have hneed : (needsMetadata req o answer).toNat =
            if needsMetadata req o answer = true then 1 else 0 := by
          cases needsMetadata req o answer <;> rfl
        rw [h₂, zipIdx_cons, countP_cons]
        simp only [hcall, Option.getD_some, hneed]
        omega
      · rename_i r herror
        rw [herror] at hrest
        exact fun h => hrest h.2

theorem setReprocParameters_meets : Meets (fun t => (req.inputBuffer.isSome → calls.reprocParameters = true) ∧ t = s)
      (fun r => ¬ (req.inputBuffer.isSome → calls.reprocParameters = true) ∧ (∃ e, r.1 = .rejected e) ∧ Marks s r.2)
      (setReprocParameters calls req s) := by
  rw [setReprocParameters]
  split
  · rename_i hfails
    refine ⟨fun h => ?_, ⟨_, rfl⟩, rfl⟩
    exact Bool.false_ne_true (hfails.2.symm.trans (h hfails.1))
  · rename_i hsets
    exact ⟨fun h => by simpa [h] using hsets, rfl⟩

theorem requestChannels_meets : Meets (fun t => ((∀ k < req.outputs.length, (calls.channelRequest k).isSome = true) ∧
        metadataNeeds calls req ≤ 1) ∧ Marks s t ∧
        t.mToBeQueuedVidBufs = filled req.outputs s.mBatchSize s.mToBeQueuedVidBufs)
      (fun r => ¬ ((∀ k < req.outputs.length, (calls.channelRequest k).isSome = true) ∧
        metadataNeeds calls req ≤ 1) ∧ (∃ e, r.1 = .rejected e) ∧ Marks s r.2)
      (requestChannels calls req s) := by
  have haccepts := requestOutputs_accepts calls req s 0 0 req.outputs
  have hmarks := marks_requestOutputs calls req s 0 0 req.outputs
  simp only [Nat.zero_add] at haccepts
  rw [requestChannels]
  cases hcase : requestOutputs calls req 0 req.outputs 0 s with
  | error r =>
    rw [hcase] at haccepts
    exact ⟨fun h => haccepts h.1, hmarks.error hcase⟩
  | ok r =>
    obtain ⟨m, t⟩ := r
    rw [hcase] at haccepts
    obtain ⟨hall, hm, hfilled⟩ := haccepts
    change Meets _ _ (if 1 < m then t.leave _ else .ok t)
    have hneeds : m = metadataNeeds calls req := hm
    split
    · exact ⟨fun h => by omega, ⟨_, rfl⟩, hmarks.ok hcase⟩
    · exact ⟨⟨hall, by omega⟩, hmarks.ok hcase, hfilled⟩

theorem queueSettings_meets :
    Meets (fun t => (req.inputBuffer = none → (s.mBatchSize = 0 ∨ isVidBufRequested req = false ∨
          s.mToBeQueuedVidBufs = s.mBatchSize) → calls.streamIdEntry = true) ∧
        t.mPendingLiveRequest =
          if req.inputBuffer = none then (s.mPendingLiveRequest + 1) % 2 ^ 32
          else s.mPendingLiveRequest)
      (fun r => ¬ (req.inputBuffer = none → (s.mBatchSize = 0 ∨ isVidBufRequested req = false ∨
          s.mToBeQueuedVidBufs = s.mBatchSize) → calls.streamIdEntry = true) ∧
        (∃ e, r.1 = .rejected e) ∧ Marks s r.2)
      (queueSettings calls req s) := by
  rw [queueSettings]
  split
  · rename_i hlive
    split
    · rename_i hqueues
      split
      · rename_i hentry
        exact ⟨fun _ _ => hentry, rfl⟩
      · rename_i hentry
        exact ⟨fun h => hentry (h hlive hqueues), ⟨_, rfl⟩, rfl⟩
    · rename_i hqueues
      exact ⟨fun _ h => absurd h hqueues, rfl⟩
  · rename_i hreproc
    exact ⟨fun h => absurd h hreproc, rfl⟩

/-- **From the lists on**: when the function goes on to its end, and what it leaves. -/
theorem submitRequest_meets : Meets (fun t => (s.mFlush = false ∧ Submits calls req s.mBatchSize s.mToBeQueuedVidBufs) ∧
        t.mState = .started ∧ t.mPendingLiveRequest =
          if req.inputBuffer = none then (s.mPendingLiveRequest + 1) % 2 ^ 32
          else s.mPendingLiveRequest)
      (fun r => ¬ (s.mFlush = false ∧ Submits calls req s.mBatchSize s.mToBeQueuedVidBufs) ∧
        (if s.mFlush then r.1 = .duringFlush else ∃ e, r.1 = .rejected e) ∧ Marks s r.2)
      (submitRequest calls req s) := by
  rw [submitRequest, checkFlush]
  cases hflush : s.mFlush with
  | true => exact ⟨fun h => by simp at h, rfl, rfl⟩
  | false =>
    refine (setReprocParameters_meets calls req s).seq (fun r hr => ?_) ?_
    · exact ⟨fun h => hr.1 h.2.1, hr.2⟩
    rintro u ⟨hreproc, hu⟩
    rw [hu]
    refine (requestChannels_meets calls req s).seq (fun r hr => ?_) ?_
    · exact ⟨fun h => hr.1 ⟨h.2.2.1, h.2.2.2.1⟩, hr.2⟩
    rintro t ⟨hchannels, hmarks, hfilled⟩
    have hbatch : t.mBatchSize = s.mBatchSize := by rw [hmarks]
    have hlive : t.mPendingLiveRequest = s.mPendingLiveRequest := by rw [hmarks]
    have hqueue := queueSettings_meets calls req t
    rw [hfilled, hbatch, hlive] at hqueue
    refine hqueue.seq (fun r hr => ?_) ?_
    · exact ⟨fun h => hr.1 h.2.2.2.2, hr.2.1, hmarks.trans hr.2.2⟩
    · rintro u ⟨hentry, hu⟩
      exact ⟨⟨rfl, hreproc, hchannels.1, hchannels.2, hentry⟩, rfl, hu⟩

/-! ### The ends of a call -/

theorem ready_configures : Configures s.opened (ready calls req s) := by
  rw [ready, withSettings]
  split <;> rfl

theorem ready_untouched : Untouched s (ready calls req s) := by
  have hopened : Untouched s s.opened := by
    rw [opened]
    split <;> rfl
  refine hopened.trans ?_
  rw [ready, withSettings]
  split <;> rfl

theorem listing_untouched : Untouched (if Restarts calls req s then s.notifyErrorForPendingRequests else s)
      (listing calls req s) := by
  rw [listing]
  split
  · exact (ready_untouched calls req s).notifyError.trans rfl
  · exact ready_untouched calls req s

theorem listing_live : (listing calls req s).mPendingLiveRequest = s.opened.mPendingLiveRequest := by
  have h : (ready calls req s).mPendingLiveRequest = s.opened.mPendingLiveRequest := by
    rw [ready_configures]
  rw [listing]
  split
  · rw [reopened, notifyError_rest, ← h]
  · exact h

theorem listing_batchSize (hlive : req.inputBuffer = none) :
    (listing calls req s).mBatchSize = newBatchSize calls req s := by
  have h : (ready calls req s).mBatchSize = newBatchSize calls req s := by
    rw [ready, withSettings, if_pos hlive, opened_eq]
    rfl
  rw [listing]
  split
  · rw [reopened, notifyError_rest, ← h]
  · exact h

theorem listing_rest : (listing calls req s).mState = s.mState ∧ (listing calls req s).mFlush = s.mFlush ∧
    (listing calls req s).mToBeQueuedVidBufs = s.mToBeQueuedVidBufs ∧
    (listing calls req s).mPendingBatchMap = s.mPendingBatchMap := by
  rw [listing_untouched]
  split
  · rw [notifyError_rest]
    exact ⟨rfl, rfl, rfl, rfl⟩
  · exact ⟨rfl, rfl, rfl, rfl⟩

/-- The calls from the lists on succeed. -/
def Ending : Prop := Submits calls req (newBatchSize calls req s) s.mToBeQueuedVidBufs

/-- Where a call ends, and with what. -/
inductive Ends (calls : RequestCalls) (req : CaptureRequest) (s : HardwareInterface) :
    RequestExit × HardwareInterface → Prop
  | before {r : RequestExit × HardwareInterface} (h : LeftBefore calls req s r) :
      Ends calls req s r
  | flush {t : HardwareInterface} (h : Takes calls req s) (hflush : s.mFlush = true)
      (ht : Marks (insertRequest req (listing calls req s)) t) :
      Ends calls req s (.duringFlush, t)
  | late {e : RequestExit} {t : HardwareInterface} (h : Takes calls req s)
      (hflush : s.mFlush = false) (hnot : ¬ Ending calls req s) (he : Rejects e)
      (ht : Marks (insertRequest req (listing calls req s)) t) : Ends calls req s (e, t)
  | accepted {t : HardwareInterface} (h : Takes calls req s) (hflush : s.mFlush = false)
      (hend : Ending calls req s) (hstate : t.mState = .started)
      (hlive : t.mPendingLiveRequest =
        if req.inputBuffer = none then (s.opened.mPendingLiveRequest + 1) % 2 ^ 32
        else s.opened.mPendingLiveRequest)
      (ht : Submitted (insertRequest req (listing calls req s)) t) :
      Ends calls req s (.accepted, t)

/-- **The ends of a call**, each with its condition on the request, on the answers to its calls
and on the state before. -/
theorem processCaptureRequest_ends (hopen : s.Open) : Ends calls req s (processCaptureRequest calls req s) := by
  have hprep := prepareRequest_meets calls req s hopen
  cases hcase : prepareRequest calls req s with
  | error r =>
    rw [processCaptureRequest_of_error hcase]
    exact .before (hprep.error hcase)
  | ok t =>
    obtain ⟨htakes, rfl⟩ := hprep.ok hcase
    have hsub := submitRequest_meets calls req (insertRequest req (listing calls req s))
    have hsubmitted := submitted calls req (insertRequest req (listing calls req s))
    obtain ⟨-, hflush, hqueued, -⟩ := listing_rest calls req s
    have hends : Submits calls req (listing calls req s).mBatchSize
        (listing calls req s).mToBeQueuedVidBufs ↔ Ending calls req s := by
      rw [hqueued, Ending]
      by_cases hlive : req.inputBuffer = none
      · rw [listing_batchSize calls req s hlive]
      · simp only [Submits, hlive, false_implies]
    have hlisted : (insertRequest req (listing calls req s)).mPendingLiveRequest =
        s.opened.mPendingLiveRequest := listing_live calls req s
    change Meets (fun t => ((listing calls req s).mFlush = false ∧ Submits calls req (listing calls req s).mBatchSize
        (listing calls req s).mToBeQueuedVidBufs) ∧ _)
      (fun r => ¬ ((listing calls req s).mFlush = false ∧ Submits calls req (listing calls req s).mBatchSize
          (listing calls req s).mToBeQueuedVidBufs) ∧
        (if (listing calls req s).mFlush then _ else _) ∧ _) _ at hsub
    rw [hends, hflush, hlisted] at hsub
    obtain ⟨hok, herror⟩ := processCaptureRequest_of_ok hcase
    cases hcase' : submitRequest calls req (insertRequest req (listing calls req s)) with
    | ok u =>
      rw [hok u hcase']
      obtain ⟨⟨hnot, hend⟩, hstate, hlive⟩ := hsub.ok hcase'
      exact .accepted htakes hnot hend hstate hlive (hsubmitted.ok hcase')
    | error r =>
      rw [herror r hcase']
      obtain ⟨e, u⟩ := r
      obtain ⟨hnot, he, hu⟩ := hsub.error hcase'
      cases hf : s.mFlush with
      | true =>
        rw [hf, if_pos rfl] at he
        obtain rfl : e = _ := he
        exact .flush htakes hf hu
      | false =>
        rw [hf, if_neg Bool.false_ne_true] at he
        exact .late htakes hf (fun h => hnot ⟨hf, h⟩) he hu

theorem processCaptureRequest_closed (h : ¬ s.Open) : processCaptureRequest calls req s =
      if s.mState = .error then
        (.rejected .deviceError, s.handleCameraDeviceError calls.deviceFlush)
      else (.rejected .badState, s) := by
  simp only [Open, not_or] at h
  rw [processCaptureRequest, prepareRequest, checkState]
  cases hstate : s.mState with
  | configured => exact absurd hstate h.1
  | started => exact absurd hstate h.2
  | _ => rfl

end HardwareInterface

end Marlin
