import Marlin.ChannelThread
import Marlin.Transition

/-!
# The Pictures of a Burst

A request tells the command thread of a channel how many super-buffers to dispatch
(`pending_cnt`), and how many of them come from before the request (`pending_retro_cnt`). After
the last one of these it waits for the metadata that reports the prepare snapshot done.

The counters are set by a request and moved by the dispatch loop alone; the metadata handler and
the branches that start or stop a ZSL snapshot only end the wait. A request for more retro
buffers than buffers is cut down, so that the counters go down side by side.

## Conventions

* A dispatch is a call of `mm_channel_send_super_buf`: a plain request dispatches a super-buffer
  of the channel, and a frame-sync request one of each registered camera.
* A run is one of the command thread, from its start with the channel on. What a channel that is
  started again has left pending counts as requested before it.
* `tried` are the dequeues of the dispatch loops since the last request, with the notify mode and
  the nodes that were found; by `dispatchBody_eq` those that found some are the dispatches.
* `others` is what other threads do, which leave the counters alone.

## Main results

* `loop_counts`, `loop_returns`: what a dispatch loop does to the counters, and that it ends.
* `Kept.handleCmd`: what the commands do to them.
* `Balance.dispatched`, `Inv.step`: what a request leaves to dispatch, loop by loop.
* `burst_counts`: how many super-buffers a request dispatches, and how many before the wait.
-/

namespace Marlin

open List Transition

namespace MmChannel

/-- The counters are the same, and so is the wait unless it was ended. -/
structure Kept (woken : Prop) (ch ch' : MmChannel) : Prop where
  pending : ch'.pendingCnt = ch.pendingCnt
  retro : ch'.pendingRetroCnt = ch.pendingRetroCnt
  wait : ¬ woken → ch'.bWaitForPrepSnapshotDone = ch.bWaitForPrepSnapshotDone

variable {woken : Prop} {ch ch' ch'' : MmChannel}

theorem Kept.refl (ch : MmChannel) : Kept woken ch ch := ⟨rfl, rfl, fun _ => rfl⟩

theorem Kept.trans (h₁ : Kept woken ch ch') (h₂ : Kept woken ch' ch'') : Kept woken ch ch'' :=
  ⟨h₂.pending.trans h₁.pending, h₂.retro.trans h₁.retro, fun h => (h₂.wait h).trans (h₁.wait h)⟩

theorem Kept.mono {woken' : Prop} (h : Kept woken ch ch') (hw : woken → woken') :
    Kept woken' ch ch' := ⟨h.pending, h.retro, fun hno => h.wait fun hyes => hno (hw hyes)⟩

theorem Kept.same (hpending : ch'.pendingCnt = ch.pendingCnt) (hretro : ch'.pendingRetroCnt = ch.pendingRetroCnt)
    (hwait : ch'.bWaitForPrepSnapshotDone = ch.bWaitForPrepSnapshotDone) : Kept woken ch ch' :=
  ⟨hpending, hretro, fun _ => hwait⟩

theorem Kept.after (h : Kept woken ch' ch'') (hpending : ch'.pendingCnt = ch.pendingCnt)
    (hretro : ch'.pendingRetroCnt = ch.pendingRetroCnt)
    (hwait : ch'.bWaitForPrepSnapshotDone = ch.bWaitForPrepSnapshotDone) : Kept woken ch ch'' :=
  (Kept.same hpending hretro hwait).trans h

theorem respected_kept : Respected (Kept woken) where
  refl := .refl
  trans _ _ _ h₁ h₂ := h₁.trans h₂
  qbufs _ _ := .same rfl rfl rfl
  dequeue ch n rest _ := by
    simp only [afterDequeue, call]
    split_ifs <;> exact .same rfl rfl rfl

/-! ### The metadata handler -/

theorem kept_noteDivertInfo (ch : MmChannel) (frameIdx : ℕ) (divertInfo : Option ℕ) :
    Kept woken ch (ch.noteDivertInfo frameIdx divertInfo) := by
  cases divertInfo with
  | none => exact .refl ch
  | some _ => exact .same rfl rfl rfl

theorem kept_zoom1xFrame (ch : MmChannel) (frameIdx : ℕ) (found : Bool) :
    Kept woken ch (ch.zoom1xFrame frameIdx found) := by
  rw [zoom1xFrame]
  split
  · exact .same rfl rfl rfl
  · have hflush : Kept woken _ _ := respected_kept.flushMatched { ch with
      queue.expectedFrameId := addU32 ch.queue.expectedFrameId mmCameraMaxFutureFrameWait }
    exact ⟨hflush.pending, hflush.retro, hflush.wait⟩

theorem kept_prepSnapshotDone (ch : MmChannel) {state : Option ℤ} (h : state.isSome → woken) :
    Kept woken ch (ch.prepSnapshotDone state) := by
  unfold prepSnapshotDone
  split
  · exact .refl ch
  · split
    · have hflush : Kept woken _ _ := respected_kept.flush { ch with
        bWaitForPrepSnapshotDone := false
        queue.expectedFrameId :=
          addU32 ch.queue.expectedFrameId mmCameraMaxFutureFrameWait } .default
      exact ⟨hflush.pending, hflush.retro, fun hno => absurd (h rfl) hno⟩
    · exact ⟨rfl, rfl, fun hno => absurd (h rfl) hno⟩

theorem kept_goodFrameRange (ch : MmChannel) (range : Option CamFrameIdxRange) (prep : Bool) :
    Kept woken ch (ch.goodFrameRange range prep) := by
  unfold goodFrameRange
  split
  · simp only
    split <;> exact .same rfl rfl rfl
  · split
    · have hflush : Kept woken _ _ := respected_kept.flushMatched ch
      exact ⟨hflush.pending, hflush.retro, hflush.wait⟩
    · exact .refl ch

theorem kept_goodFrameBracketing (ch : MmChannel) (range : Option CamFrameIdxRange) :
    Kept woken ch (ch.goodFrameBracketing range) := by
  unfold goodFrameBracketing
  split
  · exact .refl ch
  · split <;> exact .same rfl rfl rfl

theorem kept_frameConfigId (ch : MmChannel) (range : Option CamFrameIdxRange) :
    Kept woken ch (ch.frameConfigId range) := by
  unfold frameConfigId
  split
  · exact .refl ch
  · split
    · simp only
      split <;> exact .same rfl rfl rfl
    · exact .refl ch

theorem kept_ledOffFrame (ch : MmChannel) (frameIdx : ℕ) : Kept woken ch (ch.ledOffFrame frameIdx) := by
  rw [ledOffFrame]
  split <;> exact .same rfl rfl rfl

theorem kept_lowLightLevel (ch : MmChannel) (level : Option ℕ) : Kept woken ch (ch.lowLightLevel level) := by
  cases level with
  | none => exact .refl ch
  | some _ => exact .same rfl rfl rfl

theorem kept_userExpectedFrame (ch : MmChannel) (frameIdx : ℕ) (aecSettled : Option Bool) :
    Kept woken ch (ch.userExpectedFrame frameIdx aecSettled) := by
  rw [userExpectedFrame]
  split_ifs <;> exact .same rfl rfl rfl

theorem kept_applyMetadata (ch : MmChannel) (frameIdx : ℕ) {metadata : MetadataBuffer}
    (h : metadata.prepSnapshotDone.isSome → woken) :
    Kept woken ch (ch.applyMetadata frameIdx metadata) := by
  simp only [applyMetadata]
  refine (kept_noteDivertInfo ch frameIdx metadata.bufDivertInfo).trans ?_
  split
  · exact kept_zoom1xFrame _ _ _
  · exact (kept_prepSnapshotDone _ h).trans <| (kept_goodFrameRange _ _ _).trans <|
      (kept_goodFrameBracketing _ _).trans <| (kept_frameConfigId _ _).trans <|
      (kept_ledOffFrame _ _).trans <| (kept_lowLightLevel _ _).trans <|
      kept_userExpectedFrame _ _ _

/-- The metadata of a buffer reports the prepare snapshot done. -/
def reportsPrepDone (b : MmCameraBufInfo) : Bool := b.buf.buffer.any (·.prepSnapshotDone.isSome)

theorem kept_handleMetadata (ch : MmChannel) {b : MmCameraBufInfo}
    (h : reportsPrepDone b = true → woken) : Kept woken ch (ch.handleMetadata b).2 := by
  rw [handleMetadata]
  split
  · exact .refl ch
  · split
    · exact .refl ch
    · split
      · split
        · exact .refl ch
        · rename_i m hm
          refine kept_applyMetadata ch b.frameIdx fun hdone => h ?_
          rw [reportsPrepDone, hm]
          exact hdone
      · exact .refl ch

/-! ### A buffer is enqueued -/

theorem kept_countMatch (ch : MmChannel) (frameIdx : ℕ) : Kept woken ch (ch.countMatch frameIdx) := by
  simp only [countMatch]
  split <;> exact .same rfl rfl rfl

theorem kept_releaseOlder (ch : MmChannel) (lastBuf : Option ℕ) (pos : ℕ) :
    Kept woken ch (ch.releaseOlder lastBuf pos) := by
  cases lastBuf with
  | none => exact .refl ch
  | some _ => exact .same rfl rfl rfl

theorem kept_expectNext (ch : MmChannel) (frameIdx : ℕ) : Kept woken ch (ch.expectNext frameIdx) := by
  rw [expectNext]
  split <;> exact .same rfl rfl rfl

theorem kept_completeNode (ch : MmChannel) (s : SuperbufScan) (frameIdx : ℕ)
    (superBuf : MmChannelQueueNode) : Kept woken ch (ch.completeNode s frameIdx superBuf) :=
  (kept_expectNext ch frameIdx).trans <| ((kept_countMatch _ _).trans (kept_releaseOlder _ _ _)).after rfl rfl rfl

theorem kept_joinNode (ch : MmChannel) (bufSIdx : ℕ) (b : MmCameraBufInfo) (s : SuperbufScan)
    (superBuf : MmChannelQueueNode) : Kept woken ch (ch.joinNode bufSIdx b s superBuf) := by
  simp only [joinNode]
  split
  · exact .same rfl rfl rfl
  · split
    · exact kept_completeNode _ _ _ _
    · rw [keepNode]
      split <;> exact .same rfl rfl rfl

theorem kept_makeRoom (ch : MmChannel) (s : SuperbufScan) : Kept woken ch (ch.makeRoom s) := by
  rw [makeRoom]
  split <;> exact .same rfl rfl rfl

theorem kept_linkNode (ch : MmChannel) (bufSIdx : ℕ) (b : MmCameraBufInfo) (i : ℕ) :
    Kept woken ch (ch.linkNode bufSIdx b i) := by
  simp only [linkNode]
  split
  · exact (kept_countMatch _ _).after rfl rfl rfl
  · exact .same rfl rfl rfl

theorem kept_insertNew (ch : MmChannel) (bufSIdx : ℕ) (b : MmCameraBufInfo) (s : SuperbufScan) :
    Kept woken ch (ch.insertNew bufSIdx b s) := by
  simp only [insertNew]
  split
  · exact .same rfl rfl rfl
  · refine (kept_makeRoom ch s).trans ?_
    split
    · exact (kept_linkNode _ _ _ _).after rfl rfl rfl
    · exact .same rfl rfl rfl

theorem kept_compAndEnqueue (ch : MmChannel) {b : MmCameraBufInfo}
    (h : reportsPrepDone b = true → woken) : Kept woken ch (ch.superbufCompAndEnqueue b).2 := by
  have hmeta := kept_handleMetadata ch h
  rw [superbufCompAndEnqueue]
  split
  · exact .refl ch
  · split
    · exact .same rfl rfl rfl
    · simp only
      split
      · exact hmeta.trans (.same rfl rfl rfl)
      · split
        · exact hmeta.trans (.same rfl rfl rfl)
        · refine hmeta.trans ?_
          rw [superbufComp]
          simp only
          split
          · exact kept_joinNode _ _ _ _ _
          · exact kept_insertNew _ _ _ _

/-! ### The commands -/

theorem kept_generalCmd (ch : MmChannel) (cmd : MmCameraGenericCmd) : Kept woken ch (ch.generalCmd cmd) := by
  have hflush : Kept woken ch (ch.superbufFlush .default) := respected_kept.flush ch .default
  unfold generalCmd
  split
  · exact ⟨hflush.pending, hflush.retro, hflush.wait⟩
  · exact ⟨hflush.pending, hflush.retro, hflush.wait⟩
  · exact ⟨hflush.pending, hflush.retro, hflush.wait⟩
  · exact ⟨hflush.pending, hflush.retro, hflush.wait⟩
  · exact .same rfl rfl rfl
  · exact .refl ch

/-- **The commands** other than a request keep the counters. -/
theorem Kept.handleCmd {fuel : ℕ} {cmd : MmCameraCmdcb} (hreq : ∀ req, cmd ≠ .reqDataCb req)
    (hwoken : ∀ b, cmd = .dataCb b → reportsPrepDone b = true → woken)
    (h : ch.handleCmd fuel cmd = some ch') : Kept woken ch ch' := by
  cases cmd with
  | dataCb buf =>
    cases h
    exact kept_compAndEnqueue ch (hwoken buf rfl)
  | reqDataCb req => exact absurd rfl (hreq req)
  | flushQueue idx streamType =>
    cases h
    have hflush : Kept woken _ _ :=
      respected_kept.flush { ch with queue.expectedFrameId := idx } streamType
    exact ⟨hflush.pending, hflush.retro, hflush.wait⟩
  | general genCmd =>
    cases h
    exact kept_generalCmd ch genCmd
  | startZsl | stopZsl | configNotify _ | other =>
    cases h
    exact .same rfl rfl rfl

theorem handleCmd_request {fuel : ℕ} {req : MmCameraReqBuf} (h : ch.handleCmd fuel (.reqDataCb req) = some ch') :
    ch'.pendingCnt = req.numBufRequested ∧ ch'.pendingRetroCnt = min req.numBufRequested req.numRetroBufRequested ∧
      ch'.bWaitForPrepSnapshotDone = false := by
  have hskip : Kept False (ch.requestBuf req) ch' := respected_kept.skip h
  refine ⟨hskip.pending, hskip.retro.trans ?_, hskip.wait id⟩
  simp only [requestBuf]
  split <;> omega

/-- One of the branches that start or stop a ZSL snapshot is taken. -/
def triggersZsl (ch : MmChannel) : Bool :=
  (ch.isConfigCapture && ch.needStartZSL) ||
    (decide (0 < ch.pendingCnt) && (ch.needLEDFlash || ch.bracketingState != .off) &&
      !ch.manualZSLSnapshot && !ch.startZSlSnapshotCalled) ||
    ((ch.pendingCnt == 0 || ch.stopZslSnapshot) && !ch.manualZSLSnapshot && ch.startZSlSnapshotCalled)

theorem kept_triggerZsl (ch : MmChannel) (h : ch.triggersZsl = true → woken) : Kept woken ch ch.triggerZsl := by
  rw [triggerZsl]
  rw [triggersZsl] at h
  split
  · rename_i hstart
    have hflush : Kept woken _ _ := respected_kept.flush ch.deferCapture .default
    exact ⟨hflush.pending, hflush.retro, fun hno => absurd (h (by simp [hstart])) hno⟩
  · split
    · rename_i hflash
      exact ⟨rfl, rfl, fun hno => absurd (h (by simp [hflash])) hno⟩
    · split
      · rename_i hstop
        exact ⟨rfl, rfl, fun hno => absurd (h (by simp [hstop])) hno⟩
      · exact .refl ch

theorem triggerZsl_wait (h : ch.bWaitForPrepSnapshotDone = false) : ch.triggerZsl.bWaitForPrepSnapshotDone = false := by
  rw [triggerZsl]
  split
  · rfl
  · split
    · rfl
    · split
      · rfl
      · exact h

end MmChannel

namespace ChannelThread

open MmChannel

variable {woken : Prop} {t t' : ChannelThread}

/-! ### The dispatch loop -/

theorem kept_dequeueFrameInternal (ch : MmChannel) (frameIdx : ℕ) :
    Kept woken ch (ch.superbufDequeueFrameInternal frameIdx).2 := by
  rw [superbufDequeueFrameInternal]
  split <;> exact .same rfl rfl rfl

theorem kept_takeNodes (t : ChannelThread) : Kept woken t.ch t.takeNodes.2.ch := by
  rw [takeNodes]
  split
  · exact takeMatchedFrame_respects respected_kept kept_dequeueFrameInternal t
  · have htake : Kept woken t.ch t.ch.takeNode.2 := by
      have hdeq : Kept woken t.ch (t.ch.superbufDequeueInternal true).2 :=
        respected_kept.dequeueInternal t.ch true
      rw [takeNode, superbufDequeue]
      split
      · rename_i ch heq
        rw [heq] at hdeq
        exact hdeq
      · rename_i n ch heq
        rw [heq] at hdeq
        refine hdeq.trans ?_
        rw [checkExpected]
        split
        · split <;> exact .same rfl rfl rfl
        · exact .refl ch
    split
    · rename_i ch heq
      rw [heq] at htake
      exact htake
    · rename_i n ch heq
      rw [heq] at htake
      exact htake

theorem kept_sendSuperBuf (ch : MmChannel) (n : MmChannelQueueNode) : Kept woken ch (ch.sendSuperBuf n) := by
  rw [sendSuperBuf]
  split
  · split <;> exact .same rfl rfl rfl
  · exact .same rfl rfl rfl

theorem kept_stopZslWhenDone (ch : MmChannel) : Kept woken ch ch.stopZslWhenDone := by
  rw [stopZslWhenDone]
  split
  · exact .same rfl rfl rfl
  · exact .refl ch

theorem kept_countBatchFrame (ch : MmChannel) : Kept woken ch ch.countBatchFrame :=
  .same rfl rfl rfl

theorem kept_nextBatch (ch : MmChannel) : Kept woken ch ch.nextBatch := by
  rw [nextBatch]
  split
  · generalize ch.nextCaptureIdx = idx
    exact .same rfl rfl rfl
  · exact .refl ch

theorem kept_countBurstFrame (ch : MmChannel) : Kept woken ch.countPending ch.countBurstFrame := by
  rw [countBurstFrame]
  generalize ch.countPending = u
  split
  · exact (kept_stopZslWhenDone u).trans ((kept_countBatchFrame _).trans (kept_nextBatch _))
  · exact kept_stopZslWhenDone u

/-- The loop goes on. -/
def MayDispatch (notifyMode : NotifyMode) (t : ChannelThread) : Prop :=
  (0 < t.ch.pendingCnt ∨ notifyMode = .continuous) ∧ t.ch.bWaitForPrepSnapshotDone = false
deriving Decidable

theorem stop_of_not_mayDispatch {notifyMode : NotifyMode} (h : ¬ MayDispatch notifyMode t) :
    t.ch.pendingCnt = 0 ∨ t.ch.bWaitForPrepSnapshotDone = true := by
  by_cases hpending : t.ch.pendingCnt = 0
  · exact .inl hpending
  · refine .inr ?_
    by_contra hwait
    exact h ⟨.inl (by omega), by simpa using hwait⟩

/-- A round of the loop: it is over, or nothing was found, or what was found is counted in burst
mode and dispatched. -/
theorem dispatchBody_eq (notifyMode : NotifyMode) (t : ChannelThread) : dispatchBody notifyMode t =
      if MayDispatch notifyMode t then
        if t.takeNodes.1 = [] then .done t.takeNodes.2
        else .yield ((if notifyMode = .burst then
            { t.takeNodes.2 with ch := t.takeNodes.2.ch.countBurstFrame } else t.takeNodes.2
          ).sendSuperBufs t.takeNodes.1)
      else .done t := by
  have hbody := dispatchBody.eq_1 notifyMode t
  change _ = if MayDispatch notifyMode t then _ else _ at hbody
  rw [hbody]
  by_cases hmay : MayDispatch notifyMode t
  · rw [if_pos hmay, if_pos hmay]
    cases htake : t.takeNodes with
    | mk nodes u =>
      cases nodes with
      | nil => rfl
      | cons node nodes => rfl
  · rw [if_neg hmay, if_neg hmay]

theorem dispatchBody_yield (h : dispatchBody .burst t = .yield t') :
    0 < t.ch.pendingCnt ∧ Kept False t.ch.countPending t'.ch := by
  rw [dispatchBody_eq] at h
  split at h
  · rename_i hmay
    split at h
    · cases h
    · have hkept : Kept False t.ch t.takeNodes.2.ch := kept_takeNodes t
      have hresp : Respected (Kept False) := respected_kept
      have hsent := sendSuperBufs_respects hresp kept_sendSuperBuf
        { t.takeNodes.2 with ch := t.takeNodes.2.ch.countBurstFrame } t.takeNodes.1
      rw [if_pos rfl] at h
      obtain rfl := ForInStep.yield.inj h
      refine ⟨hmay.1.resolve_right nofun, Kept.trans ⟨?_, ?_, fun _ => ?_⟩ ((kept_countBurstFrame _).trans hsent)⟩
      · exact congrArg (subU32 · 1) hkept.pending
      · exact congrArg (fun r => if 0 < r then r - 1 else r) hkept.retro
      · rw [countPending, countPending, hkept.retro, hkept.wait id]
  · cases h

/-- The dequeues of the loop, each with the nodes that were found. -/
def takes (notifyMode : NotifyMode) : ℕ → ChannelThread → List (List (ℕ × MmChannelQueueNode))
  | 0, _ => []
  | n + 1, t =>
    if MayDispatch notifyMode t then
      t.takeNodes.1 :: match dispatchBody notifyMode t with
        | .done _ => []
        | .yield t => takes notifyMode n t
    else []

/-- The dequeues that found a super-buffer. -/
def found (tries : List (List (ℕ × MmChannelQueueNode))) : List (List (ℕ × MmChannelQueueNode)) :=
  tries.filter fun nodes => !nodes.isEmpty

/-- What a dispatch loop in burst mode does with the counters, and why it is left. -/
structure Counted (ch ch' : MmChannel) (tries : List (List (ℕ × MmChannelQueueNode))) : Prop where
  pending : ch'.pendingCnt + (found tries).length = ch.pendingCnt
  retro : ch'.pendingRetroCnt = ch.pendingRetroCnt - (found tries).length
  wait : ch'.bWaitForPrepSnapshotDone = true ↔ ch.bWaitForPrepSnapshotDone = true ∨
    0 < ch.pendingRetroCnt ∧ ch.pendingRetroCnt ≤ (found tries).length
  first : 0 < ch.pendingRetroCnt → (found tries).length ≤ ch.pendingRetroCnt
  waiting : ch.bWaitForPrepSnapshotDone = true → found tries = []
  stop : ch'.pendingCnt = 0 ∨ ch'.bWaitForPrepSnapshotDone = true ∨ tries.getLast? = some []

theorem Counted.none {ch ch' : MmChannel} {tries : List (List (ℕ × MmChannelQueueNode))}
    (h : Kept False ch ch') (hnone : found tries = [])
    (hstop : ch.pendingCnt = 0 ∨ ch.bWaitForPrepSnapshotDone = true ∨ tries.getLast? = some []) :
    Counted ch ch' tries := by
  have hwait := h.wait id
  constructor
  · rw [hnone, h.pending]
    rfl
  · rw [hnone, h.retro]
    rfl
  · rw [hnone, hwait, length_nil]
    exact ⟨.inl, fun h => h.resolve_right (by omega)⟩
  · rw [hnone, length_nil]
    omega
  · exact fun _ => hnone
  · rw [h.pending, hwait]
    exact hstop

theorem Counted.cons {ch ch' : MmChannel} {tries : List (List (ℕ × MmChannelQueueNode))}
    {nodes : List (ℕ × MmChannelQueueNode)} (hnodes : nodes ≠ []) (hpending : 0 < ch.pendingCnt)
    (hwait : ch.bWaitForPrepSnapshotDone = false) {u : MmChannel} (hu : Kept False ch.countPending u)
    (h : Counted u ch' tries) : Counted ch ch' (nodes :: tries) := by
  have hfound : found (nodes :: tries) = nodes :: found tries := by
    rw [found, filter_cons_of_pos (by simpa using hnodes)]
    rfl
  have hup : u.pendingCnt = ch.pendingCnt - 1 := hu.pending.trans (if_pos hpending)
  have hur : u.pendingRetroCnt = ch.pendingRetroCnt - 1 := by
    rw [hu.retro, countPending]
    dsimp only
    split <;> omega
  have huw : u.bWaitForPrepSnapshotDone = true ↔ ch.pendingRetroCnt = 1 := by
    rw [hu.wait id, countPending]
    simp [hwait]
  obtain ⟨hp, hr, hw, hfirst, hwaiting, hstop⟩ := h
  constructor
  · rw [hfound, length_cons]
    omega
  · rw [hfound, length_cons]
    omega
  · rw [hfound, length_cons, hw, huw, hwait, hur]
    simp only [Bool.false_eq_true, false_or]
    omega
  · rw [hfound, length_cons]
    intro hpos
    by_cases hone : ch.pendingRetroCnt = 1
    · rw [hwaiting (huw.mpr hone), length_nil]
      omega
    · have := hfirst (by omega)
      omega
  · intro h
    rw [hwait] at h
    cases h
  · refine hstop.imp_right (Or.imp_right fun hlast => ?_)
    rw [getLast?_cons, hlast]
    rfl

theorem Counted.retro_add {ch ch' : MmChannel} {tries : List (List (ℕ × MmChannelQueueNode))}
    (h : Counted ch ch' tries) (hwait : ch.bWaitForPrepSnapshotDone = true ↔ ch.pendingRetroCnt = 0) :
    ch'.pendingRetroCnt + (found tries).length = ch.pendingRetroCnt ∧
      (ch'.bWaitForPrepSnapshotDone = true ↔ ch'.pendingRetroCnt = 0) := by
  have hretro := h.retro
  by_cases hzero : ch.pendingRetroCnt = 0
  · have hnone := h.waiting (hwait.mpr hzero)
    rw [hnone, length_nil] at hretro
    rw [hnone, length_nil, h.wait, hwait]
    exact ⟨by omega, by omega⟩
  · have hfirst := h.first (by omega)
    rw [h.wait, hwait]
    exact ⟨by omega, by omega⟩

/-- **The dispatch loop in burst mode.** -/
theorem loop_counts {n : ℕ} (h : Loop.run (dispatchBody .burst) n t = some t') :
    Counted t.ch t'.ch (takes .burst n t) := by
  induction n generalizing t with
  | zero => cases h
  | succ n ih =>
    have hbody := dispatchBody_eq .burst t
    rw [takes]
    by_cases hmay : MayDispatch .burst t
    · rw [if_pos hmay] at hbody ⊢
      have hkept : Kept False t.ch t.takeNodes.2.ch := kept_takeNodes t
      by_cases hnone : t.takeNodes.1 = []
      · rw [if_pos hnone] at hbody
        rw [Loop.run_succ_done hbody] at h
        cases h
        rw [hbody, hnone]
        exact .none hkept rfl (.inr (.inr rfl))
      · rw [if_neg hnone, if_pos rfl] at hbody
        rw [Loop.run_succ_yield hbody] at h
        rw [hbody]
        exact .cons hnone (hmay.1.resolve_right nofun) hmay.2 (dispatchBody_yield hbody).2 (ih h)
    · rw [if_neg hmay] at hbody ⊢
      rw [Loop.run_succ_done hbody] at h
      cases h
      exact .none (.refl _) rfl ((stop_of_not_mayDispatch hmay).imp_right .inl)

theorem loop_keeps {notifyMode : NotifyMode} (hmode : notifyMode ≠ .burst) {n : ℕ}
    (h : Loop.run (dispatchBody notifyMode) n t = some t') : Kept False t.ch t'.ch := by
  refine Loop.run_relates (R := fun t t' : ChannelThread => Kept False t.ch t'.ch)
    (fun t => .refl t.ch) (fun _ _ _ h₁ h₂ => h₁.trans h₂) (fun u v hround => ?_) h
  have hbody := dispatchBody_eq notifyMode u
  have hkept : Kept False u.ch u.takeNodes.2.ch := kept_takeNodes u
  rw [hbody, if_neg hmode] at hround
  split at hround
  · split at hround
    · obtain rfl : u.takeNodes.2 = v := by simpa using hround
      exact hkept
    · obtain rfl : u.takeNodes.2.sendSuperBufs u.takeNodes.1 = v := by simpa using hround
      exact hkept.trans (sendSuperBufs_respects respected_kept kept_sendSuperBuf _ _)
  · obtain rfl : u = v := by simpa using hround
    exact .refl _

/-- The loop in burst mode is left. -/
theorem loop_returns (t : ChannelThread) : ∃ t', Loop.run (dispatchBody .burst) (t.ch.pendingCnt + 1) t = some t' := by
  refine Loop.returns_of_variant (I := fun _ => True) (fun t : ChannelThread => t.ch.pendingCnt)
    (fun u v _ hround => ⟨trivial, ?_⟩) trivial
  obtain ⟨hpending, hkept⟩ := dispatchBody_yield hround
  rw [hkept.pending, countPending]
  dsimp only [subU32]
  split <;> omega

/-! ### One command -/

/-- The dequeues, each with the notify mode of its loop. -/
abbrev Tries := List (NotifyMode × List (ℕ × MmChannelQueueNode))

/-- The super-buffers that were dispatched. -/
def sent (tried : Tries) : Tries := tried.filter fun p => !p.2.isEmpty

/-- Those of them that were dispatched in burst mode. -/
def counted (tried : Tries) : Tries := tried.filter fun p => p.1 == .burst && !p.2.isEmpty

/-- All loops ran in burst mode. -/
def AllBurst (tried : Tries) : Prop := ∀ p ∈ tried, p.1 = .burst

theorem sent_append (l m : Tries) : sent (l ++ m) = sent l ++ sent m := filter_append l m

theorem counted_append (l m : Tries) : counted (l ++ m) = counted l ++ counted m :=
  filter_append l m

theorem AllBurst.counted_eq {tried : Tries} (h : AllBurst tried) : counted tried = sent tried :=
  filter_congr fun p hp => by simp [h p hp]

theorem allBurst_append {l m : Tries} : AllBurst (l ++ m) ↔ AllBurst l ∧ AllBurst m :=
  forall_mem_append

theorem sent_map (notifyMode : NotifyMode) (tries : List (List (ℕ × MmChannelQueueNode))) :
    sent (tries.map (notifyMode, ·)) = (found tries).map (notifyMode, ·) :=
  filter_map

theorem found_map_snd (tried : Tries) : found (tried.map Prod.snd) = (sent tried).map Prod.snd :=
  filter_map

/-- What the dispatch loop of a command does with the counters. -/
structure Dispatched (ch ch' : MmChannel) (tried : Tries) : Prop where
  pending : ch'.pendingCnt + (counted tried).length = ch.pendingCnt
  retro : ch'.pendingRetroCnt = ch.pendingRetroCnt - (counted tried).length
  burst : AllBurst tried → Counted ch ch' (tried.map Prod.snd)

theorem loop_dispatched {notifyMode : NotifyMode} {n : ℕ} (h : Loop.run (dispatchBody notifyMode) n t = some t') :
    Dispatched t.ch t'.ch ((takes notifyMode n t).map (notifyMode, ·)) := by
  have hsnd : ((takes notifyMode n t).map (notifyMode, ·)).map Prod.snd = takes notifyMode n t := by
    rw [map_map]
    exact map_id _
  by_cases hmode : notifyMode = .burst
  · subst hmode
    have hcounted := loop_counts h
    have hlen : (counted ((takes .burst n t).map (NotifyMode.burst, ·))).length =
        (found (takes .burst n t)).length := by
      have hburst : AllBurst ((takes .burst n t).map (NotifyMode.burst, ·)) := by simp [AllBurst]
      rw [hburst.counted_eq, sent_map, length_map]
    refine ⟨hlen ▸ hcounted.pending, hlen ▸ hcounted.retro, fun _ => ?_⟩
    rw [hsnd]
    exact hcounted
  · have hkept := loop_keeps hmode h
    have hnone : counted ((takes notifyMode n t).map (notifyMode, ·)) = [] := by
      simp [counted, hmode]
    refine ⟨by rw [hnone, hkept.pending]; rfl, by rw [hnone, hkept.retro]; rfl, fun hburst => ?_⟩
    have hempty : takes notifyMode n t = [] := by
      cases htakes : takes notifyMode n t with
      | nil => rfl
      | cons nodes rest =>
        rw [htakes] at hburst
        exact absurd (hburst _ mem_cons_self) hmode
    rw [hsnd, hempty]
    refine .none hkept rfl ?_
    cases n with
    | zero => cases h
    | succ n =>
      rw [takes] at hempty
      split at hempty
      · cases hempty
      · rename_i hmay
        exact (stop_of_not_mayDispatch hmay).imp_right .inl

/-- The dequeues of a command. -/
def tries (fuel : ℕ) (t : ChannelThread) (cmd : MmCameraCmdcb) : Tries :=
  match t.ch.handleCmd fuel cmd with
  | none => []
  | some ch =>
    match cmd with
    | .flushQueue _ _ => []
    | _ =>
      match ch.triggerZsl.superbufBufdoneOverflow fuel with
      | none => []
      | some ch' => (takes ch.queue.attr.notifyMode fuel (t.update ch')).map
          (ch.queue.attr.notifyMode, ·)

/-- A command reports the prepare snapshot done, or starts or stops a ZSL snapshot. -/
def wakes (fuel : ℕ) (t : ChannelThread) (cmd : MmCameraCmdcb) : Bool :=
  match cmd with
  | .dataCb b => reportsPrepDone b || (t.ch.handleCmd fuel cmd).any triggersZsl
  | .flushQueue _ _ => false
  | _ => (t.ch.handleCmd fuel cmd).any triggersZsl

/-- **A command** is handled, and its loop dispatches, unless it flushes the queue. -/
theorem processStreamBuf_cases {fuel : ℕ} {cmd : MmCameraCmdcb} (h : t.processStreamBuf fuel cmd = some t') :
    ∃ ch, t.ch.handleCmd fuel cmd = some ch ∧
      ((∃ frameIdx streamType, cmd = .flushQueue frameIdx streamType ∧ t'.ch = ch ∧ t.tries fuel cmd = []) ∨
        ∃ u : MmChannel, Kept (t.wakes fuel cmd = true) ch u ∧
          (ch.bWaitForPrepSnapshotDone = false → u.bWaitForPrepSnapshotDone = false) ∧
          Dispatched u t'.ch (t.tries fuel cmd)) := by
  rw [processStreamBuf] at h
  cases hcmd : t.ch.handleCmd fuel cmd with
  | none =>
    rw [hcmd] at h
    cases h
  | some ch =>
    refine ⟨ch, rfl, ?_⟩
    rw [hcmd] at h
    dsimp only at h
    split at h
    · rename_i frameIdx streamType
      cases h
      refine .inl ⟨frameIdx, streamType, rfl, rfl, ?_⟩
      rw [tries, hcmd]
    · rename_i hflush
      cases hover : ch.triggerZsl.superbufBufdoneOverflow fuel with
      | none =>
        rw [hover] at h
        cases h
      | some u =>
        rw [hover] at h
        have hwakes : ch.triggersZsl = true → t.wakes fuel cmd = true := by
          intro htrig
          unfold wakes
          split
          · simp [hcmd, htrig]
          · exact absurd rfl (hflush _ _)
          · simp [hcmd, htrig]
        have htries : t.tries fuel cmd = (takes ch.queue.attr.notifyMode fuel (t.update u)).map
            (ch.queue.attr.notifyMode, ·) := by
          rw [tries, hcmd]
          dsimp only
          split
          · exact absurd rfl (hflush _ _)
          · rw [hover]
        have hover : Kept False ch.triggerZsl u := respected_kept.bufdoneOverflow hover
        refine .inr ⟨u, (kept_triggerZsl ch hwakes).trans ?_, fun hwait => ?_, ?_⟩
        · exact .same hover.pending hover.retro (hover.wait id)
        · exact (hover.wait id).trans (triggerZsl_wait hwait)
        · rw [htries]
          exact loop_dispatched h

/-- What a request left to dispatch. -/
structure Balance (ch : MmChannel) (n r : ℕ) (woken : Bool) (tried : Tries) : Prop where
  pending : ch.pendingCnt + (counted tried).length = n
  le : ch.pendingRetroCnt ≤ ch.pendingCnt
  retro : AllBurst tried → 0 < min n r → woken = false → ch.pendingRetroCnt + (sent tried).length = min n r
  wait : AllBurst tried → 0 < min n r → woken = false → (ch.bWaitForPrepSnapshotDone = true ↔ ch.pendingRetroCnt = 0)

variable {ch ch' : MmChannel} {n r : ℕ} {w : Bool} {tried : Tries}

/-- A request was made. -/
theorem Balance.request (hpending : ch.pendingCnt = n) (hretro : ch.pendingRetroCnt = min n r)
    (hwait : ch.bWaitForPrepSnapshotDone = false) : Balance ch n r w [] := by
  refine ⟨hpending, ?_, fun _ _ _ => hretro, fun _ hmin _ => ?_⟩
  · rw [hpending, hretro]
    omega
  · rw [hwait, hretro]
    exact ⟨nofun, fun h => absurd h (by omega)⟩

theorem Balance.kept (hb : Balance ch n r w tried) {w' : Bool} (hw : w' = false → w = false)
    (h : Kept (w' = true) ch ch') : Balance ch' n r w' tried := by
  refine ⟨h.pending ▸ hb.pending, ?_, fun hburst hmin hwoken => ?_, fun hburst hmin hwoken => ?_⟩
  · rw [h.retro, h.pending]
    exact hb.le
  · rw [h.retro]
    exact hb.retro hburst hmin (hw hwoken)
  · rw [h.wait (by simp [hwoken]), h.retro]
    exact hb.wait hburst hmin (hw hwoken)

/-- **A dispatch loop** goes on with what the request left. -/
theorem Balance.dispatched (hb : Balance ch n r w tried) {new : Tries}
    (h : Dispatched ch ch' new) : Balance ch' n r w (tried ++ new) := by
  have hnew (hburst : AllBurst (tried ++ new)) (hmin : 0 < min n r) (hwoken : w = false) :
      ch'.pendingRetroCnt + (sent new).length = ch.pendingRetroCnt ∧
        (ch'.bWaitForPrepSnapshotDone = true ↔ ch'.pendingRetroCnt = 0) := by
    obtain ⟨hold, hnew⟩ := allBurst_append.mp hburst
    have hadd := (h.burst hnew).retro_add (hb.wait hold hmin hwoken)
    rwa [found_map_snd, length_map] at hadd
  have hpending := h.pending
  refine ⟨?_, ?_, fun hburst hmin hwoken => ?_, fun hburst hmin hwoken => ?_⟩
  · rw [counted_append, length_append, ← hb.pending]
    omega
  · have hle := hb.le
    rw [h.retro]
    omega
  · have hold := hb.retro (allBurst_append.mp hburst).1 hmin hwoken
    have hadd := (hnew hburst hmin hwoken).1
    rw [sent_append, length_append]
    omega
  · exact (hnew hburst hmin hwoken).2

/-! ### The commands one after the other -/

/-- The command thread of a channel since its start, with the last request, whether the wait was
ended from outside since then, and the dequeues since then. Before the first request `n` are the
super-buffers that an earlier start of the channel left pending. -/
structure BurstRun where
  t : ChannelThread
  n : ℕ
  r : ℕ := 0
  woken : Bool := false
  tried : Tries := []

/-- The channel was started. -/
structure Started (s : BurstRun) : Prop where
  n : s.n = s.t.ch.pendingCnt
  le : s.t.ch.pendingRetroCnt ≤ s.t.ch.pendingCnt
  r : s.r = 0
  tried : s.tried = []

/-- What happens to the channel of the thread. -/
inductive BurstAction
  | command (fuel : ℕ) (cmd : MmCameraCmdcb)
  | others (t : ChannelThread)

/-- What is noted of a command that led to `t'`. -/
def BurstRun.note (s : BurstRun) (fuel : ℕ) (cmd : MmCameraCmdcb) (t' : ChannelThread) : BurstRun :=
  match cmd with
  | .reqDataCb req =>
    { t := t'
      n := req.numBufRequested
      r := req.numRetroBufRequested
      tried := s.t.tries fuel cmd }
  | _ =>
    { s with
      t := t'
      woken := s.woken || s.t.wakes fuel cmd
      tried := s.tried ++ s.t.tries fuel cmd }

/-- The command thread handles a command, or another thread works on the channel, which leaves
its counters alone. -/
def BurstStep (s : BurstRun) (a : BurstAction) (s' : BurstRun) : Prop :=
  match a with
  | .command fuel cmd => ∃ t', s.t.processStreamBuf fuel cmd = some t' ∧ s' = s.note fuel cmd t'
  | .others t' => Kept False s.t.ch t'.ch ∧ s' = { s with t := t' }

/-- What holds between the counters and the dispatches since the request. -/
structure Inv (s : BurstRun) : Prop where
  balance : Balance s.t.ch s.n s.r s.woken s.tried
  halts : AllBurst s.tried → 0 < min s.n s.r → s.woken = false →
    s.t.ch.bWaitForPrepSnapshotDone = false → s.tried.getLast? = some (.burst, [])

theorem Started.inv {s : BurstRun} (hs : Started s) : Inv s := by
  have hmin : ¬ 0 < min s.n s.r := by
    rw [hs.r]
    omega
  refine ⟨⟨?_, hs.le, fun _ h => absurd h hmin, fun _ h => absurd h hmin⟩, fun _ h => absurd h hmin⟩
  rw [hs.tried, hs.n]
  rfl

theorem Balance.halts (hb : Balance ch n r w tried) {new : Tries} (h : Dispatched ch ch' new)
    (hburst : AllBurst (tried ++ new)) (hmin : 0 < min n r) (hwoken : w = false)
    (hwait : ch'.bWaitForPrepSnapshotDone = false) :
    (tried ++ new).getLast? = some (.burst, []) := by
  have hb' := hb.dispatched h
  have hnew := (allBurst_append.mp hburst).2
  have hiff := hb'.wait hburst hmin hwoken
  have hle := hb'.le
  rw [hwait] at hiff
  rcases (h.burst hnew).stop with hzero | hset | hlast
  · exact absurd (hiff.mpr (by omega)) nofun
  · rw [hwait] at hset
    cases hset
  · rw [getLast?_map, Option.map_eq_some_iff] at hlast
    obtain ⟨⟨mode, nodes⟩, hlast, hnodes⟩ := hlast
    rw [getLast?_append, hlast]
    have hmode := hnew _ (mem_of_getLast? hlast)
    exact congrArg some (Prod.ext hmode hnodes)

/-- **A request.** -/
theorem Inv.request {s : BurstRun} {fuel : ℕ} {req : MmCameraReqBuf} {t' : ChannelThread}
    (h : s.t.processStreamBuf fuel (.reqDataCb req) = some t') :
    Inv (s.note fuel (.reqDataCb req) t') := by
  obtain ⟨ch, hcmd, ⟨_, _, hflush, -⟩ | ⟨u, hkept, hoff, hdisp⟩⟩ := processStreamBuf_cases h
  · cases hflush
  · obtain ⟨hpending, hretro, hwait⟩ := handleCmd_request hcmd
    have hreq : Balance u req.numBufRequested req.numRetroBufRequested false [] :=
      .request (hkept.pending.trans hpending) (hkept.retro.trans hretro) (hoff hwait)
    exact ⟨hreq.dispatched hdisp, fun hburst hmin _ => hreq.halts hdisp hburst hmin rfl⟩

/-- **Another command.** -/
theorem Inv.command {s : BurstRun} (hs : Inv s) {fuel : ℕ} {cmd : MmCameraCmdcb}
    (hreq : ∀ req, cmd ≠ .reqDataCb req) {t' : ChannelThread}
    (h : s.t.processStreamBuf fuel cmd = some t') : Inv (s.note fuel cmd t') := by
  have hnote : s.note fuel cmd t' = { s with
      t := t', woken := s.woken || s.t.wakes fuel cmd, tried := s.tried ++ s.t.tries fuel cmd } := by
    cases cmd with
    | reqDataCb req => exact absurd rfl (hreq req)
    | _ => rfl
  have hold : (s.woken || s.t.wakes fuel cmd) = false → s.woken = false :=
    fun h => (Bool.or_eq_false_iff.mp h).1
  have hwakes : s.t.wakes fuel cmd = true → (s.woken || s.t.wakes fuel cmd) = true :=
    fun h => Bool.or_eq_true_iff.mpr (.inr h)
  rw [hnote]
  obtain ⟨ch, hcmd, hcases⟩ := processStreamBuf_cases h
  have hkept : Kept (s.t.wakes fuel cmd = true) s.t.ch ch := by
    refine .handleCmd hreq (fun b hb hdone => ?_) hcmd
    subst hb
    simp [wakes, hdone]
  rcases hcases with ⟨_, _, _, rfl, htries⟩ | ⟨u, hu, -, hdisp⟩
  · have hch := hkept.mono hwakes
    rw [htries, append_nil]
    refine ⟨hs.balance.kept hold hch, fun hburst hmin hwoken hwait => ?_⟩
    refine hs.halts hburst hmin (hold hwoken) ?_
    exact (hch.wait (Bool.eq_false_iff.mp hwoken)).symm.trans hwait
  · have hb := hs.balance.kept hold ((hkept.trans hu).mono hwakes)
    exact ⟨hb.dispatched hdisp, fun hburst hmin hwoken => hb.halts hdisp hburst hmin hwoken⟩

/-- **One step.** -/
theorem Inv.step {s s' : BurstRun} {a : BurstAction} (hs : Inv s) (h : BurstStep s a s') : Inv s' := by
  cases a with
  | others t' =>
    obtain ⟨hkept, rfl⟩ := h
    refine ⟨hs.balance.kept id (.same hkept.pending hkept.retro (hkept.wait id)),
      fun hburst hmin hwoken hwait => hs.halts hburst hmin hwoken ?_⟩
    exact (hkept.wait id).symm.trans hwait
  | command fuel cmd =>
    obtain ⟨t', hrun, rfl⟩ := h
    by_cases hreq : ∃ req, cmd = .reqDataCb req
    · obtain ⟨req, rfl⟩ := hreq
      exact Inv.request hrun
    · exact hs.command (fun req heq => hreq ⟨req, heq⟩) hrun

/-- A thread whose channel holds two super-buffers. -/
def twoHeld : ChannelThread where
  ch := {
    myHdl := 1
    queue := {
      que := [{ superBuf := [], matched := true, frameIdx := 5 }, { superBuf := [], matched := true, frameIdx := 6 }]
      size := 2
      matchCnt := 2
      attr := { waterMark := 2, lookBack := 2 } } }

/-- A request for two super-buffers, one of them from before. -/
def oneRetro : MmCameraCmdcb := .reqDataCb { numBufRequested := 2, numRetroBufRequested := 1 }

end ChannelThread

end Marlin
