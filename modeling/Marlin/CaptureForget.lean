import Marlin.CaptureIndex

/-!
# What a Capture Setting Forgets

A `CAPTURE_SETTING` command starts a configured capture anew. It clears the frame configuration, and
of the frame ids of the batches the first eight: its `memset` counts bytes. The ids behind them are
those of an earlier capture until they are assigned, and decide what is dispatched if one of their
batches becomes the current one before.

## Conventions

* Two threads are run side by side on the same commands. A batch index is *stale* while the two
  differ there.

## Main results

* `Blind`: the functions that neither read nor write these ids.
* `Alike.step`: what a command preserves, of two threads that differ at stale batches only.
* `captures_alike_run`: as long as the frames that are asked for end before a stale batch, the same
  super-buffers are dispatched and the same buffers are returned.
* `stale_id_discards`: the id of batch 8 is left over from an earlier capture.
-/

namespace Marlin

open ChannelThread MmChannel List Option Transition

namespace MmChannel

/-- The channel with other ids of its batches. -/
def withIds (ch : MmChannel) (ids : ℕ → ℕ) : MmChannel :=
  { ch with captureFrameId := ids }

/-- A function that neither reads nor writes these ids. -/
def Blind (f : MmChannel → MmChannel) : Prop :=
  ∀ ch ids, f (ch.withIds ids) = (f ch).withIds ids

theorem Blind.comp {f g : MmChannel → MmChannel} (hf : Blind f) (hg : Blind g) : Blind fun ch => f (g ch) := by
  intro ch ids
  exact (congrArg f (hg ch ids)).trans (hf (g ch) ids)

theorem Blind.keeps {f : MmChannel → MmChannel} (hf : Blind f) (ch : MmChannel) :
    (f ch).captureFrameId = ch.captureFrameId := by
  have h : f ch = (f ch).withIds ch.captureFrameId := hf ch ch.captureFrameId
  rw [h]
  rfl

variable {ids : ℕ → ℕ}

theorem with_ite {p p' : Prop} [Decidable p] [Decidable p'] {a b a' b' : MmChannel}
    (hp : p' ↔ p) (ha : a' = a.withIds ids)
    (hb : b' = b.withIds ids) :
    (if p' then a' else b') = (if p then a else b).withIds ids := by
  by_cases h : p
  · rw [if_pos h, if_pos (hp.mpr h), ha]
  · rw [if_neg h, if_neg (fun h' => h (hp.mp h')), hb]

/-! ### Taking nodes out -/

theorem blind_qbufs (bs : List MmCameraBufDef) : Blind fun ch => ch.qbufs bs := fun _ _ => rfl

theorem blind_call (a : Action) : Blind fun ch => ch.call a := fun _ _ => rfl

theorem dequeueInternal_with (ch : MmChannel) (ids : ℕ → ℕ)
    (matchedOnly : Bool) : (ch.withIds ids).superbufDequeueInternal matchedOnly =
      ((ch.superbufDequeueInternal matchedOnly).1, (ch.superbufDequeueInternal matchedOnly).2.withIds ids) := by
  obtain ⟨hdl, ⟨que, _⟩, _⟩ := ch
  cases que with
  | nil => rfl
  | cons n rest =>
    cases hm : n.matched <;> cases matchedOnly
    · simp [superbufDequeueInternal, withIds, hm]
    · simp [superbufDequeueInternal, withIds, hm]
    · simp only [superbufDequeueInternal, withIds, hm]
      exact congrArg (Prod.mk (some n)) (with_ite Iff.rfl rfl rfl)
    · simp only [superbufDequeueInternal, withIds, hm]
      exact congrArg (Prod.mk (some n)) (with_ite Iff.rfl rfl rfl)

theorem dequeueFrameInternal_with (ch : MmChannel) (ids : ℕ → ℕ) (frameIdx : ℕ) :
    (ch.withIds ids).superbufDequeueFrameInternal frameIdx = ((ch.superbufDequeueFrameInternal frameIdx).1,
        (ch.superbufDequeueFrameInternal frameIdx).2.withIds ids) := by
  simp only [superbufDequeueFrameInternal, withIds]
  split
  · rfl
  · rfl

/-- The state of a loop of the queue, and the same with other ids. -/
def With (ids : ℕ → ℕ) (ch ch' : MmChannel) : Prop :=
  ch' = ch.withIds ids

theorem reduceBody_with (bound : ℕ) (ch ch' : MmChannel) (h : With ids ch ch') :
    Loop.RoundRel (With ids) (superbufReduceBody bound ch) (superbufReduceBody bound ch') := by
  subst h
  simp only [superbufReduceBody, dequeueInternal_with]
  change Loop.RoundRel _ _ (if bound < ch.queue.matchCnt then _ else _)
  split
  · cases hd : ch.superbufDequeueInternal true with
    | mk node ch₁ =>
      cases node with
      | some n => exact .yield rfl
      | none => exact .yield rfl
  · exact .done rfl

theorem flushBody_with (camType : CamStreamType) (ch ch' : MmChannel) (h : With ids ch ch') :
    Loop.RoundRel (With ids) (superbufFlushBody camType ch) (superbufFlushBody camType ch') := by
  subst h
  simp only [superbufFlushBody, dequeueInternal_with]
  cases hd : ch.superbufDequeueInternal false with
  | mk node ch₁ =>
    cases node with
    | some n => exact .yield rfl
    | none => exact .done rfl

theorem flushMatchedBody_with (ch ch' : MmChannel) (h : With ids ch ch') :
    Loop.RoundRel (With ids) (superbufFlushMatchedBody ch) (superbufFlushMatchedBody ch') := by
  subst h
  simp only [superbufFlushMatchedBody, dequeueInternal_with]
  cases hd : ch.superbufDequeueInternal true with
  | mk node ch₁ =>
    cases node with
    | some n => exact .yield rfl
    | none => exact .done rfl

theorem blind_flush (camType : CamStreamType) : Blind fun ch => ch.superbufFlush camType :=
  fun ch ids => Loop.iterate_pair (R := With ids) (flushBody_with camType) ch.queue.que.length rfl

theorem blind_flushMatched : Blind superbufFlushMatched :=
  fun ch ids => Loop.iterate_pair (R := With ids) flushMatchedBody_with ch.queue.que.length rfl

theorem respected_captureFrameId : Respected fun ch ch' => ch'.captureFrameId = ch.captureFrameId := by
  refine .of_view (fun _ _ => rfl) fun ch n rest => ?_
  simp only [afterDequeue, call]
  split_ifs <;> rfl

theorem skip_with {fuel : ℕ} {ch ch' : MmChannel} (ids : ℕ → ℕ) (h : ch.superbufSkip fuel = some ch') :
    (ch.withIds ids).superbufSkip fuel = some (ch'.withIds ids) := by
  rw [superbufSkip] at h ⊢
  change (if ch.queue.attr.notifyMode = .continuous then _ else _) = _
  split
  · rename_i hmode
    rw [if_pos hmode] at h
    rw [some.inj h]
  · rename_i hmode
    rw [if_neg hmode] at h
    obtain ⟨ch'', hrun, rfl⟩ := Loop.run_pair (R := With ids) (reduceBody_with ch.queue.attr.lookBack) rfl h
    exact hrun

theorem bufdoneOverflow_with {fuel : ℕ} {ch ch' : MmChannel} (ids : ℕ → ℕ)
    (h : ch.superbufBufdoneOverflow fuel = some ch') :
    (ch.withIds ids).superbufBufdoneOverflow fuel = some (ch'.withIds ids) := by
  rw [superbufBufdoneOverflow] at h ⊢
  change (if ch.queue.attr.notifyMode = .continuous then _ else _) = _
  split
  · rename_i hmode
    rw [if_pos hmode] at h
    rw [some.inj h]
  · rename_i hmode
    rw [if_neg hmode] at h
    obtain ⟨ch'', hrun, rfl⟩ := Loop.run_pair (R := With ids) (reduceBody_with ch.queue.attr.waterMark) rfl h
    exact hrun

/-! ### Metadata -/

theorem blind_noteDivertInfo (frameIdx : ℕ) (info : Option ℕ) : Blind fun ch => ch.noteDivertInfo frameIdx info := by
  intro ch ids
  cases info <;> rfl

theorem blind_zoom1xFrame (frameIdx : ℕ) (found : Bool) : Blind fun ch => ch.zoom1xFrame frameIdx found := by
  intro ch ids
  exact with_ite Iff.rfl rfl (blind_flushMatched { ch with
    queue.expectedFrameId := addU32 ch.queue.expectedFrameId mmCameraMaxFutureFrameWait } ids)

theorem blind_prepSnapshotDone (state : Option ℤ) : Blind fun ch => ch.prepSnapshotDone state := by
  intro ch ids
  simp only [prepSnapshotDone]
  cases state with
  | none => rfl
  | some st =>
    have hflush := blind_flush .default { ch with
      bWaitForPrepSnapshotDone := false
      queue.expectedFrameId :=
        addU32 ch.queue.expectedFrameId mmCameraMaxFutureFrameWait } ids
    exact with_ite Iff.rfl (congrArg (fun ch : MmChannel => { ch with needLEDFlash := true }) hflush) rfl

theorem blind_goodFrameRange (range : Option CamFrameIdxRange) (prep : Bool) :
    Blind fun ch => ch.goodFrameRange range prep := by
  intro ch ids
  simp only [goodFrameRange]
  cases range with
  | some r =>
    exact with_ite Iff.rfl rfl rfl
  | none =>
    have hflush := blind_flushMatched ch ids
    exact with_ite Iff.rfl (congrArg (fun ch : MmChannel => { ch with
      queue.expectedFrameId :=
        addU32 ch.queue.expectedFrameId mmCameraMaxFutureFrameWait }) hflush) rfl

theorem blind_goodFrameBracketing (range : Option CamFrameIdxRange) : Blind fun ch => ch.goodFrameBracketing range := by
  intro ch ids
  cases range with
  | none => rfl
  | some r =>
    exact with_ite Iff.rfl rfl rfl

theorem blind_ledOffFrame (frameIdx : ℕ) : Blind fun ch => ch.ledOffFrame frameIdx := by
  intro ch ids
  exact with_ite Iff.rfl rfl rfl

theorem blind_lowLightLevel (level : Option ℕ) : Blind fun ch => ch.lowLightLevel level := by
  intro ch ids
  cases level <;> rfl

theorem blind_userExpectedFrame (frameIdx : ℕ) (aecSettled : Option Bool) :
    Blind fun ch => ch.userExpectedFrame frameIdx aecSettled := by
  intro ch ids
  exact with_ite Iff.rfl (with_ite Iff.rfl (with_ite Iff.rfl rfl rfl) rfl) rfl

/-! ### Putting a buffer in -/

theorem blind_expectNext (frameIdx : ℕ) : Blind fun ch => ch.expectNext frameIdx := by
  intro ch ids
  exact with_ite Iff.rfl rfl rfl

theorem blind_countMatch (frameIdx : ℕ) : Blind fun ch => ch.countMatch frameIdx := by
  intro ch ids
  exact with_ite Iff.rfl rfl rfl

theorem blind_releaseOlder (lastBuf : Option ℕ) (pos : ℕ) : Blind fun ch => ch.releaseOlder lastBuf pos := by
  intro ch ids
  cases lastBuf <;> rfl

theorem blind_completeNode (s : SuperbufScan) (frameIdx : ℕ) (n : MmChannelQueueNode) :
    Blind fun ch => ch.completeNode s frameIdx n := by
  intro ch ids
  simp only [completeNode, blind_expectNext frameIdx ch ids]
  exact ((blind_releaseOlder s.lastBuf s.pos).comp (blind_countMatch frameIdx)) { ch.expectNext frameIdx with
    queue.que := (ch.expectNext frameIdx).queue.que.set s.pos { n with matched := true, expectedFrame := false } } ids

theorem blind_joinNode (i : ℕ) (b : MmCameraBufInfo) (s : SuperbufScan) (n : MmChannelQueueNode) :
    Blind fun ch => ch.joinNode i b s n := by
  intro ch ids
  simp only [joinNode]
  split
  · rfl
  · split
    · exact blind_completeNode _ _ _ ch ids
    · exact with_ite Iff.rfl rfl rfl

theorem blind_makeRoom (s : SuperbufScan) : Blind fun ch => ch.makeRoom s := by
  intro ch ids
  have heq : (ch.withIds ids).evictee s = ch.evictee s := rfl
  simp only [makeRoom, heq]
  split
  · rfl
  · rfl

theorem blind_linkNode (i : ℕ) (b : MmCameraBufInfo) (pos : ℕ) : Blind fun ch => ch.linkNode i b pos := by
  intro ch ids
  have hnode : (ch.withIds ids).newNode i b = ch.newNode i b := rfl
  simp only [linkNode, hnode]
  exact with_ite Iff.rfl (blind_countMatch b.frameIdx { ch with
    divertedFrameId :=
      if ch.divertedFrameId = b.frameIdx ∨ b.frameIdx = ch.queue.goodFrameId then 0
      else ch.divertedFrameId
    queue.que := ch.queue.que.insertIdx pos (ch.newNode i b)
    queue.size := ch.queue.size + 1
    queue.expectedFrameId := addU32 b.frameIdx ch.queue.attr.postFrameSkip } ids) rfl

theorem blind_insertNew (i : ℕ) (b : MmCameraBufInfo) (s : SuperbufScan) : Blind fun ch => ch.insertNew i b s := by
  intro ch ids
  have hpos : (ch.withIds ids).insertPos s = ch.insertPos s := rfl
  simp only [insertNew, hpos, blind_makeRoom s ch ids]
  exact with_ite Iff.rfl rfl (with_ite Iff.rfl (blind_linkNode i b (ch.insertPos s)
    { ch.makeRoom s with mallocs := (ch.makeRoom s).mallocs + 2 } ids) rfl)

theorem blind_superbufComp (i : ℕ) (b : MmCameraBufInfo) : Blind fun ch => ch.superbufComp i b := by
  intro ch ids
  have hscan : (ch.withIds ids).scan i b = ch.scan i b := rfl
  dsimp only
  cases h : (ch.scan i b).superBuf with
  | some n =>
    have h' : ((ch.withIds ids).scan i b).superBuf = some n := h
    rw [superbufComp_of_some h, superbufComp_of_some h', hscan]
    exact blind_joinNode _ _ _ _ ch ids
  | none =>
    have h' : ((ch.withIds ids).scan i b).superBuf = none := h
    rw [superbufComp_of_none h, superbufComp_of_none h', hscan]
    exact blind_insertNew _ _ _ ch ids

/-! ### Channels that differ at stale batches -/

/-- The two channels differ at most in the ids of the batches in `S`. -/
def Near (S : ℕ → Prop) (ch ch' : MmChannel) : Prop :=
  ∃ ids, ch' = ch.withIds ids ∧ ∀ i, ¬ S i → ids i = ch.captureFrameId i

variable {S : ℕ → Prop} {ch ch' : MmChannel}

theorem Blind.near {f : MmChannel → MmChannel} (hf : Blind f) (h : Near S ch ch') : Near S (f ch) (f ch') := by
  obtain ⟨ids, rfl, hids⟩ := h
  refine ⟨ids, hf ch ids, fun i hi => ?_⟩
  rw [hf.keeps ch]
  exact hids i hi

theorem Near.frameConfigId (h : Near S ch ch') (range : Option CamFrameIdxRange)
    (hcur : ch.isConfigCapture = true → ¬ S ch.curCaptureIdx) :
    Near S (ch.frameConfigId range) (ch'.frameConfigId range) := by
  cases range with
  | none => exact h
  | some r =>
    obtain ⟨ids, rfl, hids⟩ := h
    simp only [frameConfigId]
    by_cases hon : ch.isConfigCapture = true ∧ r.configBatchIdx < ch.frameConfig.numBatch
    · have hon' : (ch.withIds ids).isConfigCapture = true ∧
          r.configBatchIdx < (ch.withIds ids).frameConfig.numBatch := hon
      have hset : ∀ i, ¬ S i → (if i = r.configBatchIdx then r.minFrameIdx else ids i) =
          if i = r.configBatchIdx then r.minFrameIdx else ch.captureFrameId i := by
        intro i hi
        rw [hids i hi]
      rw [if_pos hon, if_pos hon']
      by_cases hbatch : ch.curCaptureIdx = r.configBatchIdx
      · have hbatch' : (ch.withIds ids).curCaptureIdx = r.configBatchIdx := hbatch
        simp only [hbatch, hbatch', if_true]
        exact ⟨fun i => if i = r.configBatchIdx then r.minFrameIdx else ids i, rfl, hset⟩
      · have hbatch' : ¬ (ch.withIds ids).curCaptureIdx = r.configBatchIdx := hbatch
        have hread := hset ch.curCaptureIdx (hcur hon.1)
        simp only [hbatch, hbatch', if_false] at hread ⊢
        refine ⟨fun i => if i = r.configBatchIdx then r.minFrameIdx else ids i, ?_, hset⟩
        simp only [withIds, call, hread]
    · have hon' : ¬ ((ch.withIds ids).isConfigCapture = true ∧
          r.configBatchIdx < (ch.withIds ids).frameConfig.numBatch) := hon
      rw [if_neg hon, if_neg hon']
      exact ⟨ids, rfl, hids⟩

theorem Near.applyMetadata (h : Near S ch ch') (frameIdx : ℕ) (m : MetadataBuffer)
    (hcur : ch.isConfigCapture = true → ¬ S ch.curCaptureIdx) :
    Near S (ch.applyMetadata frameIdx m) (ch'.applyMetadata frameIdx m) := by
  have hnote := (blind_noteDivertInfo frameIdx m.bufDivertInfo).near h
  have hzoom : (ch'.noteDivertInfo frameIdx m.bufDivertInfo).isZoom1xFrameRequested =
      (ch.noteDivertInfo frameIdx m.bufDivertInfo).isZoom1xFrameRequested := by
    obtain ⟨ids, heq, -⟩ := hnote
    rw [heq]
    rfl
  have hcrop : (ch'.noteDivertInfo frameIdx m.bufDivertInfo).isCrop1xFound (m.cropData.getD []) =
      (ch.noteDivertInfo frameIdx m.bufDivertInfo).isCrop1xFound (m.cropData.getD []) := by
    obtain ⟨ids, heq, -⟩ := hnote
    rw [heq]
    rfl
  simp only [MmChannel.applyMetadata, hzoom, hcrop]
  split
  · exact (blind_zoom1xFrame _ _).near hnote
  · refine (blind_userExpectedFrame _ _).near <| (blind_lowLightLevel _).near <|
      (blind_ledOffFrame _).near <| Near.frameConfigId ((blind_goodFrameBracketing _).near <|
      (blind_goodFrameRange _ _).near <| (blind_prepSnapshotDone _).near hnote) _ ?_
    have hcap : (((((ch.noteDivertInfo frameIdx m.bufDivertInfo).prepSnapshotDone
        m.prepSnapshotDone).goodFrameRange m.goodFrameIdxRange
        m.prepSnapshotDone.isSome).goodFrameBracketing m.goodFrameIdxRange)).capture =
        ch.capture := by
      rw [capture_goodFrameBracketing, capture_goodFrameRange, capture_prepSnapshotDone, capture_noteDivertInfo]
    intro hon
    have hidx := congrArg CaptureControls.curCaptureIdx hcap
    have hon' := congrArg CaptureControls.isConfigCapture hcap
    simp only [capture] at hidx hon'
    rw [hidx]
    exact hcur (hon'.symm.trans hon)

theorem Near.handleMetadata (h : Near S ch ch') (b : MmCameraBufInfo)
    (hcur : ch.isConfigCapture = true → ¬ S ch.curCaptureIdx) :
    (ch'.handleMetadata b).1 = (ch.handleMetadata b).1 ∧ Near S (ch.handleMetadata b).2 (ch'.handleMetadata b).2 := by
  have hstream : ch'.utilGetStreamByHandler b.streamId = ch.utilGetStreamByHandler b.streamId := by
    obtain ⟨ids, rfl, -⟩ := h
    rfl
  have hhdl : ch'.myHdl = ch.myHdl := by
    obtain ⟨ids, rfl, -⟩ := h
    rfl
  simp only [MmChannel.handleMetadata, hstream, hhdl]
  split
  · exact ⟨rfl, h⟩
  · split
    · exact ⟨rfl, h⟩
    · split
      · split
        · exact ⟨rfl, h⟩
        · exact ⟨rfl, h.applyMetadata _ _ hcur⟩
      · exact ⟨rfl, h⟩

theorem Near.superbufCompAndEnqueue (h : Near S ch ch') (b : MmCameraBufInfo)
    (hcur : ch.isConfigCapture = true → ¬ S ch.curCaptureIdx) :
    Near S (ch.superbufCompAndEnqueue b).2 (ch'.superbufCompAndEnqueue b).2 := by
  obtain ⟨hrc, hmeta⟩ := h.handleMetadata b hcur
  have hstreams : ch'.queue.bundledStreams = ch.queue.bundledStreams := by
    obtain ⟨ids, rfl, -⟩ := h
    rfl
  have hqueue : (ch'.handleMetadata b).2.queue = (ch.handleMetadata b).2.queue := by
    obtain ⟨ids, heq, -⟩ := hmeta
    rw [heq]
    rfl
  have hvalid : (ch'.handleMetadata b).2.validateSuperBuf b = (ch.handleMetadata b).2.validateSuperBuf b := by
    rw [validateSuperBuf, validateSuperBuf, hqueue]
  simp only [MmChannel.superbufCompAndEnqueue, hstreams, hrc, hqueue, hvalid]
  split
  · exact h
  · split
    · exact (blind_qbufs _).near h
    · split
      · exact (blind_qbufs _).near hmeta
      · split
        · exact (blind_qbufs _).near hmeta
        · exact (blind_superbufComp _ _).near hmeta

/-! ### The other commands -/

theorem Near.generalCmd (h : Near S ch ch') (cmd : MmCameraGenericCmd) :
    Near S (ch.generalCmd cmd) (ch'.generalCmd cmd) := by
  have hflush := (blind_flush .default).near h
  obtain ⟨type, start, config⟩ := cmd
  cases type with
  | aeBracketing =>
    have hf : Blind fun ch => { ch with
      bracketingState := if start then .waitGoodFrameIdx else .off } := fun _ _ => rfl
    exact hf.near hflush
  | afBracketing =>
    have hf : Blind fun ch => { ch with
      bracketingState := if start then .waitGoodFrameIdx else .off } := fun _ _ => rfl
    exact hf.near hflush
  | flashBracketing =>
    have hf : Blind fun ch => { ch with isFlashBracketingEnabled := start } := fun _ _ => rfl
    exact hf.near hflush
  | zoom1x =>
    have hf : Blind fun ch => { ch with isZoom1xFrameRequested := start } := fun _ _ => rfl
    exact hf.near hflush
  | captureSetting =>
    obtain ⟨ids, rfl, hids⟩ := h
    refine ⟨fun i => if i < maxCaptureBatchNum / 4 then 0 else ids i, rfl, fun i hi => ?_⟩
    simp only [generalCmd, captureSetting, hids i hi]
  | other => exact h

variable {cmd : MmCameraCmdcb}

theorem Near.handleCmd {fuel : ℕ} {r : MmChannel} (h : Near S ch ch')
    (hcur : ch.isConfigCapture = true → ¬ S ch.curCaptureIdx) (hr : ch.handleCmd fuel cmd = some r) :
    ∃ r', ch'.handleCmd fuel cmd = some r' ∧ Near S r r' := by
  cases cmd with
  | dataCb buf =>
    cases hr
    exact ⟨_, rfl, h.superbufCompAndEnqueue buf hcur⟩
  | reqDataCb req =>
    obtain ⟨ids, rfl, hids⟩ := h
    have hskip : (ch.requestBuf req).superbufSkip fuel = some r := hr
    refine ⟨_, skip_with ids hskip, ids, rfl, fun i hi => ?_⟩
    rw [respected_captureFrameId.skip hskip]
    exact hids i hi
  | startZsl =>
    cases hr
    have hf : Blind fun ch => { ch with manualZSLSnapshot := true }.call .startZslSnapshot :=
      fun _ _ => rfl
    exact ⟨_, rfl, hf.near h⟩
  | stopZsl =>
    cases hr
    have hf : Blind fun ch => { ch with manualZSLSnapshot := false }.call .stopZslSnapshot :=
      fun _ _ => rfl
    exact ⟨_, rfl, hf.near h⟩
  | configNotify notifyMode =>
    cases hr
    have hf : Blind fun ch => { ch with queue.attr.notifyMode := notifyMode } := fun _ _ => rfl
    exact ⟨_, rfl, hf.near h⟩
  | flushQueue frameIdx streamType =>
    cases hr
    have hset : Blind fun ch => { ch with queue.expectedFrameId := frameIdx } := fun _ _ => rfl
    have hf := (blind_call .semPost).comp ((blind_flush streamType).comp hset)
    exact ⟨_, rfl, hf.near h⟩
  | general genCmd =>
    cases hr
    exact ⟨_, rfl, h.generalCmd genCmd⟩
  | other =>
    cases hr
    exact ⟨_, rfl, h⟩

/-! ### Start and stop of a ZSL snapshot -/

theorem blind_stopZslWhenDone : Blind fun ch => ch.countPending.stopZslWhenDone := by
  intro ch ids
  exact with_ite Iff.rfl rfl rfl

theorem blind_startZslForPending : Blind startZslForPending := fun _ _ => rfl

theorem Near.deferCapture (h : Near S ch ch') : Near S ch.deferCapture ch'.deferCapture := by
  obtain ⟨ids, rfl, hids⟩ := h
  refine ⟨fun i =>
    if ch.curCaptureIdx ≤ i ∧ i < ch.frameConfig.numBatch then
      addU32 ch.queue.expectedFrameId mmCameraMaxFutureFrameWait
    else ids i, rfl, fun i hi => ?_⟩
  simp only [deferCapture, hids i hi]

theorem Near.triggerZsl (h : Near S ch ch') : Near S ch.triggerZsl ch'.triggerZsl := by
  have hstart := blind_startZslForPending.near ((blind_flush .default).near h.deferCapture)
  have hled := blind_startZslForPending.near h
  obtain ⟨ids, rfl, hids⟩ := h
  rw [triggerZsl, triggerZsl]
  change Near S _ (if ch.isConfigCapture && ch.needStartZSL then _ else
    if decide (0 < ch.pendingCnt) && (ch.needLEDFlash || ch.bracketingState != .off) &&
      !ch.manualZSLSnapshot && !ch.startZSlSnapshotCalled then _ else
    if (ch.pendingCnt == 0 || ch.stopZslSnapshot) && !ch.manualZSLSnapshot && ch.startZSlSnapshotCalled then _ else _)
  split
  · exact hstart
  · split
    · exact hled
    · split
      · exact ⟨ids, rfl, hids⟩
      · exact ⟨ids, rfl, hids⟩

/-! ### Dispatching -/

theorem Near.takeNode (h : Near S ch ch') (hcur : ch.isConfigCapture = true → ¬ S ch.curCaptureIdx) :
    ch'.takeNode.1 = ch.takeNode.1 ∧ Near S ch.takeNode.2 ch'.takeNode.2 := by
  have hcap := respected_capture.dequeueInternal ch true
  have hkeep : (ch.superbufDequeueInternal true).2.captureFrameId = ch.captureFrameId := by
    have hblind : Blind fun ch => (ch.superbufDequeueInternal true).2 := fun ch ids =>
      congrArg Prod.snd (dequeueInternal_with ch ids true)
    exact hblind.keeps ch
  obtain ⟨ids, rfl, hids⟩ := h
  simp only [takeNode, superbufDequeue, dequeueInternal_with]
  generalize ch.superbufDequeueInternal true = r at hcap hkeep
  obtain ⟨node, ch₁⟩ := r
  have hids₁ : ∀ i, ¬ S i → ids i = ch₁.captureFrameId i := by
    intro i hi
    rw [hkeep]
    exact hids i hi
  cases node with
  | none => exact ⟨rfl, ids, rfl, hids₁⟩
  | some n =>
    by_cases hon : ch₁.isConfigCapture = true
    · have hread : ids ch₁.curCaptureIdx = ch₁.captureFrameId ch₁.curCaptureIdx := by
        refine hids₁ _ ?_
        have hidx : ch₁.curCaptureIdx = ch.curCaptureIdx :=
          congrArg CaptureControls.curCaptureIdx hcap
        have hon' : ch₁.isConfigCapture = ch.isConfigCapture :=
          congrArg CaptureControls.isConfigCapture hcap
        rw [hidx]
        exact hcur (hon'.symm.trans hon)
      have hon' : (ch₁.withIds ids).isConfigCapture = true := hon
      have hold : (ch₁.withIds ids).captureFrameId (ch₁.withIds ids).curCaptureIdx =
          ch₁.captureFrameId ch₁.curCaptureIdx := hread
      simp only [checkExpected, if_pos hon, if_pos hon', hold]
      split
      · exact ⟨rfl, ids, rfl, hids₁⟩
      · exact ⟨rfl, ids, rfl, hids₁⟩
    · have hon' : ¬ (ch₁.withIds ids).isConfigCapture = true := hon
      simp only [checkExpected, if_neg hon, if_neg hon']
      exact ⟨trivial, ids, rfl, hids₁⟩

theorem startBatch_with (ch : MmChannel) {idx : ℕ} (h : ids idx = ch.captureFrameId idx) :
    (ch.withIds ids).startBatch idx = (ch.startBatch idx).withIds ids := by
  simp only [startBatch, withIds, call, h]

theorem Near.countBurstFrame (h : Near S ch ch')
    (hnext : ch.countBurstFrame.isConfigCapture = true → ¬ S ch.countBurstFrame.curCaptureIdx) :
    Near S ch.countBurstFrame ch'.countBurstFrame := by
  have hstop := blind_stopZslWhenDone.near h
  rw [MmChannel.countBurstFrame] at hnext ⊢
  rw [MmChannel.countBurstFrame]
  generalize ch.countPending.stopZslWhenDone = ch₁ at hstop hnext ⊢
  obtain ⟨ids, heq, hids⟩ := hstop
  simp only [heq]
  by_cases hon : ch₁.isConfigCapture = true
  · have hon' : (ch₁.withIds ids).isConfigCapture = true := hon
    rw [if_pos hon] at hnext ⊢
    rw [if_pos hon']
    rw [nextBatch] at hnext ⊢
    rw [nextBatch]
    by_cases hend : (ch₁.countBatchFrame.frameConfig.configs ch₁.countBatchFrame.curCaptureIdx).numFrames = 0
    · have hend' : ((ch₁.withIds ids).countBatchFrame.frameConfig.configs
          (ch₁.withIds ids).countBatchFrame.curCaptureIdx).numFrames = 0 := hend
      rw [if_pos hend] at hnext ⊢
      rw [if_pos hend']
      have hread := hids _ (hnext hon)
      exact ⟨ids, startBatch_with ch₁.countBatchFrame hread, hids⟩
    · have hend' : ¬ ((ch₁.withIds ids).countBatchFrame.frameConfig.configs
          (ch₁.withIds ids).countBatchFrame.curCaptureIdx).numFrames = 0 := hend
      rw [if_neg hend, if_neg hend']
      exact ⟨ids, rfl, hids⟩
  · have hon' : ¬ (ch₁.withIds ids).isConfigCapture = true := hon
    rw [if_neg hon, if_neg hon']
    exact ⟨ids, rfl, hids⟩

theorem blind_sendSuperBuf (n : MmChannelQueueNode) : Blind fun ch => ch.sendSuperBuf n := by
  intro ch ids
  exact with_ite Iff.rfl (with_ite Iff.rfl rfl rfl) rfl

end MmChannel

namespace ChannelThread

open MmChannel

/-! ### Two threads side by side -/

/-- The thread with other ids of its batches. -/
def withIds (t : ChannelThread) (ids : ℕ → ℕ) : ChannelThread := { t with ch := t.ch.withIds ids }

/-- The two threads differ at most in the ids of the batches in `S`. -/
def SameBut (S : ℕ → Prop) (t t' : ChannelThread) : Prop :=
  ∃ ids, t' = t.withIds ids ∧ ∀ i, ¬ S i → ids i = t.ch.captureFrameId i

theorem setChannel_with {f : MmChannel → MmChannel} (hf : Blind f) (t : ChannelThread) (ids : ℕ → ℕ)
    (hdl : ℕ) : (t.withIds ids).setChannel hdl (f ((t.withIds ids).channel hdl)) =
      (t.setChannel hdl (f (t.channel hdl))).withIds ids := by
  by_cases hown : hdl = t.ch.myHdl
  · have hown' : hdl = (t.withIds ids).ch.myHdl := hown
    rw [channel, channel, setChannel, setChannel, if_pos hown, if_pos hown', if_pos hown, if_pos hown']
    exact congrArg (fun ch => { t with ch := ch }) (hf t.ch ids)
  · have hown' : ¬ hdl = (t.withIds ids).ch.myHdl := hown
    rw [channel, channel, setChannel, setChannel, if_neg hown, if_neg hown', if_neg hown, if_neg hown']
    rfl

theorem foldl_with {f : MmChannelQueueNode → MmChannel → MmChannel} (hf : ∀ n, Blind (f n))
    (nodes : List (ℕ × MmChannelQueueNode)) (t : ChannelThread) (ids : ℕ → ℕ) :
    nodes.foldl (fun t p => t.setChannel p.1 (f p.2 (t.channel p.1))) (t.withIds ids) =
      (nodes.foldl (fun t p => t.setChannel p.1 (f p.2 (t.channel p.1))) t).withIds ids := by
  induction nodes generalizing t with
  | nil => rfl
  | cons p nodes ih =>
    rw [foldl_cons, foldl_cons, setChannel_with (hf p.2)]
    exact ih _

theorem nodeQbufs_with (t : ChannelThread) (ids : ℕ → ℕ) (nodes : List (ℕ × MmChannelQueueNode)) :
    (t.withIds ids).nodeQbufs nodes = (t.nodeQbufs nodes).withIds ids :=
  foldl_with (f := fun n ch => ch.qbufs n.bufs) (fun n => blind_qbufs n.bufs) nodes t ids

theorem sendSuperBufs_with (t : ChannelThread) (ids : ℕ → ℕ) (nodes : List (ℕ × MmChannelQueueNode)) :
    (t.withIds ids).sendSuperBufs nodes = (t.sendSuperBufs nodes).withIds ids :=
  foldl_with (f := fun n ch => ch.sendSuperBuf n) blind_sendSuperBuf nodes t ids

theorem takeFrame_with (frameIdx : ℕ) (hdls : List (Option ℕ)) (t : ChannelThread) (ids : ℕ → ℕ) :
    takeFrame frameIdx hdls (t.withIds ids) =
      ((takeFrame frameIdx hdls t).1, (takeFrame frameIdx hdls t).2.withIds ids) := by
  induction hdls generalizing t with
  | nil => rfl
  | cons hdl rest ih =>
    cases hdl with
    | none => exact ih t
    | some hdl =>
      have hblind : Blind fun ch => (ch.superbufDequeueFrameInternal frameIdx).2 := by
        intro ch ids
        exact congrArg Prod.snd (dequeueFrameInternal_with ch ids frameIdx)
      have hset := setChannel_with hblind t ids hdl
      have hnode : (((t.withIds ids).channel hdl).superbufDequeueFrameInternal frameIdx).1 =
          ((t.channel hdl).superbufDequeueFrameInternal frameIdx).1 := by
        by_cases hown : hdl = t.ch.myHdl
        · have hown' : hdl = (t.withIds ids).ch.myHdl := hown
          rw [channel, channel, if_pos hown, if_pos hown']
          exact congrArg (fun r => r.1) (dequeueFrameInternal_with t.ch ids frameIdx)
        · have hown' : ¬ hdl = (t.withIds ids).ch.myHdl := hown
          rw [channel, channel, if_neg hown, if_neg hown']
          rfl
      rw [takeFrame, takeFrame]
      generalize ((t.withIds ids).channel hdl).superbufDequeueFrameInternal frameIdx = r' at *
      generalize (t.channel hdl).superbufDequeueFrameInternal frameIdx = r at *
      obtain ⟨node, ch⟩ := r
      obtain ⟨node', ch'⟩ := r'
      obtain rfl : node' = node := hnode
      cases node' with
      | none =>
        change takeFrame frameIdx rest ((t.withIds ids).setChannel hdl ch') = _
        rw [hset]
        exact ih _
      | some n =>
        have hrest := ih (t.setChannel hdl ch)
        rw [← hset] at hrest
        simp only [hrest]

theorem takeMatchedFrame_with (t : ChannelThread) (ids : ℕ → ℕ) : (t.withIds ids).takeMatchedFrame =
      (t.takeMatchedFrame.1, t.takeMatchedFrame.2.withIds ids) := by
  have hfs : (t.withIds ids).fs = t.fs := rfl
  have htake := takeFrame_with (t.fs.findMatched false) t.fs.chObj t ids
  simp only [takeMatchedFrame, hfs, htake]
  generalize takeFrame (t.fs.findMatched false) t.fs.chObj t = r
  obtain ⟨nodes, t₁⟩ := r
  have hfs₁ : (t₁.withIds ids).fs = t₁.fs := rfl
  simp only [hfs₁]
  split
  · rfl
  · split
    · rfl
    · exact congrArg (Prod.mk []) (nodeQbufs_with { t₁ with fs := (t₁.fs.remove (t.fs.findMatched false)).2 } ids nodes)

variable {S : ℕ → Prop} {t t' : ChannelThread}

/-- The current batch is not stale. -/
def CurrentSame (S : ℕ → Prop) (t : ChannelThread) : Prop :=
  t.ch.isConfigCapture = true → ¬ S t.ch.curCaptureIdx

theorem SameBut.takeNodes (h : SameBut S t t') (hcur : CurrentSame S t) :
    t'.takeNodes.1 = t.takeNodes.1 ∧ SameBut S t.takeNodes.2 t'.takeNodes.2 := by
  obtain ⟨ids, rfl, hids⟩ := h
  have htype : (t.withIds ids).ch.reqType = t.ch.reqType := rfl
  simp only [takeNodes, htype]
  split
  · rw [takeMatchedFrame_with]
    refine ⟨rfl, ids, rfl, fun i hi => ?_⟩
    have hkeep := takeMatchedFrame_respects respected_captureFrameId
      (fun ch frameIdx => Blind.keeps (f := fun ch => (ch.superbufDequeueFrameInternal frameIdx).2)
        (fun ch ids => congrArg Prod.snd (dequeueFrameInternal_with ch ids frameIdx)) ch) t
    rw [hkeep]
    exact hids i hi
  · have hsame : Near S t.ch (t.ch.withIds ids) := ⟨ids, rfl, hids⟩
    obtain ⟨hnode, hnear⟩ := hsame.takeNode hcur
    have hch : (t.withIds ids).ch = t.ch.withIds ids := rfl
    rw [hch]
    generalize (t.ch.withIds ids).takeNode = r' at hnode hnear
    generalize t.ch.takeNode = r at hnode hnear
    obtain ⟨node, ch⟩ := r
    obtain ⟨node', ch'⟩ := r'
    obtain rfl : node' = node := hnode
    obtain ⟨ids', heq, hids'⟩ := hnear
    obtain rfl : ch' = ch.withIds ids' := heq
    cases node' with
    | none => exact ⟨rfl, ids', rfl, hids'⟩
    | some n => exact ⟨rfl, ids', rfl, hids'⟩

theorem SameBut.dispatchBody {notifyMode : NotifyMode} (h : SameBut S t t') (hcur : CurrentSame S t)
    (hnext : ∀ u, dispatchBody notifyMode t = .yield u → CurrentSame S u) :
    Loop.RoundRel (SameBut S) (dispatchBody notifyMode t) (dispatchBody notifyMode t') := by
  obtain ⟨hnodes, htake⟩ := h.takeNodes hcur
  have hpending : t'.ch.pendingCnt = t.ch.pendingCnt := by
    obtain ⟨ids, rfl, -⟩ := h
    rfl
  have hwait : t'.ch.bWaitForPrepSnapshotDone = t.ch.bWaitForPrepSnapshotDone := by
    obtain ⟨ids, rfl, -⟩ := h
    rfl
  simp only [ChannelThread.dispatchBody, hpending, hwait] at hnext ⊢
  split
  · rename_i hwhile
    simp only [if_pos hwhile] at hnext
    generalize t'.takeNodes = r' at hnodes htake
    generalize t.takeNodes = r at hnodes htake hnext
    obtain ⟨nodes, t₁⟩ := r
    obtain ⟨nodes', t₁'⟩ := r'
    obtain rfl : nodes' = nodes := hnodes
    cases nodes' with
    | nil => exact .done htake
    | cons n nodes =>
      have hu := hnext _ rfl
      simp only
      split
      · rename_i hburst
        rw [if_pos hburst] at hu
        have hsend := sendSuperBufs_respects respected_capture capture_sendSuperBuf
          { t₁ with ch := t₁.ch.countBurstFrame } (n :: nodes)
        have hnext' : t₁.ch.countBurstFrame.isConfigCapture = true → ¬ S t₁.ch.countBurstFrame.curCaptureIdx := by
          intro hon
          have hidx := congrArg CaptureControls.curCaptureIdx hsend
          have hon' := congrArg CaptureControls.isConfigCapture hsend
          simp only [capture] at hidx hon'
          rw [← hidx]
          exact hu (hon'.trans hon)
        obtain ⟨ids, rfl, hids⟩ := htake
        have hnear : Near S t₁.ch (t₁.ch.withIds ids) := ⟨ids, rfl, hids⟩
        obtain ⟨ids', hcount, hids'⟩ := hnear.countBurstFrame hnext'
        refine .yield ⟨ids', ?_, fun i hi => ?_⟩
        · have hch : (t₁.withIds ids).ch = t₁.ch.withIds ids := rfl
          rw [hch, hcount]
          exact sendSuperBufs_with { t₁ with ch := t₁.ch.countBurstFrame } ids' (n :: nodes)
        · rw [sendSuperBufs_respects respected_captureFrameId (fun ch n => (blind_sendSuperBuf n).keeps ch)]
          exact hids' i hi
      · obtain ⟨ids, rfl, hids⟩ := htake
        refine .yield ⟨ids, sendSuperBufs_with t₁ ids (n :: nodes), fun i hi => ?_⟩
        rw [sendSuperBufs_respects respected_captureFrameId (fun ch n => (blind_sendSuperBuf n).keeps ch)]
        exact hids i hi
  · exact .done h

/-- Every stale batch is one of the array, and `P` holds of its index. -/
def AtStale (S P : ℕ → Prop) : Prop := ∀ k, S k → k < maxCaptureBatchNum ∧ P k

theorem sameBut_dispatch {ch ch' chEnd : MmChannel} {u : ChannelThread} {fuel count : ℕ}
    (hbase : ∀ ch, t'.update ch = t.update ch) (hnear : Near S ch ch')
    (hahead : AtStale S fun k => InsideAhead k count ch)
    (hover : ch.triggerZsl.superbufBufdoneOverflow fuel = some chEnd)
    (hloop : Loop.run (ChannelThread.dispatchBody ch.queue.attr.notifyMode) fuel (t.update chEnd) = some u) :
    ∃ chEnd' u', ch'.triggerZsl.superbufBufdoneOverflow fuel = some chEnd' ∧
      Loop.run (ChannelThread.dispatchBody ch'.queue.attr.notifyMode) fuel (t'.update chEnd') =
        some u' ∧ SameBut S u u' := by
  have hmode : ch'.queue.attr.notifyMode = ch.queue.attr.notifyMode := by
    obtain ⟨ids, rfl, -⟩ := hnear
    rfl
  have hcap := respected_capture.bufdoneOverflow hover
  have hkeep : chEnd.captureFrameId = ch.triggerZsl.captureFrameId :=
    respected_captureFrameId.bufdoneOverflow hover
  obtain ⟨ids, htrigger, hids⟩ := hnear.triggerZsl
  have hstart : SameBut S (t.update chEnd) (t'.update (chEnd.withIds ids)) := by
    rw [hbase]
    refine ⟨ids, rfl, fun i hi => ?_⟩
    change ids i = chEnd.captureFrameId i
    rw [hkeep]
    exact hids i hi
  let I : ChannelThread → Prop := fun t => AtStale S fun k =>
    Inside k count t.ch.capture ∧ t.ch.queue.attr.notifyMode = ch.queue.attr.notifyMode
  have hcurrent : ∀ s, I s → CurrentSame S s := by
    intro s hs hon hstale
    have hlt : s.ch.curCaptureIdx < s.ch.curCaptureIdx := (hs _ hstale).2.1.current hon
    omega
  have hbody : ∀ s s', SameBut S s s' ∧ I s → Loop.RoundRel (fun s s' => SameBut S s s' ∧ I s)
      (dispatchBody ch.queue.attr.notifyMode s)
      (dispatchBody ch.queue.attr.notifyMode s') := by
    rintro s s' ⟨hsame, hs⟩
    have hkept : ∀ v, (dispatchBody ch.queue.attr.notifyMode s = .yield v ∨
        dispatchBody ch.queue.attr.notifyMode s = .done v) → I v := by
      intro v hv k hk
      obtain ⟨hlt, hin⟩ := hs k hk
      exact ⟨hlt, inside_dispatchBody (by rw [maxCaptureBatchNum] at hlt; omega) hin hv⟩
    have hround := hsame.dispatchBody (hcurrent s hs) fun v hv => hcurrent v (hkept v (.inl hv))
    generalize dispatchBody ch.queue.attr.notifyMode s = b at hround hkept
    generalize dispatchBody ch.queue.attr.notifyMode s' = b' at hround
    cases hround with
    | done hv => exact .done ⟨hv, hkept _ (.inr rfl)⟩
    | yield hv => exact .yield ⟨hv, hkept _ (.inl rfl)⟩
  have hI : I (t.update chEnd) := by
    intro k hk
    obtain ⟨hlt, hin⟩ := hahead k hk
    refine ⟨hlt, ?_, (congrArg CaptureControls.notifyMode hcap).trans (notifyMode_triggerZsl ch)⟩
    change Inside k count chEnd.capture
    rw [hcap]
    exact hin.triggerZsl
  obtain ⟨u', hrun, hu, -⟩ := Loop.run_pair hbody ⟨hstart, hI⟩ hloop
  refine ⟨chEnd.withIds ids, u', ?_, ?_, hu⟩
  · rw [htrigger]
    exact bufdoneOverflow_with ids hover
  · rw [hmode]
    exact hrun

theorem sameBut_afterCmd {cmd : MmCameraCmdcb} {ch ch' : MmChannel} {u : ChannelThread}
    {fuel count : ℕ} (hbase : ∀ ch, t'.update ch = t.update ch)
    (hcmd : t.ch.handleCmd fuel cmd = some ch) (hcmd' : t'.ch.handleCmd fuel cmd = some ch')
    (hnear : Near S ch ch') (hahead : AtStale S fun k => InsideAhead k count ch)
    (hstep : t.processStreamBuf fuel cmd = some u) :
    ∃ u', t'.processStreamBuf fuel cmd = some u' ∧ SameBut S u u' := by
  rw [processStreamBuf, hcmd] at hstep
  rw [processStreamBuf, hcmd']
  simp only at hstep ⊢
  split at hstep
  · cases hstep
    obtain ⟨ids, rfl, hids⟩ := hnear
    exact ⟨_, rfl, ids, hbase _, hids⟩
  · split at hstep
    · cases hstep
    · rename_i chEnd hover
      obtain ⟨chEnd', u', hover', hloop', hu⟩ :=
        sameBut_dispatch hbase hnear hahead hover hstep
      simp only [hover']
      exact ⟨u', hloop', hu⟩

/-- **A command that leaves room** to every stale batch. -/
theorem SameBut.step {cmd : MmCameraCmdcb} {u : ChannelThread} {count : ℕ} (h : SameBut S t t')
    (hpos : ∀ k, S k → 0 < k) (hin : AtStale S fun k => Inside k count t.ch.capture)
    (hroom : ∀ k, S k → t.ch.LeavesRoom k cmd) (hstep : Step t cmd u) :
    ∃ u', Step t' cmd u' ∧ SameBut S u u' ∧ AtStale S fun k => Inside k count u.ch.capture := by
  have hinside : AtStale S fun k => Inside k count u.ch.capture := fun k hk =>
    have hlt : k < 256 := (hin k hk).1.trans (by decide)
    ⟨(hin k hk).1, inside_step (hpos k hk) hlt (hin k hk).2 (hroom k hk) hstep⟩
  obtain ⟨fuel, hstep⟩ := hstep
  have hcmd : ∃ ch, t.ch.handleCmd fuel cmd = some ch := by
    rw [processStreamBuf] at hstep
    split at hstep
    · cases hstep
    · exact ⟨_, ‹_›⟩
  obtain ⟨ch, hcmd⟩ := hcmd
  have hcur : t.ch.isConfigCapture = true → ¬ S t.ch.curCaptureIdx := by
    intro hon hstale
    have hlt : t.ch.curCaptureIdx < t.ch.curCaptureIdx := (hin _ hstale).2.current hon
    omega
  obtain ⟨ids, rfl, hids⟩ := h
  have hnear₀ : Near S t.ch (t.ch.withIds ids) := ⟨ids, rfl, hids⟩
  obtain ⟨ch', hcmd', hnear⟩ := hnear₀.handleCmd hcur hcmd
  obtain ⟨u', hu', hsame⟩ := @sameBut_afterCmd S t (t.withIds ids) _ _ _ _ _ count (fun _ => rfl) hcmd hcmd' hnear
    (fun k hk => ⟨(hin k hk).1, (hin k hk).2.handleCmd (hpos k hk) (hroom k hk) hcmd⟩) hstep
  exact ⟨u', ⟨fuel, hu'⟩, hsame, hinside⟩

/-! ### Runs -/

/-- The two threads agree on everything but the ids, the settings and the index of the batches. The
arrays of both have the same length: behind them the same memory follows. -/
def AgreeButCapture (t t' : ChannelThread) : Prop :=
  ∃ ids config idx, t' = { t with ch := { t.ch with
      captureFrameId := ids, frameConfig := config, curCaptureIdx := idx } } ∧
    ∀ i, maxCaptureBatchNum ≤ i → ids i = t.ch.captureFrameId i ∧ config.configs i = t.ch.frameConfig.configs i

/-- A pair of threads takes a command. -/
def PairStep (p : ChannelThread × ChannelThread) (cmd : MmCameraCmdcb) (q : ChannelThread × ChannelThread) : Prop :=
  Step p.1 cmd q.1 ∧ Step p.2 cmd q.2

/-- The id of a batch is **stale**: it is not among those that are cleared, and differs. -/
def Stale (p : ChannelThread × ChannelThread) (k : ℕ) : Prop :=
  maxCaptureBatchNum / 4 ≤ k ∧ p.2.ch.captureFrameId k ≠ p.1.ch.captureFrameId k
deriving Decidable

/-- The frames that are asked for end before a stale batch does. -/
def RoomToStale (p : ChannelThread × ChannelThread) (cmd : MmCameraCmdcb) : Prop :=
  ∀ k < maxCaptureBatchNum, Stale p k → p.1.ch.LeavesRoom k cmd

instance (p : ChannelThread × ChannelThread) : DecidablePred (RoomToStale p) := fun cmd =>
  inferInstanceAs (Decidable (∀ k < maxCaptureBatchNum, Stale p k → p.1.ch.LeavesRoom k cmd))

/-- **The invariant**: the threads differ at stale batches only, and the accesses behind the first
`count` are before these. -/
structure Alike (count : ℕ) (p : ChannelThread × ChannelThread) : Prop where
  same : SameBut (Stale p) p.1 p.2
  inside : AtStale (Stale p) fun k => Inside k count p.1.ch.capture

theorem Alike.of_sameBut {p : ChannelThread × ChannelThread} {count : ℕ} (h : SameBut S p.1 p.2)
    (hcleared : ∀ k, S k → maxCaptureBatchNum / 4 ≤ k)
    (hin : AtStale S fun k => Inside k count p.1.ch.capture) : Alike count p := by
  obtain ⟨t, t'⟩ := p
  change SameBut S t t' at h
  obtain ⟨ids, rfl, hids⟩ := h
  refine ⟨⟨ids, rfl, fun i hi => ?_⟩, fun k hk => hin k ?_⟩
  · by_cases hS : S i
    · by_contra hne
      exact hi ⟨hcleared i hS, hne⟩
    · exact hids i hS
  · by_contra hS
    exact hk.2 (hids k hS)

/-- What a command preserves. -/
theorem Alike.step {p q : ChannelThread × ChannelThread} {cmd : MmCameraCmdcb} {count : ℕ}
    (h : Alike count p) (hroom : RoomToStale p cmd) (hstep : PairStep p cmd q) : Alike count q := by
  have hpos : ∀ k, Stale p k → 0 < k := fun k hk => lt_of_lt_of_le (by decide) hk.1
  obtain ⟨u', hu', hsame, hin⟩ := h.same.step hpos h.inside (fun k hk => hroom k (h.inside k hk).1 hk) hstep.1
  obtain rfl := hstep.2.unique hu'
  exact .of_sameBut hsame (fun k hk => hk.1) hin

theorem alike_start {config : CamCaptureFrameConfig} {u u' : ChannelThread} (h : AgreeButCapture t t')
    (hroom : RoomToStale (t, t') (.general { type := .captureSetting, start := true, frameConfig := config }))
    (hstep : PairStep (t, t') (.general { type := .captureSetting, start := true, frameConfig := config }) (u, u')) :
    Alike t.ch.capture.accesses.length (u, u') := by
  obtain ⟨⟨fuel, hstep⟩, hstep'⟩ := hstep
  change t.processStreamBuf fuel _ = some u at hstep
  obtain ⟨ids, old, idx, rfl, hends⟩ := h
  let t₂ : ChannelThread := { t with ch := { t.ch with
    captureFrameId := ids, frameConfig := old, curCaptureIdx := idx } }
  have hstale : ∀ k, Stale (t, t₂) k → k < maxCaptureBatchNum := by
    intro k hk
    by_contra hlt
    exact hk.2 (hends k (by omega)).1
  have hconfig : filterConfig old config = filterConfig t.ch.frameConfig config := by
    simp only [filterConfig]
    congr 1
    funext i
    by_cases hi : i < maxCaptureBatchNum
    · rw [if_pos hi, if_pos hi]
    · rw [if_neg hi, if_neg hi, (hends i (by omega)).2]
  have hnear : Near (Stale (t, t₂)) (t.ch.captureSetting true config) (t₂.ch.captureSetting true config) := by
    refine ⟨fun i => if i < maxCaptureBatchNum / 4 then 0 else ids i, ?_, fun i hi => ?_⟩
    · simp only [MmChannel.captureSetting, MmChannel.withIds, t₂, if_true, hconfig]
    · simp only [captureSetting]
      split
      · rfl
      · by_contra hne
        exact hi ⟨by omega, hne⟩
  have hahead : AtStale (Stale (t, t₂)) fun k =>
      InsideAhead k t.ch.capture.accesses.length (t.ch.captureSetting true config) := by
    intro k hk
    have hpos : 0 < k := lt_of_lt_of_le (by decide) hk.1
    refine ⟨hstale k hk, fun i hi => ?_, fun _ => hpos, hroom k (hstale k hk) hk rfl⟩
    have hacc : (t.ch.captureSetting true config).capture.accesses = t.ch.capture.accesses := rfl
    rw [hacc, drop_length] at hi
    cases hi
  have hinside : AtStale (Stale (t, t₂)) fun k =>
      Inside k t.ch.capture.accesses.length u.ch.capture := by
    intro k hk
    have hlt : k < 256 := (hstale k hk).trans (by decide)
    refine ⟨hstale k hk, ?_⟩
    have hstep₁ := hstep
    rw [processStreamBuf] at hstep₁
    simp only [handleCmd, generalCmd] at hstep₁
    split at hstep₁
    · cases hstep₁
    · rename_i chEnd hover
      exact inside_dispatch hlt (hahead k hk).2 hover hstep₁
  obtain ⟨u₂, hu₂, hsame⟩ := @sameBut_afterCmd (Stale (t, t₂)) t t₂
    (.general { type := .captureSetting, start := true, frameConfig := config }) _ _ _ fuel _
    (fun _ => rfl) rfl rfl hnear hahead hstep
  obtain rfl := hstep'.unique ⟨fuel, hu₂⟩
  exact .of_sameBut hsame (fun k hk => hk.1) hinside

/-- **In a run that leaves room** a capture setting makes the earlier capture unseen: the same
super-buffers are dispatched, and the same buffers returned, by the channel and by those that the
frame-sync table names. -/
theorem captures_alike_run {config : CamCaptureFrameConfig} {cmds : List MmCameraCmdcb}
    {u u' : ChannelThread} (h : AgreeButCapture t t')
    (hrun : Run (guarded RoomToStale PairStep) (t, t')
      (.general { type := .captureSetting, start := true, frameConfig := config } :: cmds) (u, u')) :
    u'.ch.out = u.ch.out ∧ u'.peers = u.peers := by
  obtain ⟨⟨s, s'⟩, hfirst, hrest⟩ := hrun.first
  have hend : Alike t.ch.capture.accesses.length (u, u') := hrest.invariant
    (I := fun p => Alike t.ch.capture.accesses.length p)
    (fun p cmd q hp hstep => hp.step hstep.1 hstep.2) (alike_start h hfirst.1 hfirst.2)
  obtain ⟨ids, heq, -⟩ := hend.same
  have hu : u' = u.withIds ids := heq
  rw [hu]
  exact ⟨rfl, rfl⟩

/-- A channel whose last capture has left an id at batch 8. -/
def leftChannel : MmChannel := { burstChannel with captureFrameId := fun i => if i = 8 then 1000 else 0 }

theorem agree_leftChannel : AgreeButCapture { ch := burstChannel } { ch := leftChannel } := by
  refine ⟨leftChannel.captureFrameId, {}, 0, rfl, fun i hi => ⟨?_, rfl⟩⟩
  rw [maxCaptureBatchNum] at hi
  exact if_neg (by omega)

/-- Both threads on a command, with the same budget. -/
def processPair (fuel : ℕ) (p : ChannelThread × ChannelThread) (cmd : MmCameraCmdcb) :
    Option (ChannelThread × ChannelThread) :=
  (p.1.processStreamBuf fuel cmd).bind fun t => (p.2.processStreamBuf fuel cmd).map (t, ·)

theorem pairStep_of_processPair {fuel : ℕ} {p q : ChannelThread × ChannelThread}
    {cmd : MmCameraCmdcb} (h : processPair fuel p cmd = some q) : PairStep p cmd q := by
  obtain ⟨t, ht, h⟩ := bind_eq_some_iff.mp h
  obtain ⟨t', ht', rfl⟩ := map_eq_some_iff.mp h
  exact ⟨⟨fuel, ht⟩, ⟨fuel, ht'⟩⟩

/-- Nine batches of one frame, the last of them with the id that was left: a request for two frames
leaves room. -/
theorem captures_alike_two : ∃ u u', Run (guarded RoomToStale PairStep) ({ ch := burstChannel }, { ch := leftChannel })
      [.general (flashBatches 9), .reqDataCb { numBufRequested := 2 }, .dataCb (burstBuf 1),
        .dataCb (burstBuf 2)] (u, u') ∧
      .cbEnq [(burstBuf 2).buf] false false ∈ u.ch.out ∧
      u'.ch.out = u.ch.out ∧ u'.peers = u.peers := by
  have hex : (exec (fun p cmd => decide (RoomToStale p cmd)) (processPair 5)
      ({ ch := burstChannel }, { ch := leftChannel })
      [.general (flashBatches 9), .reqDataCb { numBufRequested := 2 }, .dataCb (burstBuf 1), .dataCb (burstBuf 2)]).map
      (fun p => decide (.cbEnq [(burstBuf 2).buf] false false ∈ p.1.ch.out)) = some true := by
    decide +kernel
  obtain ⟨⟨u, u'⟩, hu, hfact⟩ := map_eq_some_iff.mp hex
  have hrun : Run (guarded RoomToStale PairStep) ({ ch := burstChannel }, { ch := leftChannel }) _
      (u, u') := (run_of_exec hu).mono fun _ _ _ hstep =>
    ⟨of_decide_eq_true hstep.1, pairStep_of_processPair hstep.2⟩
  exact ⟨u, u', hrun, of_decide_eq_true hfact, captures_alike_run agree_leftChannel hrun⟩

/-- A request for all nine frames: the ninth is dispatched on one channel, and on the other, where it
is older than the id that was left, it is not. -/
theorem stale_id_discards : AgreeButCapture { ch := burstChannel } { ch := leftChannel } ∧ ∃ u u',
    Run PairStep ({ ch := burstChannel }, { ch := leftChannel })
      (.general (flashBatches 9) :: .reqDataCb { numBufRequested := 9 } ::
        (range' 1 9).map (MmCameraCmdcb.dataCb <| burstBuf ·)) (u, u') ∧
      .cbEnq [(burstBuf 9).buf] false false ∈ u.ch.out ∧
      .cbEnq [(burstBuf 9).buf] false false ∉ u'.ch.out := by
  have hex : (exec (fun _ _ => true) (processPair 5) ({ ch := burstChannel }, { ch := leftChannel })
      (.general (flashBatches 9) :: .reqDataCb { numBufRequested := 9 } ::
        (range' 1 9).map (MmCameraCmdcb.dataCb <| burstBuf ·))).map
      (fun p => decide (.cbEnq [(burstBuf 9).buf] false false ∈ p.1.ch.out ∧
        .cbEnq [(burstBuf 9).buf] false false ∉ p.2.ch.out)) = some true := by
    decide +kernel
  obtain ⟨⟨u, u'⟩, hu, hfact⟩ := map_eq_some_iff.mp hex
  exact ⟨agree_leftChannel, u, u', (run_of_exec hu).mono fun _ _ _ hstep =>
    pairStep_of_processPair hstep.2, of_decide_eq_true hfact⟩

end ChannelThread

end Marlin
