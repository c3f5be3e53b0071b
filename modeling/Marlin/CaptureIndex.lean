import Marlin.SuperbufNodes

/-!
# The Index of the Current Batch

`cur_capture_idx` names the batch of a configured capture that the next super-buffer belongs to. It
goes up when a batch has all its frames, and nothing compares it with the size of the arrays: only
the request, which asks for some number of super-buffers, keeps it inside.

## Conventions

`MmChannel.out` has an entry for each access at `cur_capture_idx`, so that what holds of every access
of a run can be read off the channel at its end.

## Main results

* `Touches`: what the functions of the queue do to the capture controls.
* `HasRoom`: the frames that are still asked for end before the last batch of the array does.
* `accesses_inside_run`: then every access is inside the array.
* `access_past_end`: a request for one frame more than the batches have runs past it.
-/

namespace Marlin

open List Transition

/-- The index of an access. -/
def Action.access : Action → Option ℕ
  | .captureAccess idx => some idx
  | _ => none

namespace MmChannel

/-- The fields that steer a configured capture, and the accesses so far. -/
structure CaptureControls where
  pendingCnt : ℕ
  manualZSLSnapshot : Bool
  startZSlSnapshotCalled : Bool
  isConfigCapture : Bool
  curCaptureIdx : ℕ
  frameConfig : CamCaptureFrameConfig
  notifyMode : NotifyMode
  accesses : List ℕ

/-- The capture controls of a channel. -/
def capture (ch : MmChannel) : CaptureControls where
  pendingCnt := ch.pendingCnt
  manualZSLSnapshot := ch.manualZSLSnapshot
  startZSlSnapshotCalled := ch.startZSlSnapshotCalled
  isConfigCapture := ch.isConfigCapture
  curCaptureIdx := ch.curCaptureIdx
  frameConfig := ch.frameConfig
  notifyMode := ch.queue.attr.notifyMode
  accesses := ch.out.filterMap Action.access

/-- The accesses grow by some at the current index, in a configured capture only. -/
def Touches (c c' : CaptureControls) : Prop :=
  ∃ l, (∀ i ∈ l, c.isConfigCapture = true ∧ i = c.curCaptureIdx) ∧ c' = { c with accesses := c.accesses ++ l }

theorem Touches.refl (c : CaptureControls) : Touches c c :=
  ⟨[], by simp, by rw [append_nil]⟩

theorem Touches.of_eq {c c' : CaptureControls} (h : c' = c) : Touches c c' := h ▸ Touches.refl c

theorem Touches.trans {c c' c'' : CaptureControls} (h : Touches c c') (h' : Touches c' c'') : Touches c c'' := by
  obtain ⟨l, hl, rfl⟩ := h
  obtain ⟨l', hl', rfl⟩ := h'
  refine ⟨l ++ l', fun i hi => ?_, by rw [append_assoc]⟩
  rcases mem_append.mp hi with hi | hi
  · exact hl i hi
  · exact hl' i hi

/-! ### Taking nodes out -/

@[simp] theorem capture_qbufs (ch : MmChannel) (bs : List MmCameraBufDef) : (ch.qbufs bs).capture = ch.capture := by
  simp [capture, qbufs, filterMap_append, Action.access]

theorem capture_call (ch : MmChannel) {a : Action} (ha : a.access = none) : (ch.call a).capture = ch.capture := by
  simp [capture, call, filterMap_append, ha]

theorem capture_captureAccess (ch : MmChannel) (idx : ℕ) : (ch.call (.captureAccess idx)).capture =
      { ch.capture with accesses := ch.capture.accesses ++ [idx] } := by
  simp [capture, call, filterMap_append, Action.access]

@[simp] theorem capture_afterDequeue (ch : MmChannel) (n : MmChannelQueueNode)
    (rest : List MmChannelQueueNode) : (ch.afterDequeue n rest).capture = ch.capture := by
  rw [afterDequeue]
  split
  · simp only
    split
    · rw [capture_call _ rfl]
      rfl
    · rfl
  · rfl

theorem respected_capture : Respected fun ch ch' => ch'.capture = ch.capture :=
  .of_view capture_qbufs capture_afterDequeue

theorem capture_dequeueFrameInternal (ch : MmChannel) (frameIdx : ℕ) :
    (ch.superbufDequeueFrameInternal frameIdx).2.capture = ch.capture := by
  rw [superbufDequeueFrameInternal]
  split
  · rfl
  · rfl

/-! ### Metadata -/

theorem capture_noteDivertInfo (ch : MmChannel) (frameIdx : ℕ) (divertInfo : Option ℕ) :
    (ch.noteDivertInfo frameIdx divertInfo).capture = ch.capture := by
  cases divertInfo <;> rfl

theorem capture_zoom1xFrame (ch : MmChannel) (frameIdx : ℕ) (found : Bool) :
    (ch.zoom1xFrame frameIdx found).capture = ch.capture := by
  rw [zoom1xFrame]
  split
  · rfl
  · rw [respected_capture.flushMatched]
    rfl

theorem capture_prepSnapshotDone (ch : MmChannel) (state : Option ℤ) :
    (ch.prepSnapshotDone state).capture = ch.capture := by
  unfold prepSnapshotDone
  split
  · rfl
  · split
    · exact respected_capture.flush { ch with
        bWaitForPrepSnapshotDone := false
        queue.expectedFrameId :=
          addU32 ch.queue.expectedFrameId mmCameraMaxFutureFrameWait } .default
    · rfl

theorem capture_goodFrameRange (ch : MmChannel) (range : Option CamFrameIdxRange) (prep : Bool) :
    (ch.goodFrameRange range prep).capture = ch.capture := by
  unfold goodFrameRange
  split
  · simp only
    split
    · rfl
    · rfl
  · split
    · exact respected_capture.flushMatched ch
    · rfl

theorem capture_goodFrameBracketing (ch : MmChannel) (range : Option CamFrameIdxRange) :
    (ch.goodFrameBracketing range).capture = ch.capture := by
  unfold goodFrameBracketing
  split
  · rfl
  · split
    · rfl
    · rfl

theorem touches_frameConfigId (ch : MmChannel) (range : Option CamFrameIdxRange) :
    Touches ch.capture (ch.frameConfigId range).capture := by
  unfold frameConfigId
  split
  · exact .refl _
  · rename_i r
    split
    · rename_i hconfig
      simp only
      split
      · exact .of_eq rfl
      · refine ⟨[ch.curCaptureIdx], fun i hi => ⟨hconfig.1, mem_singleton.mp hi⟩, ?_⟩
        simp [capture, call, filterMap_append, Action.access]
    · exact .refl _

theorem capture_ledOffFrame (ch : MmChannel) (frameIdx : ℕ) : (ch.ledOffFrame frameIdx).capture = ch.capture := by
  rw [ledOffFrame]
  split
  · rfl
  · rfl

theorem capture_lowLightLevel (ch : MmChannel) (level : Option ℕ) : (ch.lowLightLevel level).capture = ch.capture := by
  cases level <;> rfl

theorem capture_userExpectedFrame (ch : MmChannel) (frameIdx : ℕ) (aecSettled : Option Bool) :
    (ch.userExpectedFrame frameIdx aecSettled).capture = ch.capture := by
  rw [userExpectedFrame]
  split_ifs
  · rfl
  · rfl
  · rfl
  · rfl

theorem touches_applyMetadata (ch : MmChannel) (frameIdx : ℕ) (metadata : MetadataBuffer) :
    Touches ch.capture (ch.applyMetadata frameIdx metadata).capture := by
  simp only [applyMetadata]
  split
  · rw [capture_zoom1xFrame, capture_noteDivertInfo]
    exact .refl _
  · rw [capture_userExpectedFrame, capture_lowLightLevel, capture_ledOffFrame]
    refine Touches.trans (.of_eq ?_) (touches_frameConfigId _ _)
    rw [capture_goodFrameBracketing, capture_goodFrameRange, capture_prepSnapshotDone, capture_noteDivertInfo]

theorem touches_handleMetadata (ch : MmChannel) (b : MmCameraBufInfo) :
    Touches ch.capture (ch.handleMetadata b).2.capture := by
  rw [handleMetadata]
  split
  · exact .refl _
  · split
    · exact .refl _
    · split
      · split
        · exact .refl _
        · exact touches_applyMetadata ch b.frameIdx _
      · exact .refl _

/-! ### Putting a buffer in -/

theorem capture_countMatch (ch : MmChannel) (frameIdx : ℕ) : (ch.countMatch frameIdx).capture = ch.capture := by
  have hcount : ({ ch with queue.matchCnt := ch.queue.matchCnt + 1 }.call
      (.superBufMatched frameIdx)).capture = ch.capture := capture_call _ rfl
  simp only [countMatch]
  split
  · rw [capture_call _ rfl, hcount]
  · exact hcount

theorem capture_releaseOlder (ch : MmChannel) (lastBuf : Option ℕ) (pos : ℕ) :
    (ch.releaseOlder lastBuf pos).capture = ch.capture := by
  unfold releaseOlder
  split
  · rfl
  · exact capture_qbufs ch _

theorem capture_completeNode (ch : MmChannel) (s : SuperbufScan) (frameIdx : ℕ)
    (n : MmChannelQueueNode) : (ch.completeNode s frameIdx n).capture = ch.capture := by
  have hexpect : (ch.expectNext frameIdx).capture = ch.capture := by
    rw [expectNext]
    split
    · rfl
    · rfl
  rw [completeNode, capture_releaseOlder, capture_countMatch, ← hexpect]
  rfl

theorem capture_joinNode (ch : MmChannel) (bufSIdx : ℕ) (b : MmCameraBufInfo) (s : SuperbufScan)
    (n : MmChannelQueueNode) : (ch.joinNode bufSIdx b s n).capture = ch.capture := by
  simp only [joinNode, keepNode]
  split
  · exact capture_qbufs _ _
  · split
    · exact capture_completeNode _ _ _ _
    · split
      · rfl
      · rfl

theorem capture_makeRoom (ch : MmChannel) (s : SuperbufScan) : (ch.makeRoom s).capture = ch.capture := by
  rw [makeRoom]
  split
  · rfl
  · exact capture_qbufs ch _

theorem capture_linkNode (ch : MmChannel) (bufSIdx : ℕ) (b : MmCameraBufInfo) (i : ℕ) :
    (ch.linkNode bufSIdx b i).capture = ch.capture := by
  simp only [linkNode]
  split
  · exact capture_countMatch _ _
  · rfl

theorem capture_insertNew (ch : MmChannel) (bufSIdx : ℕ) (b : MmCameraBufInfo) (s : SuperbufScan) :
    (ch.insertNew bufSIdx b s).capture = ch.capture := by
  have hroom : { ch.makeRoom s with mallocs := (ch.makeRoom s).mallocs + 2 }.capture =
      ch.capture := capture_makeRoom ch s
  simp only [insertNew]
  split
  · exact capture_qbufs _ _
  · split
    · rw [capture_linkNode, hroom]
    · rw [capture_qbufs, hroom]

theorem touches_superbufCompAndEnqueue (ch : MmChannel) (b : MmCameraBufInfo) :
    Touches ch.capture (ch.superbufCompAndEnqueue b).2.capture := by
  have hmeta := touches_handleMetadata ch b
  simp only [superbufCompAndEnqueue]
  split
  · exact .refl _
  · split
    · exact .of_eq (capture_qbufs _ _)
    · split
      · rw [capture_qbufs]
        exact hmeta
      · split
        · rw [capture_qbufs]
          exact hmeta
        · refine hmeta.trans (.of_eq ?_)
          simp only [superbufComp]
          split
          · exact capture_joinNode _ _ _ _ _
          · exact capture_insertNew _ _ _ _

/-! ### Room for the frames that are asked for -/

/-- The frames that end the batches from `idx` up to `bound`. A batch that asks for no frame is ended
by one. -/
def framesFrom (bound : ℕ) (configs : ℕ → CamCaptureSettings) (idx : ℕ) : ℕ :=
  ((List.range' idx (bound - idx)).map fun i => max 1 (configs i).numFrames.toNat).sum

/-- A batch from `idx` on, below `bound`, asks for a negative number of frames: it has no end. -/
def Endless (bound : ℕ) (configs : ℕ → CamCaptureSettings) (idx : ℕ) : Prop :=
  ∃ i, idx ≤ i ∧ i < bound ∧ (configs i).numFrames < 0

/-- **Room**: the frames that are asked for do not end the last batch below `bound`; or they may, if
the last of them ends the ZSL snapshot, and with it the configured capture. -/
def HasRoom (bound : ℕ) (c : CaptureControls) (startZSL : Bool) : Prop :=
  Endless bound c.frameConfig.configs c.curCaptureIdx ∨
  c.pendingCnt < framesFrom bound c.frameConfig.configs c.curCaptureIdx ∨
  (c.pendingCnt ≤ framesFrom bound c.frameConfig.configs c.curCaptureIdx ∧
    c.manualZSLSnapshot = false ∧ startZSL = true)

/-- A ZSL snapshot is started for the frames that are asked for. -/
def startsZsl (ch : MmChannel) : Bool :=
  ch.needStartZSL || (decide (0 < ch.pendingCnt) && (ch.needLEDFlash || ch.bracketingState != .off))

/-- There is room in a configured capture in burst mode, where a ZSL snapshot is or is started. -/
def RoomAhead (bound : ℕ) (ch : MmChannel) : Prop :=
  ch.isConfigCapture = true → ch.queue.attr.notifyMode = .burst →
    HasRoom bound ch.capture (ch.startZSlSnapshotCalled || ch.startsZsl)

/-- **A command that leaves room**: each one that asks for frames, sets the batches, turns the burst
mode on or takes the ZSL snapshot over. -/
def LeavesRoom (bound : ℕ) (ch : MmChannel) : MmCameraCmdcb → Prop
  | .reqDataCb req => (ch.requestBuf req).RoomAhead bound
  | .startZsl => { ch with manualZSLSnapshot := true }.RoomAhead bound
  | .configNotify notifyMode => { ch with queue.attr.notifyMode := notifyMode }.RoomAhead bound
  | .general cmd =>
    cmd.type = .captureSetting → (ch.captureSetting cmd.start cmd.frameConfig).RoomAhead bound
  | _ => True

/-- The accesses behind the first `count` are below `bound`, and so is the current index. -/
structure Inside (bound count : ℕ) (c : CaptureControls) : Prop where
  accesses : ∀ i ∈ c.accesses.drop count, i < bound
  current : c.isConfigCapture = true → c.curCaptureIdx < bound
  room : c.isConfigCapture = true → c.notifyMode = .burst → HasRoom bound c c.startZSlSnapshotCalled

instance (bound : ℕ) (configs : ℕ → CamCaptureSettings) (idx : ℕ) : Decidable (Endless bound configs idx) :=
  decidable_of_iff (∃ i, i < bound ∧ idx ≤ i ∧ (configs i).numFrames < 0)
    ⟨fun ⟨i, hlt, hi, hneg⟩ => ⟨i, hi, hlt, hneg⟩, fun ⟨i, hi, hlt, hneg⟩ => ⟨i, hlt, hi, hneg⟩⟩

instance (bound : ℕ) (c : CaptureControls) (startZSL : Bool) : Decidable (HasRoom bound c startZSL) :=
  inferInstanceAs (Decidable (_ ∨ _ ∨ _ ∧ _ ∧ _))

instance (bound : ℕ) (ch : MmChannel) : Decidable (ch.RoomAhead bound) :=
  inferInstanceAs (Decidable (_ → _ → _))

instance (bound : ℕ) (ch : MmChannel) : DecidablePred (ch.LeavesRoom bound) := fun e => by
  delta LeavesRoom
  cases e <;> infer_instance

variable {bound count : ℕ} {c c' : CaptureControls}

theorem mem_accesses {l l' : List ℕ} {i : ℕ} (h : i ∈ (l ++ l').drop count) : i ∈ l.drop count ∨ i ∈ l' := by
  rw [drop_append] at h
  exact (mem_append.mp h).imp id mem_of_mem_drop

theorem Touches.inside (h : Touches c c') (hc : Inside bound count c) : Inside bound count c' := by
  obtain ⟨l, hl, rfl⟩ := h
  refine ⟨fun i hi => ?_, hc.current, hc.room⟩
  rcases mem_accesses hi with hi | hi
  · exact hc.accesses i hi
  · obtain ⟨hconfig, rfl⟩ := hl i hi
    exact hc.current hconfig

variable {configs : ℕ → CamCaptureSettings} {idx : ℕ}

theorem framesFrom_lt (h : idx < bound) : framesFrom bound configs idx =
      max 1 (configs idx).numFrames.toNat + framesFrom bound configs (idx + 1) := by
  obtain ⟨n, hn⟩ : ∃ n, bound - idx = n + 1 := ⟨bound - idx - 1, by omega⟩
  rw [framesFrom, framesFrom, hn, range'_succ, map_cons, sum_cons,
    show bound - (idx + 1) = n by omega]

theorem framesFrom_end (h : bound ≤ idx) : framesFrom bound configs idx = 0 := by
  rw [framesFrom, Nat.sub_eq_zero_of_le h]
  rfl

theorem framesFrom_congr {configs' : ℕ → CamCaptureSettings} (h : ∀ i, idx ≤ i → configs i = configs' i) :
    framesFrom bound configs idx = framesFrom bound configs' idx := by
  rw [framesFrom, framesFrom]
  refine congrArg sum (map_congr_left fun i hi => ?_)
  rw [h i (mem_range'_1.mp hi).1]

/-- The batches after one frame more was taken for the batch at `idx`. -/
def tickBatch (configs : ℕ → CamCaptureSettings) (idx : ℕ) : ℕ → CamCaptureSettings := fun i =>
  if i = idx ∧ (configs idx).numFrames ≠ 0 then
    { configs idx with numFrames := (configs idx).numFrames - 1 }
  else configs i

theorem tickBatch_of_ne {i : ℕ} (h : i ≠ idx) : tickBatch configs idx i = configs i := if_neg fun hi => h hi.1

theorem tickBatch_self : (tickBatch configs idx idx).numFrames =
      if (configs idx).numFrames = 0 then 0 else (configs idx).numFrames - 1 := by
  rw [tickBatch]
  by_cases h : (configs idx).numFrames = 0
  · rw [if_neg (fun hi => hi.2 h), if_pos h, h]
  · rw [if_pos ⟨rfl, h⟩, if_neg h]

/-- The index after a frame of the batch at `idx`. -/
def tickIdx (configs : ℕ → CamCaptureSettings) (idx : ℕ) : ℕ :=
  if (tickBatch configs idx idx).numFrames = 0 then (idx + 1) % 256 else idx

/-- **A frame** is one less to the end of the array, unless a batch has no end. -/
theorem framesFrom_tick (hbound : bound < 256) (h : idx < bound) (hend : ¬ (configs idx).numFrames < 0) :
    framesFrom bound configs idx = framesFrom bound (tickBatch configs idx) (tickIdx configs idx) + 1 := by
  have hrest : framesFrom bound (tickBatch configs idx) (idx + 1) = framesFrom bound configs (idx + 1) :=
    framesFrom_congr fun i hi => tickBatch_of_ne (by omega)
  have hself := @tickBatch_self configs idx
  have hmod : (idx + 1) % 256 = idx + 1 := Nat.mod_eq_of_lt (by omega)
  rw [framesFrom_lt h, tickIdx]
  split
  case isTrue hzero =>
    rw [hmod, hrest]
    rw [hzero] at hself
    split at hself
    · rename_i h0
      rw [h0]
      omega
    · have hone : (configs idx).numFrames = 1 := by omega
      rw [hone]
      omega
  case isFalse hmore =>
    rw [framesFrom_lt h, hrest, hself]
    rw [hself] at hmore
    split
    · rename_i h0
      simp [h0] at hmore
    · rename_i h0
      rw [if_neg h0] at hmore
      omega

theorem Endless.tick (h : Endless bound configs idx) (hbound : bound < 256) (hidx : idx < bound) :
    Endless bound (tickBatch configs idx) (tickIdx configs idx) := by
  obtain ⟨i, hi, hlt, hneg⟩ := h
  have hmod : (idx + 1) % 256 = idx + 1 := Nat.mod_eq_of_lt (by omega)
  rcases Nat.eq_or_lt_of_le hi with rfl | hi
  · have hself : (tickBatch configs idx idx).numFrames = (configs idx).numFrames - 1 := by
      rw [tickBatch_self, if_neg (by omega)]
    refine ⟨idx, ?_, hlt, by omega⟩
    rw [tickIdx, if_neg (by omega)]
  · refine ⟨i, ?_, hlt, by rwa [tickBatch_of_ne (by omega)]⟩
    rw [tickIdx, hmod]
    split <;> omega

theorem Endless.lt (h : Endless bound configs idx) : idx < bound := by
  obtain ⟨i, hi, hlt, -⟩ := h
  omega

theorem lt_of_framesFrom (h : 0 < framesFrom bound configs idx) : idx < bound := by
  by_contra hge
  rw [framesFrom_end (by omega)] at h
  omega

/-! ### A super-buffer in burst mode -/

theorem capture_countPending (ch : MmChannel) :
    ch.countPending.capture = { ch.capture with pendingCnt := subU32 ch.pendingCnt 1 } := rfl

theorem stopZslWhenDone_cases (ch : MmChannel) : ch.stopZslWhenDone.capture =
        { ch.capture with startZSlSnapshotCalled := false, isConfigCapture := false } ∨
      (ch.stopZslWhenDone.capture = ch.capture ∧
        ¬ (ch.pendingCnt = 0 ∧ ch.manualZSLSnapshot = false ∧ ch.startZSlSnapshotCalled = true)) := by
  rw [stopZslWhenDone]
  split
  case isTrue =>
    refine .inl ?_
    simp [capture, call, filterMap_append, Action.access]
  case isFalse hstop =>
    refine .inr ⟨rfl, fun hlast => hstop ?_⟩
    simp [hlast.1, hlast.2.1, hlast.2.2]

theorem capture_batchFrame (ch : MmChannel) :
    ∃ l, (∀ i ∈ l, i = ch.curCaptureIdx ∨ i = tickIdx ch.frameConfig.configs ch.curCaptureIdx) ∧
      ch.countBatchFrame.nextBatch.capture = { ch.capture with
        accesses := ch.capture.accesses ++ l
        curCaptureIdx := tickIdx ch.frameConfig.configs ch.curCaptureIdx
        frameConfig := { ch.frameConfig with
          configs := tickBatch ch.frameConfig.configs ch.curCaptureIdx } } := by
  have hcount : ch.countBatchFrame.capture = { ch.capture with
      accesses := ch.capture.accesses ++ [ch.curCaptureIdx]
      frameConfig := { ch.frameConfig with
        configs := tickBatch ch.frameConfig.configs ch.curCaptureIdx } } := by
    simp only [capture, countBatchFrame, call, filterMap_append, Action.access]
    rfl
  have hnum : (ch.countBatchFrame.frameConfig.configs ch.countBatchFrame.curCaptureIdx).numFrames =
      (tickBatch ch.frameConfig.configs ch.curCaptureIdx ch.curCaptureIdx).numFrames := rfl
  rw [nextBatch, hnum, tickIdx]
  split
  case isTrue =>
    refine ⟨[ch.curCaptureIdx, (ch.curCaptureIdx + 1) % 256], fun i hi => ?_, ?_⟩
    · simpa using hi
    · have hstart : (ch.countBatchFrame.startBatch ch.countBatchFrame.nextCaptureIdx).capture =
          { ch.countBatchFrame.capture with
            accesses := ch.countBatchFrame.capture.accesses ++ [(ch.curCaptureIdx + 1) % 256]
            curCaptureIdx := (ch.curCaptureIdx + 1) % 256 } := by
        simp only [capture, startBatch, call, filterMap_append, Action.access]
        rfl
      rw [hstart, hcount]
      simp
  case isFalse =>
    exact ⟨[ch.curCaptureIdx], fun i hi => .inl (mem_singleton.mp hi), hcount⟩

/-- The controls after a frame of the current batch, but for the accesses. -/
def CaptureControls.tick (c : CaptureControls) : CaptureControls :=
  { c with
    curCaptureIdx := tickIdx c.frameConfig.configs c.curCaptureIdx
    frameConfig := { c.frameConfig with
      configs := tickBatch c.frameConfig.configs c.curCaptureIdx } }

/-- **A frame less to take** leaves room, and the next index inside; the last frame of a ZSL snapshot
does not come so far. -/
theorem HasRoom.tick {started : Bool} (h : HasRoom bound c started) (hbound : bound < 256)
    (hidx : c.curCaptureIdx < bound) (hpending : 0 < c.pendingCnt)
    (hmore : ¬ (c.pendingCnt - 1 = 0 ∧ c.manualZSLSnapshot = false ∧ started = true)) :
    HasRoom bound { c.tick with pendingCnt := c.pendingCnt - 1 } started ∧ c.tick.curCaptureIdx < bound := by
  by_cases hend : Endless bound c.frameConfig.configs c.curCaptureIdx
  · exact ⟨.inl (hend.tick hbound hidx), (hend.tick hbound hidx).lt⟩
  · have hneg : ¬ (c.frameConfig.configs c.curCaptureIdx).numFrames < 0 :=
      fun hneg => hend ⟨c.curCaptureIdx, Nat.le_refl _, hidx, hneg⟩
    have htick := framesFrom_tick hbound hidx hneg
    rcases h with hend' | hlt | ⟨hle, hmanual, hzsl⟩
    · exact absurd hend' hend
    · have hroom : c.pendingCnt - 1 < framesFrom bound c.tick.frameConfig.configs c.tick.curCaptureIdx := by
        simp only [CaptureControls.tick]
        omega
      exact ⟨.inr (.inl hroom), lt_of_framesFrom (Nat.zero_lt_of_lt hroom)⟩
    · have hroom : c.pendingCnt - 1 ≤ framesFrom bound c.tick.frameConfig.configs c.tick.curCaptureIdx := by
        simp only [CaptureControls.tick]
        omega
      have hleft : c.pendingCnt - 1 ≠ 0 := fun hlast => hmore ⟨hlast, hmanual, hzsl⟩
      exact ⟨.inr (.inr ⟨hroom, hmanual, hzsl⟩), lt_of_framesFrom (Nat.lt_of_lt_of_le (Nat.pos_of_ne_zero hleft) hroom)⟩

variable {ch : MmChannel}

theorem Inside.batchFrame (h : Inside bound count ch.capture)
    (hconfig : ch.isConfigCapture = true) (hcur : ch.capture.tick.curCaptureIdx < bound)
    (hroom : HasRoom bound ch.capture.tick ch.startZSlSnapshotCalled) :
    Inside bound count ch.countBatchFrame.nextBatch.capture := by
  obtain ⟨l, hl, heq⟩ := capture_batchFrame ch
  rw [heq]
  refine ⟨fun i hi => ?_, fun _ => hcur, fun _ _ => hroom⟩
  rcases mem_accesses hi with hi | hi
  · exact h.accesses i hi
  · rcases hl i hi with rfl | rfl
    · exact h.current hconfig
    · exact hcur

/-- Without a configured capture only the accesses so far count. -/
theorem Inside.off (h : ∀ i ∈ c.accesses.drop count, i < bound)
    (hoff : c.isConfigCapture = false) : Inside bound count c := by
  refine ⟨h, fun hon => ?_, fun hon => ?_⟩
  · simp [hoff] at hon
  · simp [hoff] at hon

theorem Inside.countBurstFrame (h : Inside bound count ch.capture) (hbound : bound < 256) (hpending : 0 < ch.pendingCnt)
    (hburst : ch.queue.attr.notifyMode = .burst) :
    Inside bound count ch.countBurstFrame.capture := by
  have hsub : subU32 ch.pendingCnt 1 = ch.pendingCnt - 1 := if_pos hpending
  rw [MmChannel.countBurstFrame]
  rcases stopZslWhenDone_cases ch.countPending with heq | ⟨heq, hmore⟩
  · have hoff : ch.countPending.stopZslWhenDone.isConfigCapture = false :=
      congrArg CaptureControls.isConfigCapture heq
    rw [if_neg (by simp [hoff]), heq]
    exact .off h.accesses rfl
  · -- the ZSL snapshot goes on: the controls are those before, with one frame less pending
    generalize ch.countPending.stopZslWhenDone = ch₁ at heq
    have hcap : ch₁.capture = { ch.capture with pendingCnt := ch.pendingCnt - 1 } := by
      rw [heq, capture_countPending, hsub]
    have hconfig : ch₁.isConfigCapture = ch.isConfigCapture :=
      congrArg CaptureControls.isConfigCapture hcap
    have hstarted : ch₁.startZSlSnapshotCalled = ch.startZSlSnapshotCalled :=
      congrArg CaptureControls.startZSlSnapshotCalled hcap
    split
    case isFalse hoff =>
      have hoff' : ch.isConfigCapture = false := by simpa [hconfig] using hoff
      rw [hcap]
      exact .off h.accesses hoff'
    case isTrue hon =>
      rw [hconfig] at hon
      have hidx : ch.curCaptureIdx < bound := h.current hon
      obtain ⟨hroom, hcur⟩ := (h.room hon hburst).tick hbound hidx hpending
        fun hlast => hmore ⟨hsub.trans hlast.1, hlast.2⟩
      refine Inside.batchFrame ?_ (hconfig.trans hon) ?_ ?_
      · rw [hcap]
        refine ⟨h.accesses, h.current, fun hon' hburst' => ?_⟩
        rcases h.room hon' hburst' with hend | hlt | ⟨hle, hzsl⟩
        · exact .inl hend
        · exact .inr (.inl (Nat.lt_of_le_of_lt (Nat.sub_le _ _) hlt))
        · exact .inr (.inr ⟨Nat.le_trans (Nat.sub_le _ _) hle, hzsl⟩)
      · rw [hcap]
        exact hcur
      · rw [hcap, hstarted]
        exact hroom

/-! ### The command -/

variable {ch' : MmChannel}

theorem startsZsl_skip {fuel : ℕ} (h : ch.superbufSkip fuel = some ch') : ch'.startsZsl = ch.startsZsl := by
  have hview : Respected fun ch ch' => ch'.startsZsl = ch.startsZsl := by
    refine .of_view (fun _ _ => rfl) fun ch n rest => ?_
    simp only [afterDequeue]
    split_ifs <;> rfl
  exact hview.skip h

theorem RoomAhead.of_eq (h : ch.RoomAhead bound)
    (hcap : ch'.capture = ch.capture) (hstarts : ch'.startsZsl = ch.startsZsl) :
    ch'.RoomAhead bound := by
  intro hconfig hburst
  have hon : ch.isConfigCapture = true :=
    (congrArg CaptureControls.isConfigCapture hcap).symm.trans hconfig
  have hmode : ch.queue.attr.notifyMode = .burst :=
    (congrArg CaptureControls.notifyMode hcap).symm.trans hburst
  have hstarted : ch'.startZSlSnapshotCalled = ch.startZSlSnapshotCalled :=
    congrArg CaptureControls.startZSlSnapshotCalled hcap
  rw [hcap, hstarts, hstarted]
  exact h hon hmode

/-- The accesses are inside and there is room ahead, before the ZSL snapshot is looked at. -/
structure InsideAhead (bound count : ℕ) (ch : MmChannel) : Prop where
  accesses : ∀ i ∈ ch.capture.accesses.drop count, i < bound
  current : ch.isConfigCapture = true → ch.curCaptureIdx < bound
  room : ch.RoomAhead bound

theorem HasRoom.mono {started started' : Bool} (h : HasRoom bound c started)
    (hle : started = true → started' = true) : HasRoom bound c started' := by
  rcases h with hend | hlt | ⟨hle', hmanual, hzsl⟩
  · exact .inl hend
  · exact .inr (.inl hlt)
  · exact .inr (.inr ⟨hle', hmanual, hle hzsl⟩)

theorem Inside.ahead (h : Inside bound count ch.capture) : InsideAhead bound count ch :=
  ⟨h.accesses, h.current, fun hconfig hburst =>
    (h.room hconfig hburst).mono fun hstarted => by
      change ch.startZSlSnapshotCalled = true at hstarted
      simp [hstarted]⟩

theorem Inside.generalCmd (h : Inside bound count ch.capture) (hpos : 0 < bound)
    {cmd : MmCameraGenericCmd} (hroom : ch.LeavesRoom bound (.general cmd)) :
    InsideAhead bound count (ch.generalCmd cmd) := by
  have hflush := respected_capture.flush ch .default
  have hkeep : ∀ ch' : MmChannel, ch'.capture = (ch.superbufFlush .default).capture → InsideAhead bound count ch' := by
    intro ch' hcap
    refine Inside.ahead ?_
    rw [hcap, hflush]
    exact h
  unfold MmChannel.generalCmd
  split
  · exact hkeep _ rfl
  · exact hkeep _ rfl
  · exact hkeep _ rfl
  · exact hkeep _ rfl
  · rename_i htype
    exact ⟨h.accesses, fun _ => hpos, hroom htype⟩
  · exact h.ahead

theorem Inside.handleCmd {fuel : ℕ} {cmd : MmCameraCmdcb}
    (h : Inside bound count ch.capture) (hpos : 0 < bound) (hroom : ch.LeavesRoom bound cmd)
    (hcmd : ch.handleCmd fuel cmd = some ch') : InsideAhead bound count ch' := by
  cases cmd with
  | dataCb buf =>
    cases hcmd
    exact ((touches_superbufCompAndEnqueue ch buf).inside h).ahead
  | reqDataCb reqBuf =>
    have hskip : (ch.requestBuf reqBuf).superbufSkip fuel = some ch' := hcmd
    have hcap := respected_capture.skip hskip
    refine ⟨?_, fun hconfig => ?_, RoomAhead.of_eq hroom hcap (startsZsl_skip hskip)⟩
    · rw [hcap]
      exact h.accesses
    · have hcur : ch'.curCaptureIdx = ch.curCaptureIdx :=
        congrArg CaptureControls.curCaptureIdx hcap
      have hon : ch'.isConfigCapture = ch.isConfigCapture :=
        congrArg CaptureControls.isConfigCapture hcap
      rw [hcur]
      exact h.current (hon.symm.trans hconfig)
  | startZsl =>
    cases hcmd
    have hcap := capture_call { ch with manualZSLSnapshot := true } (a := .startZslSnapshot) rfl
    refine ⟨?_, h.current, RoomAhead.of_eq hroom hcap rfl⟩
    rw [hcap]
    exact h.accesses
  | stopZsl =>
    cases hcmd
    have hcap := capture_call { ch with manualZSLSnapshot := false } (a := .stopZslSnapshot) rfl
    refine Inside.ahead ?_
    rw [hcap]
    refine ⟨h.accesses, h.current, fun hconfig hburst => ?_⟩
    rcases h.room hconfig hburst with hend | hlt | ⟨hle, -, hzsl⟩
    · exact .inl hend
    · exact .inr (.inl hlt)
    · exact .inr (.inr ⟨hle, rfl, hzsl⟩)
  | configNotify notifyMode =>
    cases hcmd
    exact ⟨h.accesses, h.current, hroom⟩
  | flushQueue frameIdx streamType =>
    cases hcmd
    refine Inside.ahead ?_
    rw [capture_call _ rfl, respected_capture.flush { ch with queue.expectedFrameId := frameIdx } streamType]
    exact h
  | general genCmd =>
    cases hcmd
    exact h.generalCmd hpos hroom
  | other =>
    cases hcmd
    exact h.ahead

/-! ### Start and stop of a ZSL snapshot -/

theorem InsideAhead.start (h : InsideAhead bound count ch)
    (hcap : ch'.capture = { ch.capture with startZSlSnapshotCalled := true }) :
    Inside bound count ch'.capture := by
  rw [hcap]
  exact ⟨h.accesses, h.current, fun hconfig hburst => (h.room hconfig hburst).mono fun _ => rfl⟩

theorem InsideAhead.triggerZsl (h : InsideAhead bound count ch) : Inside bound count ch.triggerZsl.capture := by
  have hstart : ∀ ch' : MmChannel, ch'.startZslForPending.capture =
      { ch'.capture with startZSlSnapshotCalled := true } := by
    intro ch'
    simp [capture, startZslForPending, call, filterMap_append, Action.access]
  rw [MmChannel.triggerZsl]
  split
  · refine h.start ?_
    rw [hstart, respected_capture.flush]
    rfl
  · rename_i hneed
    split
    · exact h.start (hstart ch)
    · rename_i hled
      split
      · refine .off (fun i hi => ?_) rfl
        have hcap := capture_call ch (a := .stopZslSnapshot) rfl
        have hsame : (ch.call .stopZslSnapshot).capture.accesses = ch.capture.accesses :=
          congrArg CaptureControls.accesses hcap
        exact h.accesses i (hsame ▸ hi)
      · refine ⟨h.accesses, h.current, fun hconfig hburst => ?_⟩
        have hon : ch.isConfigCapture = true := hconfig
        rcases h.room hon hburst with hend | hlt | ⟨hle, hmanual, hzsl⟩
        · exact .inl hend
        · exact .inr (.inl hlt)
        · have hoff : ch.manualZSLSnapshot = false := hmanual
          refine .inr (.inr ⟨hle, hmanual, ?_⟩)
          -- a ZSL snapshot that the frames are asked for with was started before
          change ch.startZSlSnapshotCalled = true
          by_contra hnot
          simp only [startsZsl, Bool.or_eq_true, Bool.and_eq_true] at hzsl
          simp only [Bool.and_eq_true, hon, true_and] at hneed
          rcases hzsl with hstarted | hneeded | hled'
          · exact hnot hstarted
          · exact hneed hneeded
          · exact hled (by simp only [Bool.and_eq_true, Bool.or_eq_true, hled', hoff, hnot]; simp)

theorem notifyMode_triggerZsl (ch : MmChannel) : ch.triggerZsl.queue.attr.notifyMode = ch.queue.attr.notifyMode := by
  rw [MmChannel.triggerZsl]
  split
  · exact congrArg CaptureControls.notifyMode (respected_capture.flush ch.deferCapture .default)
  · split
    · rfl
    · split
      · rfl
      · rfl

end MmChannel

namespace ChannelThread

open MmChannel

variable {bound count : ℕ}

/-! ### The dispatch loop -/

theorem touches_takeNodes (t : ChannelThread) : Touches t.ch.capture t.takeNodes.2.ch.capture := by
  rw [takeNodes]
  split
  · exact .of_eq (takeMatchedFrame_respects respected_capture capture_dequeueFrameInternal t)
  · have hdeq := respected_capture.dequeueInternal t.ch true
    have htake : Touches t.ch.capture t.ch.takeNode.2.capture := by
      rw [takeNode, superbufDequeue]
      split
      · rename_i ch heq
        rw [heq] at hdeq
        exact .of_eq hdeq
      · rename_i n ch heq
        rw [heq] at hdeq
        rw [checkExpected]
        split
        · rename_i hconfig
          have haccess : Touches t.ch.capture (ch.call (.captureAccess ch.curCaptureIdx)).capture := by
            refine Touches.trans (.of_eq hdeq) ⟨[ch.curCaptureIdx], fun i hi => ?_, ?_⟩
            · exact ⟨hconfig, mem_singleton.mp hi⟩
            · exact capture_captureAccess ch _
          split
          · rw [capture_qbufs]
            exact haccess
          · exact haccess
        · exact .of_eq hdeq
    split
    · rename_i ch heq
      rw [heq] at htake
      exact htake
    · rename_i n ch heq
      rw [heq] at htake
      exact htake

theorem capture_sendSuperBuf (ch : MmChannel) (n : MmChannelQueueNode) : (ch.sendSuperBuf n).capture = ch.capture := by
  have hsend : (ch.call (.sendSuperBuf n)).capture = ch.capture := capture_call ch rfl
  rw [sendSuperBuf]
  split
  · split
    · rw [← hsend]
      exact capture_call { ch.call (.sendSuperBuf n) with mallocs := ch.mallocs + 1 } rfl
    · rw [capture_qbufs, ← hsend]
      rfl
  · rw [capture_qbufs, hsend]

theorem notifyMode_countBurstFrame (ch : MmChannel) :
    ch.countBurstFrame.queue.attr.notifyMode = ch.queue.attr.notifyMode := by
  have hstop : ch.countPending.stopZslWhenDone.queue = ch.queue := by
    rw [stopZslWhenDone]
    split
    · rfl
    · rfl
  rw [countBurstFrame]
  split
  · rw [nextBatch]
    split
    · change ch.countPending.stopZslWhenDone.queue.attr.notifyMode = _
      rw [hstop]
    · change ch.countPending.stopZslWhenDone.queue.attr.notifyMode = _
      rw [hstop]
  · rw [hstop]

variable {t t' : ChannelThread}

theorem inside_dispatchBody {notifyMode : NotifyMode} (hbound : bound < 256)
    (h : Inside bound count t.ch.capture ∧ t.ch.queue.attr.notifyMode = notifyMode)
    (hbody : dispatchBody notifyMode t = .yield t' ∨ dispatchBody notifyMode t = .done t') :
    Inside bound count t'.ch.capture ∧ t'.ch.queue.attr.notifyMode = notifyMode := by
  rw [ChannelThread.dispatchBody] at hbody
  split at hbody
  case isFalse =>
    obtain rfl : t = t' := by simpa using hbody
    exact h
  case isTrue hwhile =>
    have htake := touches_takeNodes t
    have hmode : ∀ c, Touches t.ch.capture c → c.notifyMode = t.ch.capture.notifyMode := by
      rintro _ ⟨l, -, rfl⟩
      rfl
    have hcount : ∀ c, Touches t.ch.capture c → c.pendingCnt = t.ch.capture.pendingCnt := by
      rintro _ ⟨l, -, rfl⟩
      rfl
    have hmode' := (hmode _ htake).trans h.2
    have hcount' := hcount _ htake
    have hin := htake.inside h.1
    split at hbody
    · rename_i t₁ heq
      rw [heq] at hmode' hin
      obtain rfl : t₁ = t' := by simpa using hbody
      exact ⟨hin, hmode'⟩
    · rename_i node nodes t₁ heq
      rw [heq] at hmode' hcount' hin
      have ht' : (if notifyMode = .burst then { t₁ with ch := t₁.ch.countBurstFrame } else t₁
          ).sendSuperBufs (node :: nodes) = t' := by simpa using hbody
      have hsend := sendSuperBufs_respects respected_capture capture_sendSuperBuf
        (if notifyMode = .burst then { t₁ with ch := t₁.ch.countBurstFrame } else t₁) (node :: nodes)
      rw [ht'] at hsend
      have hsame : t'.ch.queue.attr.notifyMode = (if notifyMode = .burst then
          { t₁ with ch := t₁.ch.countBurstFrame } else t₁).ch.queue.attr.notifyMode :=
        congrArg CaptureControls.notifyMode hsend
      rw [hsend, hsame]
      split
      · rename_i hburst
        have hpending : 0 < t₁.ch.pendingCnt := by
          change 0 < t₁.ch.capture.pendingCnt
          rw [hcount']
          exact hwhile.1.resolve_right (by rw [hburst]; simp)
        exact ⟨hin.countBurstFrame hbound hpending (hmode'.trans hburst),
          (notifyMode_countBurstFrame t₁.ch).trans hmode'⟩
      · exact ⟨hin, hmode'⟩

theorem inside_dispatch {ch ch' : MmChannel} {fuel : ℕ} (hbound : bound < 256)
    (h : InsideAhead bound count ch) (hover : ch.triggerZsl.superbufBufdoneOverflow fuel = some ch')
    (hloop : Loop.run (dispatchBody ch.queue.attr.notifyMode) fuel (t.update ch') = some t') :
    Inside bound count t'.ch.capture := by
  have hcap := respected_capture.bufdoneOverflow hover
  have hin : Inside bound count (t.update ch').ch.capture := by
    change Inside bound count ch'.capture
    rw [hcap]
    exact h.triggerZsl
  have hmode : ch'.queue.attr.notifyMode = ch.queue.attr.notifyMode :=
    (congrArg CaptureControls.notifyMode hcap).trans (notifyMode_triggerZsl ch)
  exact (Loop.run_induction (I := fun t : ChannelThread =>
      Inside bound count t.ch.capture ∧ t.ch.queue.attr.notifyMode = ch.queue.attr.notifyMode)
    (Q := fun t : ChannelThread =>
      Inside bound count t.ch.capture ∧ t.ch.queue.attr.notifyMode = ch.queue.attr.notifyMode)
    (fun _ _ hI hb => inside_dispatchBody hbound hI (.inl hb))
    (fun _ _ hI hb => inside_dispatchBody hbound hI (.inr hb))
    ⟨hin, hmode⟩ hloop).1

theorem inside_step {cmd : MmCameraCmdcb} (hpos : 0 < bound)
    (hbound : bound < 256) (h : Inside bound count t.ch.capture) (hroom : t.ch.LeavesRoom bound cmd)
    (hstep : Step t cmd t') : Inside bound count t'.ch.capture := by
  obtain ⟨fuel, hstep⟩ := hstep
  rw [processStreamBuf] at hstep
  split at hstep
  · cases hstep
  · rename_i ch hcmd
    have hahead := h.handleCmd hpos hroom hcmd
    split at hstep
    · rename_i frameIdx streamType
      cases hstep
      cases hcmd
      refine Touches.inside (.of_eq ?_) h
      exact (capture_call _ rfl).trans
        (respected_capture.flush { t.ch with queue.expectedFrameId := frameIdx } streamType)
    · split at hstep
      · cases hstep
      · rename_i ch' hover
        exact inside_dispatch hbound hahead hover hstep

/-- A channel that no configured capture is on for, with its record empty. -/
def CaptureFresh (t : ChannelThread) : Prop :=
  t.ch.isConfigCapture = false ∧ t.ch.capture.accesses = []

/-- **In a run whose commands leave room** every access at `cur_capture_idx` is inside the arrays. -/
theorem accesses_inside_run {t₀ t : ChannelThread} {cmds : List MmCameraCmdcb} (h₀ : t₀.CaptureFresh)
    (hrun : Run (guarded (fun t cmd => t.ch.LeavesRoom maxCaptureBatchNum cmd) Step) t₀ cmds t) :
    ∀ idx, .captureAccess idx ∈ t.ch.out → idx < maxCaptureBatchNum := by
  have hstart : Inside maxCaptureBatchNum 0 t₀.ch.capture := .off (by rw [h₀.2]; simp) h₀.1
  have hin : Inside maxCaptureBatchNum 0 t.ch.capture := hrun.invariant
    (I := fun t : ChannelThread => Inside maxCaptureBatchNum 0 t.ch.capture)
    (fun s cmd t hs hstep => inside_step (by decide) (by decide) hs hstep.1 hstep.2) hstart
  intro idx hidx
  exact hin.accesses idx (mem_filterMap.mpr ⟨.captureAccess idx, hidx, rfl⟩)

/-- A channel with one bundled stream, in burst mode. -/
def burstChannel : MmChannel where
  myHdl := 1
  streams := [sampleStream 1 .snapshot]
  queue := { bundledStreams := [1], attr := { waterMark := 2, lookBack := 2 } }

/-- A buffer of its stream. -/
def burstBuf (frameIdx : ℕ) : MmCameraBufInfo :=
  ⟨1, frameIdx, { streamId := 1, streamType := .snapshot, bufIdx := frameIdx }⟩

/-- Batches of one flash frame each. -/
def flashBatches (numBatch : ℕ) : MmCameraGenericCmd where
  type := .captureSetting
  start := true
  frameConfig := { numBatch := numBatch, configs := fun _ => { numFrames := 1, type := .flash } }

/-- Two batches of one frame, and a request for two frames. -/
theorem accesses_inside_two : ∃ t,
    Run (guarded (fun t cmd => t.ch.LeavesRoom maxCaptureBatchNum cmd) Step) { ch := burstChannel }
      [.general (flashBatches 2), .reqDataCb { numBufRequested := 2 }, .dataCb (burstBuf 1), .dataCb (burstBuf 2)] t ∧
      t.ch.capture.accesses = [0, 0, 1, 1, 1, 2] ∧
      ∀ idx, .captureAccess idx ∈ t.ch.out → idx < maxCaptureBatchNum := by
  have hex : (runCmds (fun t cmd => decide (t.ch.LeavesRoom maxCaptureBatchNum cmd)) 5 { ch := burstChannel }
      [.general (flashBatches 2), .reqDataCb { numBufRequested := 2 }, .dataCb (burstBuf 1),
        .dataCb (burstBuf 2)]).map (fun t => decide (t.ch.capture.accesses = [0, 0, 1, 1, 1, 2])) =
      some true := by
    decide +kernel
  obtain ⟨t, ht, hfact⟩ := Option.map_eq_some_iff.mp hex
  have hrun : Run (guarded (fun t cmd => t.ch.LeavesRoom maxCaptureBatchNum cmd) Step) { ch := burstChannel } _ t :=
    (run_of_runCmds ht).mono fun _ _ _ hstep => ⟨of_decide_eq_true hstep.1, hstep.2⟩
  exact ⟨t, hrun, of_decide_eq_true hfact, accesses_inside_run ⟨rfl, rfl⟩ hrun⟩

/-- One batch of one frame, and a request for 33. The second frame is flushed, as a ZSL snapshot is
started for the batches that are left, though none is; each later one ends a batch that was not
configured, and the 33rd makes the code read past the array. -/
theorem access_past_end : ∃ t, Run Step { ch := burstChannel }
      (.general (flashBatches 1) :: .reqDataCb { numBufRequested := 33 } ::
        (range' 1 33).map (MmCameraCmdcb.dataCb <| burstBuf ·)) t ∧
      .captureAccess maxCaptureBatchNum ∈ t.ch.out := by
  have hex : (runCmds (fun _ _ => true) 5 { ch := burstChannel }
      (.general (flashBatches 1) :: .reqDataCb { numBufRequested := 33 } ::
        (range' 1 33).map (MmCameraCmdcb.dataCb <| burstBuf ·))).map
      (fun t => decide (.captureAccess maxCaptureBatchNum ∈ t.ch.out)) = some true := by
    decide +kernel
  obtain ⟨t, ht, hfact⟩ := Option.map_eq_some_iff.mp hex
  exact ⟨t, (run_of_runCmds ht).of_guarded, of_decide_eq_true hfact⟩

end ChannelThread

end Marlin
