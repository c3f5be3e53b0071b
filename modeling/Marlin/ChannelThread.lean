import Marlin.FrameSync
import Marlin.SuperbufMatch

/-!
# The Command Thread of a Channel

`mm_channel_process_stream_buf`, the function that the command thread of a channel runs on
each command taken from its queue, and `mm_channel_send_super_buf`.

One command is handled in four stages: the command itself (`handleCmd`), the start and
stop of a ZSL snapshot (`triggerZsl`), the return of overflowed super-buffers, and the
loop that dispatches super-buffers (`dispatchBody`). The loops take a budget, see
`Marlin.SuperbufQueue`.

The first three stages work on the channel alone. The calls they make into the frame-sync
table are found in `MmChannel.out` and made by `ChannelThread.update`; nothing reads the
table in between.
-/

namespace Marlin

/-- Subtraction of `uint32_t` values. -/
def subU32 (a b : ℕ) : ℕ := if b ≤ a then a - b else 2 ^ 32 - (b - a)

/-- `MAX_CAPTURE_BATCH_NUM`. -/
def maxCaptureBatchNum : ℕ := 32

/-- `mm_camera_req_buf_t`. -/
structure MmCameraReqBuf where
  type : ReqBufType := .superBuf
  numBufRequested : ℕ
  numRetroBufRequested : ℕ := 0
  deriving DecidableEq

/-- `mm_camera_generic_cmd_type_t`; `other` is a value without a `case`. -/
inductive GenericCmdType
  | aeBracketing | afBracketing | flashBracketing | zoom1x | captureSetting | other
  deriving DecidableEq

/-- `mm_camera_generic_cmd_t`; `start` is `payload[0]`, used as a truth value. -/
structure MmCameraGenericCmd where
  type : GenericCmdType
  start : Bool
  frameConfig : CamCaptureFrameConfig := {}

/-- `mm_camera_cmdcb_t`; `other` is a type that the channel's thread does not look at. -/
inductive MmCameraCmdcb
  | dataCb (buf : MmCameraBufInfo)
  | reqDataCb (reqBuf : MmCameraReqBuf)
  | startZsl
  | stopZsl
  | configNotify (notifyMode : NotifyMode)
  | flushQueue (frameIdx : ℕ) (streamType : CamStreamType)
  | general (genCmd : MmCameraGenericCmd)
  | other

namespace MmChannel

/-! ### The command -/

/-- The request branch, up to the call of `mm_channel_superbuf_skip`. -/
def requestBuf (ch : MmChannel) (req : MmCameraReqBuf) : MmChannel :=
  let retro :=
    if req.numBufRequested = 0 ∨ req.numBufRequested < req.numRetroBufRequested then
      req.numBufRequested
    else req.numRetroBufRequested
  { ch with
    pendingCnt := req.numBufRequested
    pendingRetroCnt := retro
    reqType := req.type
    bWaitForPrepSnapshotDone := false
    needLEDFlash := if 0 < retro then false else ch.needLEDFlash
    stopZslSnapshot := false
    unLockAEC := false }

/-- The frame configuration of a command without its `CAM_CAPTURE_RESET` entries, written
over the zeroed array. -/
def filterConfig (old new : CamCaptureFrameConfig) : CamCaptureFrameConfig :=
  let kept := ((List.range new.numBatch).map new.configs).filter (·.type ≠ .reset)
  { numBatch := kept.length
    configs := fun i => kept.getD i (if i < maxCaptureBatchNum then {} else old.configs i) }

/-- The capture-setting branch. The last `memset` counts bytes, so that it clears the
first 8 of the 32 entries. -/
def captureSetting (ch : MmChannel) (start : Bool) (config : CamCaptureFrameConfig) :
    MmChannel :=
  { ch with
    frameConfig := filterConfig ch.frameConfig (if start then config else {})
    isConfigCapture := start
    curCaptureIdx := 0
    captureFrameId :=
      fun i => if i < maxCaptureBatchNum / 4 then 0 else ch.captureFrameId i }

/-- The general commands. -/
def generalCmd (ch : MmChannel) (cmd : MmCameraGenericCmd) : MmChannel :=
  match cmd.type with
  | .aeBracketing | .afBracketing =>
    { ch.superbufFlush .default with
      bracketingState := if cmd.start then .waitGoodFrameIdx else .off }
  | .flashBracketing =>
    { ch.superbufFlush .default with isFlashBracketingEnabled := cmd.start }
  | .zoom1x => { ch.superbufFlush .default with isZoom1xFrameRequested := cmd.start }
  | .captureSetting => ch.captureSetting cmd.start cmd.frameConfig
  | .other => ch

/-- The branches of `mm_channel_process_stream_buf` on the command type. -/
def handleCmd (fuel : ℕ) (ch : MmChannel) : MmCameraCmdcb → Option MmChannel
  | .dataCb buf => some (ch.superbufCompAndEnqueue buf).2
  | .reqDataCb reqBuf => (ch.requestBuf reqBuf).superbufSkip fuel
  | .startZsl => some ({ ch with manualZSLSnapshot := true }.call .startZslSnapshot)
  | .stopZsl => some ({ ch with manualZSLSnapshot := false }.call .stopZslSnapshot)
  | .configNotify notifyMode => some { ch with queue.attr.notifyMode := notifyMode }
  | .flushQueue frameIdx streamType =>
    some (({ ch with queue.expectedFrameId := frameIdx }.superbufFlush streamType).call .semPost)
  | .general genCmd => some (ch.generalCmd genCmd)
  | .other => some ch

/-! ### Start and stop of a ZSL snapshot -/

/-- `needStartZSL`: a configured capture starts ZSL unless a remaining batch is a flash or
low-light batch that needs none. -/
def needStartZSL (ch : MmChannel) : Bool :=
  decide (0 < ch.pendingCnt) && ch.isConfigCapture && !ch.manualZSLSnapshot && !ch.startZSlSnapshotCalled &&
    !((List.range' ch.curCaptureIdx (ch.frameConfig.numBatch - ch.curCaptureIdx)).any fun i =>
      let type := (ch.frameConfig.configs i).type
      (type == .flash && !ch.needLEDFlash) || (type == .lowLight && ch.needLowLightZSL == 0))

/-- The start of a ZSL snapshot for the pending frames. -/
def startZslForPending (ch : MmChannel) : MmChannel :=
  { ch.call .startZslSnapshot with
    startZSlSnapshotCalled := true
    burstSnapNum := ch.pendingCnt
    bWaitForPrepSnapshotDone := false }

/-- The frames of the remaining batches are put off to a future frame. -/
def deferCapture (ch : MmChannel) : MmChannel :=
  { ch with captureFrameId := fun i =>
      if ch.curCaptureIdx ≤ i ∧ i < ch.frameConfig.numBatch then
        addU32 ch.queue.expectedFrameId mmCameraMaxFutureFrameWait
      else ch.captureFrameId i }

/-- The branches that start or stop a ZSL snapshot. -/
def triggerZsl (ch : MmChannel) : MmChannel :=
  if ch.isConfigCapture && ch.needStartZSL then
    (ch.deferCapture.superbufFlush .default).startZslForPending
  else if decide (0 < ch.pendingCnt) && (ch.needLEDFlash || ch.bracketingState != .off) &&
      !ch.manualZSLSnapshot && !ch.startZSlSnapshotCalled then
    ch.startZslForPending
  else if (ch.pendingCnt == 0 || ch.stopZslSnapshot) && !ch.manualZSLSnapshot && ch.startZSlSnapshotCalled then
    { ch.call .stopZslSnapshot with
      startZSlSnapshotCalled := false
      needLEDFlash := false
      burstSnapNum := 0
      stopZslSnapshot := false
      bWaitForPrepSnapshotDone := false
      unLockAEC := true
      bracketingState := .off
      isConfigCapture := false }
  else ch

/-! ### Dispatching a super-buffer -/

/-- The pending counters after a super-buffer was taken in burst mode. -/
def countPending (ch : MmChannel) : MmChannel :=
  { ch with
    pendingCnt := subU32 ch.pendingCnt 1
    bWaitForPrepSnapshotDone := ch.pendingRetroCnt == 1 || ch.bWaitForPrepSnapshotDone
    pendingRetroCnt :=
      if 0 < ch.pendingRetroCnt then ch.pendingRetroCnt - 1 else ch.pendingRetroCnt }

/-- The ZSL snapshot is stopped once all its frames were taken. -/
def stopZslWhenDone (ch : MmChannel) : MmChannel :=
  if (ch.pendingCnt == 0 || ch.stopZslSnapshot) && !ch.manualZSLSnapshot && ch.startZSlSnapshotCalled then
    { ch.call .stopZslSnapshot with
      startZSlSnapshotCalled := false
      burstSnapNum := 0
      stopZslSnapshot := false
      unLockAEC := true
      needLEDFlash := false
      bracketingState := .off
      isConfigCapture := false }
  else ch

/-- One frame less to take for the current batch. -/
def countBatchFrame (ch : MmChannel) : MmChannel :=
  let config := ch.frameConfig.configs ch.curCaptureIdx
  { ch.call (.captureAccess ch.curCaptureIdx) with
    frameConfig.configs := fun i =>
      if i = ch.curCaptureIdx ∧ config.numFrames ≠ 0 then
        { config with numFrames := config.numFrames - 1 }
      else ch.frameConfig.configs i }

/-- `cur_capture_idx + 1` in its `uint8_t`. -/
def nextCaptureIdx (ch : MmChannel) : ℕ := (ch.curCaptureIdx + 1) % 256

/-- A batch becomes current, and its frame is expected. -/
def startBatch (ch : MmChannel) (idx : ℕ) : MmChannel :=
  { ch.call (.captureAccess idx) with
    curCaptureIdx := idx
    queue.expectedFrameId := ch.captureFrameId idx
    queue.goodFrameId := ch.captureFrameId idx }

/-- After the last frame of a batch the next one becomes current. -/
def nextBatch (ch : MmChannel) : MmChannel :=
  if (ch.frameConfig.configs ch.curCaptureIdx).numFrames = 0 then
    ch.startBatch ch.nextCaptureIdx
  else ch

/-- The book-keeping of a super-buffer taken in burst mode. -/
def countBurstFrame (ch : MmChannel) : MmChannel :=
  if ch.countPending.stopZslWhenDone.isConfigCapture then
    ch.countPending.stopZslWhenDone.countBatchFrame.nextBatch
  else ch.countPending.stopZslWhenDone

/-- The super-buffer of a node is enqueued to the callback thread. -/
def enqueueCb (ch : MmChannel) (node : MmChannelQueueNode) : MmChannel :=
  { ch.call (.cbEnq node.bufs ch.bWaitForPrepSnapshotDone ch.unLockAEC) with
    unLockAEC := false }

/-- `mm_channel_send_super_buf` on one node of the channel: with a callback, the memory
for its message is allocated. -/
def sendSuperBuf (ch : MmChannel) (node : MmChannelQueueNode) : MmChannel :=
  if ch.superBufNotifyCb then
    if ch.malloc ch.mallocs then
      { ch.call (.sendSuperBuf node) with mallocs := ch.mallocs + 1 }.enqueueCb node
    else { ch.call (.sendSuperBuf node) with mallocs := ch.mallocs + 1 }.qbufs node.bufs
  else (ch.call (.sendSuperBuf node)).qbufs node.bufs

/-- The check of a dequeued node: one that is older than the frame of the current capture
batch is returned at once, and nothing is dispatched. -/
def checkExpected (ch : MmChannel) (node : MmChannelQueueNode) : Option MmChannelQueueNode × MmChannel :=
  if ch.isConfigCapture then
    if node.frameIdx < ch.captureFrameId ch.curCaptureIdx then
      (none, (ch.call (.captureAccess ch.curCaptureIdx)).qbufs node.bufs)
    else (some node, ch.call (.captureAccess ch.curCaptureIdx))
  else (some node, ch)

/-- The dequeue of a plain super-buffer request. -/
def takeNode (ch : MmChannel) : Option MmChannelQueueNode × MmChannel :=
  match ch.superbufDequeue with
  | (none, ch) => (none, ch)
  | (some node, ch) => ch.checkExpected node

end MmChannel

/-! ### The thread -/

/-- What the command thread of a channel works on: the channel, the frame-sync table, and
the other channels that the table can name, by their handles. -/
structure ChannelThread where
  ch : MmChannel
  fs : FrameSyncInfo := {}
  peers : ℕ → MmChannel := fun hdl => { myHdl := hdl }

namespace ChannelThread

/-- A recorded call into the frame-sync table. -/
def fsCall (hdl : ℕ) (fs : FrameSyncInfo) : Action → FrameSyncInfo
  | .frameSyncAdd frameIdx => (fs.add frameIdx hdl).2
  | .frameSyncRemove frameIdx => (fs.remove frameIdx).2
  | _ => fs

/-- The channel moved on to `ch`; the calls it made reach the frame-sync table. -/
def update (t : ChannelThread) (ch : MmChannel) : ChannelThread :=
  { t with
    ch := ch
    fs := (ch.out.drop t.ch.out.length).foldl (fsCall ch.myHdl) t.fs }

/-- A channel by its handle. -/
def channel (t : ChannelThread) (hdl : ℕ) : MmChannel :=
  if hdl = t.ch.myHdl then t.ch else t.peers hdl

/-- Replace a channel. -/
def setChannel (t : ChannelThread) (hdl : ℕ) (ch : MmChannel) : ChannelThread :=
  if hdl = t.ch.myHdl then { t with ch := ch }
  else { t with peers := fun i => if i = hdl then ch else t.peers i }

/-- The loop over `fs.ch_obj` that dequeues a matched frame from each channel. -/
def takeFrame (frameIdx : ℕ) : List (Option ℕ) → ChannelThread → List (ℕ × MmChannelQueueNode) × ChannelThread
  | [], t => ([], t)
  | none :: rest, t => takeFrame frameIdx rest t
  | some hdl :: rest, t =>
    match (t.channel hdl).superbufDequeueFrameInternal frameIdx with
    | (none, ch) => takeFrame frameIdx rest (t.setChannel hdl ch)
    | (some node, ch) =>
      match takeFrame frameIdx rest (t.setChannel hdl ch) with
      | (nodes, t) => ((hdl, node) :: nodes, t)

/-- `mm_channel_node_qbuf` on each node. -/
def nodeQbufs (t : ChannelThread) (nodes : List (ℕ × MmChannelQueueNode)) : ChannelThread :=
  nodes.foldl (fun t p => t.setChannel p.1 ((t.channel p.1).qbufs p.2.bufs)) t

/-- The dequeue of a frame-sync request. -/
def takeMatchedFrame (t : ChannelThread) : List (ℕ × MmChannelQueueNode) × ChannelThread :=
  let matchFrame := t.fs.findMatched false
  if matchFrame = 0 then ([], t)
  else
    match takeFrame matchFrame t.fs.chObj t with
    | (nodes, t) =>
      let t := { t with fs := (t.fs.remove matchFrame).2 }
      if nodes.length = t.fs.numCam then (nodes, t) else ([], t.nodeQbufs nodes)

/-- The dequeue at the head of the dispatch loop. -/
def takeNodes (t : ChannelThread) : List (ℕ × MmChannelQueueNode) × ChannelThread :=
  match t.ch.reqType with
  | .frameSyncBuf => t.takeMatchedFrame
  | .superBuf =>
    match t.ch.takeNode with
    | (none, ch) => ([], t.update ch)
    | (some node, ch) => ([(ch.myHdl, node)], t.update ch)

/-- `mm_channel_send_super_buf`. -/
def sendSuperBufs (t : ChannelThread) (nodes : List (ℕ × MmChannelQueueNode)) :
    ChannelThread :=
  nodes.foldl (fun t p => t.setChannel p.1 ((t.channel p.1).sendSuperBuf p.2)) t

/-- One round of the dispatch loop. -/
def dispatchBody (notifyMode : NotifyMode) (t : ChannelThread) : ForInStep ChannelThread :=
  if (0 < t.ch.pendingCnt ∨ notifyMode = .continuous) ∧ t.ch.bWaitForPrepSnapshotDone = false then
    match t.takeNodes with
    | ([], t) => .done t
    | (node :: nodes, t) =>
      let t := if notifyMode = .burst then { t with ch := t.ch.countBurstFrame } else t
      .yield (t.sendSuperBufs (node :: nodes))
  else .done t

/-- `mm_channel_process_stream_buf`; `none` when a loop outlasts the budget. -/
def processStreamBuf (fuel : ℕ) (t : ChannelThread) (cmd : MmCameraCmdcb) : Option ChannelThread :=
  match t.ch.handleCmd fuel cmd with
  | none => none
  | some ch =>
    match cmd with
    | .flushQueue _ _ => some (t.update ch)
    | _ =>
      match ch.triggerZsl.superbufBufdoneOverflow fuel with
      | none => none
      | some ch' => Loop.run (dispatchBody ch.queue.attr.notifyMode) fuel (t.update ch')

/-! ### What holds of the thread's own channel -/

section
variable {R : MmChannel → MmChannel → Prop}

theorem setChannel_respects (h : MmChannel.Respected R) {t : ChannelThread} {hdl : ℕ}
    {ch : MmChannel} (hch : R (t.channel hdl) ch) : R t.ch (t.setChannel hdl ch).ch := by
  rw [setChannel]
  split
  · rename_i hown
    rw [channel, if_pos hown] at hch
    exact hch
  · exact h.refl t.ch

theorem takeFrame_respects (h : MmChannel.Respected R)
    (hframe : ∀ ch frameIdx, R ch (ch.superbufDequeueFrameInternal frameIdx).2) (frameIdx : ℕ)
    (hdls : List (Option ℕ)) (t : ChannelThread) : R t.ch (takeFrame frameIdx hdls t).2.ch := by
  induction hdls generalizing t with
  | nil => exact h.refl t.ch
  | cons hdl rest ih =>
    cases hdl with
    | none => exact ih t
    | some hdl =>
      have hdeq := hframe (t.channel hdl) frameIdx
      rw [takeFrame]
      split
      · rename_i ch heq
        rw [heq] at hdeq
        exact h.trans _ _ _ (setChannel_respects h hdeq) (ih _)
      · rename_i n ch heq
        rw [heq] at hdeq
        exact h.trans _ _ _ (setChannel_respects h hdeq) (ih _)

theorem nodeQbufs_respects (h : MmChannel.Respected R) (t : ChannelThread)
    (nodes : List (ℕ × MmChannelQueueNode)) : R t.ch (t.nodeQbufs nodes).ch := by
  rw [nodeQbufs]
  refine List.foldlRecOn (motive := fun t' : ChannelThread => R t.ch t'.ch)
    _ _ (h.refl t.ch) fun t' ht' p _ => ?_
  exact h.trans _ _ _ ht' (setChannel_respects h (h.qbufs _ _))

theorem takeMatchedFrame_respects (h : MmChannel.Respected R)
    (hframe : ∀ ch frameIdx, R ch (ch.superbufDequeueFrameInternal frameIdx).2)
    (t : ChannelThread) : R t.ch t.takeMatchedFrame.2.ch := by
  have htake := takeFrame_respects h hframe (t.fs.findMatched false) t.fs.chObj t
  simp only [takeMatchedFrame]
  generalize takeFrame (t.fs.findMatched false) t.fs.chObj t = r at htake
  obtain ⟨nodes, t₁⟩ := r
  split
  · exact h.refl t.ch
  · split
    · exact htake
    · exact h.trans _ _ _ htake (nodeQbufs_respects h { t₁ with fs := (t₁.fs.remove (t.fs.findMatched false)).2 } nodes)

theorem sendSuperBufs_respects (h : MmChannel.Respected R)
    (hsend : ∀ (ch : MmChannel) n, R ch (ch.sendSuperBuf n)) (t : ChannelThread)
    (nodes : List (ℕ × MmChannelQueueNode)) : R t.ch (t.sendSuperBufs nodes).ch := by
  rw [sendSuperBufs]
  refine List.foldlRecOn (motive := fun t' : ChannelThread => R t.ch t'.ch)
    _ _ (h.refl t.ch) fun t' ht' p _ => ?_
  exact h.trans _ _ _ ht' (setChannel_respects h (hsend _ _))

end

end ChannelThread

end Marlin
