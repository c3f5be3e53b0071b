import Marlin.SuperbufQueue

/-!
# The Super-Buffer Queue: Matching

`mm_channel_superbuf_comp_and_enqueue`: a buffer that leaves a bundled stream is put into
the first unmatched node it can join, or into a new node. The nodes are positions in the
queue list, front first: `pos`, `last_buf` and `insert_before_buf` are list indices.

The function is cut at its branches. `applyMetadata` is the part of
`mm_channel_handle_metadata` that reads the tags; `superbufScan` is the loop over the
queue; `joinNode` puts the buffer into the node that was found, `completeNode` does the
book-keeping of a node that became complete, and `insertNew` makes room and inserts a new
node.
-/

namespace Marlin

/-- `MM_CAMERA_MAX_FUTURE_FRAME_WAIT`. -/
def mmCameraMaxFutureFrameWait : ℕ := 100

/-- `NEED_FUTURE_FRAME` of `cam_prep_snapshot_state_t`. -/
def needFutureFrame : ℤ := 1

/-- Addition of `uint32_t` values. -/
def addU32 (a b : ℕ) : ℕ := (a + b) % 2 ^ 32

namespace MmChannel

/-! ### `mm_channel_handle_metadata` -/

/-- The crop branch: the crop of the first snapshot stream starts at the origin. -/
def isCrop1xFound (ch : MmChannel) (cropData : List CamStreamCropInfo) : Bool :=
  let snapshotStreamId :=
    ((ch.streams.find? fun s => s.state != .notUsed &&
        (s.streamInfo.map CamStreamInfo.streamType == some .snapshot)).map
      MmStream.serverStreamId).getD 0
  cropData.any fun c => c.streamId == snapshotStreamId && c.left == 0 && c.top == 0

/-- The divert branch. The assignment to the `uint8_t` field truncates the frame id. -/
def noteDivertInfo (ch : MmChannel) (frameIdx : ℕ) (divertInfo : Option ℕ) : MmChannel :=
  match divertInfo with
  | none => ch
  | some frameId =>
    { ch with divertedFrameId := if frameIdx ≤ frameId then frameId % 256 else 0 }

/-- The branch of a requested 1x zoom frame, which ends the function. -/
def zoom1xFrame (ch : MmChannel) (frameIdx : ℕ) (isCrop1xFound : Bool) : MmChannel :=
  if isCrop1xFound then
    { ch with
      isZoom1xFrameRequested := false
      queue.expectedFrameId := addU32 frameIdx 1 }
  else
    superbufFlushMatched { ch with
      queue.expectedFrameId := addU32 ch.queue.expectedFrameId mmCameraMaxFutureFrameWait }

/-- The prepare-snapshot branch. -/
def prepSnapshotDone (ch : MmChannel) (state : Option ℤ) : MmChannel :=
  match state with
  | none => ch
  | some st =>
    if st = needFutureFrame then
      { superbufFlush { ch with
          bWaitForPrepSnapshotDone := false
          queue.expectedFrameId :=
            addU32 ch.queue.expectedFrameId mmCameraMaxFutureFrameWait } .default with
        needLEDFlash := true }
    else { ch with bWaitForPrepSnapshotDone := false, needLEDFlash := false }

/-- The good-frame branch; without a range, the frames before it are flushed while
bracketing waits for one. -/
def goodFrameRange (ch : MmChannel) (range : Option CamFrameIdxRange) (prepValid : Bool) :
    MmChannel :=
  match range with
  | some r =>
    let ch := { ch with
      queue.expectedFrameId := r.minFrameIdx
      queue.goodFrameId := r.minFrameIdx }
    if ch.needLEDFlash && decide (1 < ch.burstSnapNum) then
      { ch with
        queue.ledOnStartFrameId := r.minFrameIdx
        queue.ledOffStartFrameId := r.maxFrameIdx
        queue.once := false
        queue.ledOnNumFrames := r.numLedOnFrames
        queue.frameSkipCount := r.frameSkipCount }
    else ch
  | none =>
    if ch.bracketingState = .waitGoodFrameIdx ∧ prepValid = false then
      let ch := ch.superbufFlushMatched
      { ch with queue.expectedFrameId :=
          addU32 ch.queue.expectedFrameId mmCameraMaxFutureFrameWait }
    else ch

/-- The bracketing branches of a valid good-frame range. -/
def goodFrameBracketing (ch : MmChannel) (range : Option CamFrameIdxRange) : MmChannel :=
  match range with
  | none => ch
  | some r =>
    if ch.isFlashBracketingEnabled then
      { ch with
        queue.expectedFrameId := r.minFrameIdx
        queue.expectedFrameIdWithoutLed := r.maxFrameIdx
        queue.goodFrameId := r.minFrameIdx }
    else
      { ch with
        queue.expectedFrameId := r.minFrameIdx
        bracketingState := .active
        queue.goodFrameId := r.minFrameIdx }

/-- The frame-configuration branch: the good frame of a batch is noted, and the frame of
the current batch is expected. -/
def frameConfigId (ch : MmChannel) (range : Option CamFrameIdxRange) : MmChannel :=
  match range with
  | none => ch
  | some r =>
    if ch.isConfigCapture = true ∧ r.configBatchIdx < ch.frameConfig.numBatch then
      let ch := { ch with
        captureFrameId :=
          fun i => if i = r.configBatchIdx then r.minFrameIdx else ch.captureFrameId i }
      let expected :=
        if ch.curCaptureIdx = r.configBatchIdx then r.minFrameIdx
        else ch.captureFrameId ch.curCaptureIdx
      let ch :=
        if ch.curCaptureIdx = r.configBatchIdx then ch
        else ch.call (.captureAccess ch.curCaptureIdx)
      { ch with queue.expectedFrameId := expected, queue.goodFrameId := expected }
    else ch

/-- The end of the LED frames of a burst. -/
def ledOffFrame (ch : MmChannel) (frameIdx : ℕ) : MmChannel :=
  if 1 < ch.burstSnapNum ∧ ch.needLEDFlash = true ∧ ch.isFlashBracketingEnabled = false ∧
      ch.bracketingState = .off ∧ ch.isConfigCapture = false ∧
      ch.queue.ledOffStartFrameId ≤ frameIdx ∧ ch.queue.once = false then
    { ch with
      queue.expectedFrameId := addU32 ch.queue.ledOffStartFrameId ch.queue.frameSkipCount
      queue.once := true
      stopZslSnapshot := true
      needLEDFlash := false }
  else ch

/-- The low-light branch. -/
def lowLightLevel (ch : MmChannel) (level : Option ℕ) : MmChannel :=
  match level with
  | none => ch
  | some l => { ch with needLowLightZSL := l % 256 }

/-- The instant-capture branch. -/
def userExpectedFrame (ch : MmChannel) (frameIdx : ℕ) (aecSettled : Option Bool) :
    MmChannel :=
  if 0 < ch.queue.attr.userExpectedFrameId then
    if frameIdx < ch.queue.attr.userExpectedFrameId then
      if aecSettled = some true then
        { ch with
          queue.expectedFrameId := frameIdx
          queue.attr.userExpectedFrameId := 0 }
      else ch
    else { ch with queue.attr.userExpectedFrameId := 0 }
  else ch

/-- `mm_channel_handle_metadata` on a metadata buffer with its mapped memory. -/
def applyMetadata (ch : MmChannel) (frameIdx : ℕ) (metadata : MetadataBuffer) : MmChannel :=
  let ch := ch.noteDivertInfo frameIdx metadata.bufDivertInfo
  if ch.isZoom1xFrameRequested then
    ch.zoom1xFrame frameIdx (ch.isCrop1xFound (metadata.cropData.getD []))
  else
    let ch := ch.prepSnapshotDone metadata.prepSnapshotDone
    let ch := ch.goodFrameRange metadata.goodFrameIdxRange metadata.prepSnapshotDone.isSome
    let ch := ch.goodFrameBracketing metadata.goodFrameIdxRange
    let ch := ch.frameConfigId metadata.goodFrameIdxRange
    let ch := ch.ledOffFrame frameIdx
    let ch := ch.lowLightLevel metadata.lowLight
    ch.userExpectedFrame frameIdx metadata.aecSettled

/-- `mm_channel_handle_metadata`. -/
def handleMetadata (ch : MmChannel) (bufInfo : MmCameraBufInfo) : ℤ × MmChannel :=
  match ch.utilGetStreamByHandler bufInfo.streamId with
  | none => (-1, ch)
  | some streamObj =>
    match streamObj.streamInfo with
    | none => (-1, ch)
    | some info =>
      if info.streamType = .metadata ∧ (streamObj.chObj = ch.myHdl ∨
          streamObj.linkedStream.bind LinkedStream.linkedObj = some ch.myHdl) then
        match bufInfo.buf.buffer with
        | none => (-1, ch)
        | some metadata => (0, ch.applyMetadata bufInfo.frameIdx metadata)
      else (0, ch)

/-! ### The scan of the queue -/

/-- `mm_channel_util_seq_comp_w_rollover`. -/
def utilSeqCompWRollover (v1 v2 : ℕ) : ℤ :=
  if v2 < v1 then 1 else if v1 < v2 then -1 else 0

/-- `mm_channel_validate_super_buf`. -/
def validateSuperBuf (ch : MmChannel) (bufInfo : MmCameraBufInfo) : ℤ :=
  if ch.queue.que.any fun n => n.expectedFrame && bufInfo.frameIdx == n.frameIdx then 1 else 0

/-- The three conditions under which a buffer joins an unmatched node: the same frame;
metadata of a later frame, in low-priority bundling; or a buffer for a node that holds
only metadata of a later frame, in low-priority bundling. -/
def joins (priority : SuperBufPriority) (bufSIdx : ℕ) (bufInfo : MmCameraBufInfo)
    (superBuf : MmChannelQueueNode) : Bool :=
  bufInfo.frameIdx == superBuf.frameIdx ||
  (priority == .low && superBuf.slotFrameIdx bufSIdx == 0 &&
    bufInfo.buf.streamType == .metadata && decide (superBuf.frameIdx < bufInfo.frameIdx)) ||
  (priority == .low && bufInfo.buf.streamType != .metadata && superBuf.slotFrameIdx bufSIdx == 0 &&
    decide (bufInfo.frameIdx < superBuf.unmatchedMetaIdx))

/-- The variables of the scan: where it stopped, the node found there, the number of
unmatched nodes passed (a `uint8_t`), and the first of them with a smaller and with a
larger frame index. -/
structure SuperbufScan where
  pos : ℕ := 0
  superBuf : Option MmChannelQueueNode := none
  unmatchedBundles : ℕ := 0
  lastBuf : Option ℕ := none
  insertBeforeBuf : Option ℕ := none
  deriving DecidableEq

/-- The scan passes an unmatched node that the buffer does not join. -/
def SuperbufScan.pass (s : SuperbufScan) (frameIdx : ℕ) (n : MmChannelQueueNode) : SuperbufScan where
  pos := s.pos + 1
  superBuf := none
  unmatchedBundles := (s.unmatchedBundles + 1) % 256
  lastBuf := if s.lastBuf = none ∧ n.frameIdx < frameIdx then some s.pos else s.lastBuf
  insertBeforeBuf :=
    if s.insertBeforeBuf = none ∧ frameIdx < n.frameIdx then some s.pos else s.insertBeforeBuf

/-- The loop of `comp_and_enqueue` over the queue. -/
def superbufScan (join : MmChannelQueueNode → Bool) (frameIdx : ℕ) :
    List MmChannelQueueNode → SuperbufScan → SuperbufScan
  | [], s => s
  | n :: rest, s =>
    if n.matched then superbufScan join frameIdx rest { s with pos := s.pos + 1 }
    else if join n then { s with superBuf := some n }
    else superbufScan join frameIdx rest (s.pass frameIdx n)

/-! ### Joining a node -/

/-- Filling into a metadata-only node resets its frame index to that of the buffer. -/
def resetMetaOnly (superBuf : MmChannelQueueNode) (frameIdx : ℕ) : MmChannelQueueNode :=
  if 0 < superBuf.unmatchedMetaIdx then
    { superBuf with unmatchedMetaIdx := 0, frameIdx := frameIdx }
  else superBuf

/-- The frame the queue expects after frame `frameIdx` was matched. -/
def expectNext (ch : MmChannel) (frameIdx : ℕ) : MmChannel :=
  if ch.isFlashBracketingEnabled then
    { ch with
      queue.expectedFrameId := ch.queue.expectedFrameIdWithoutLed
      isFlashBracketingEnabled := !decide (ch.queue.expectedFrameIdWithoutLed ≤ frameIdx) }
  else { ch with queue.expectedFrameId := addU32 frameIdx ch.queue.attr.postFrameSkip }

/-- `match_cnt++`, reported to the frame-sync table under `enable_frame_sync`. -/
def countMatch (ch : MmChannel) (frameIdx : ℕ) : MmChannel :=
  let ch := { ch with queue.matchCnt := ch.queue.matchCnt + 1 }
  let ch := ch.call (.superBufMatched frameIdx)
  if ch.queue.attr.enableFrameSync then ch.call (.frameSyncAdd frameIdx) else ch

/-- The nodes from `last_buf` up to `pos` are released, buffers and all. Neither the
matched flag of a node nor `match_cnt` is looked at. -/
def releaseOlder (ch : MmChannel) (lastBuf : Option ℕ) (pos : ℕ) : MmChannel :=
  match lastBuf with
  | none => ch
  | some l =>
    let released := (ch.queue.que.take pos).drop l
    let ch := ch.qbufs (released.flatMap MmChannelQueueNode.filledBufs)
    { ch with
      queue.que := ch.queue.que.take l ++ ch.queue.que.drop pos
      queue.size := ch.queue.size - released.length }

/-- The node at `pos` became complete: it is `superBuf` with its matched flag. -/
def completeNode (ch : MmChannel) (s : SuperbufScan) (frameIdx : ℕ) (superBuf : MmChannelQueueNode) : MmChannel :=
  let ch := ch.expectNext frameIdx
  let superBuf := { superBuf with matched := true, expectedFrame := false }
  let ch := { ch with queue.que := ch.queue.que.set s.pos superBuf }
  (ch.countMatch frameIdx).releaseOlder s.lastBuf s.pos

/-- The buffer was put into the node at `pos`, which still has an empty slot. -/
def keepNode (ch : MmChannel) (s : SuperbufScan) (frameIdx : ℕ) (superBuf : MmChannelQueueNode) : MmChannel :=
  if ch.divertedFrameId = frameIdx then
    { ch with
      queue.que := ch.queue.que.set s.pos { superBuf with matched := false, expectedFrame := true }
      divertedFrameId := 0 }
  else
    { ch with queue.que := ch.queue.que.set s.pos { superBuf with matched := false } }

/-- The branch `found_super_buf`. -/
def joinNode (ch : MmChannel) (bufSIdx : ℕ) (bufInfo : MmCameraBufInfo) (s : SuperbufScan)
    (superBuf : MmChannelQueueNode) : MmChannel :=
  let superBuf := resetMetaOnly superBuf bufInfo.frameIdx
  if superBuf.slotFrameIdx bufSIdx ≠ 0 then
    -- the slot is taken: the queue keeps the old buffer, the new one goes back
    { ch with queue.que := ch.queue.que.set s.pos superBuf }.qbufs [bufInfo.buf]
  else
    let superBuf :=
      { superBuf with superBuf := superBuf.superBuf.set bufSIdx (some bufInfo) }
    if superBuf.allFilled then ch.completeNode s bufInfo.frameIdx superBuf
    else ch.keepNode s bufInfo.frameIdx superBuf

/-! ### A new node -/

/-- The first node from `last_buf` on, at index `i`, that the eviction loop may remove: it
is not marked `expected_frame` and is not `insert_before_buf`. -/
def evictable (insertBeforeBuf : Option ℕ) : List MmChannelQueueNode → ℕ → Option (ℕ × MmChannelQueueNode)
  | [], _ => none
  | n :: rest, i =>
    if n.expectedFrame = false ∧ insertBeforeBuf ≠ some i then some (i, n)
    else evictable insertBeforeBuf rest (i + 1)

/-- Node `i` is unlinked and its buffers are returned, in each of `visits` rounds of the
loop that removes it. -/
def evict (ch : MmChannel) (i : ℕ) (n : MmChannelQueueNode) (visits : ℕ) : MmChannel :=
  let ch := ch.qbufs (List.replicate visits n.filledBufs).flatten
  { ch with
    queue.que := ch.queue.que.eraseIdx i
    queue.size := ch.queue.size - visits }

/-- The node that is removed to make room: its position, the node, and the number of
rounds that release it. The eviction loop steps on through `last_buf_ptr->next` of the node
it has just freed, which `cam_list_del_node` made point to the node itself, so it comes back
to the same node and releases it again until the bound is met. Only when the loop found
nothing to remove, the eviction after it takes `last_buf`. -/
def evictee (ch : MmChannel) (s : SuperbufScan) : Option (ℕ × MmChannelQueueNode × ℕ) :=
  match s.lastBuf with
  | none => none
  | some l =>
    if ch.queue.attr.maxUnmatchedFrames < s.unmatchedBundles then
      match evictable s.insertBeforeBuf (ch.queue.que.drop l) l with
      | some (i, n) => some (i, n, s.unmatchedBundles - ch.queue.attr.maxUnmatchedFrames)
      | none => ch.queue.que[l]?.map fun n => (l, n, 1)
    else none

/-- Making room: the eviction loop and the second eviction after it. -/
def makeRoom (ch : MmChannel) (s : SuperbufScan) : MmChannel :=
  match ch.evictee s with
  | none => ch
  | some (i, n, visits) => ch.evict i n visits

/-- Where the new node goes once `makeRoom` has run: before `insert_before_buf`, or at the
end. An eviction moves the nodes behind it one place forward. -/
def insertPos (ch : MmChannel) (s : SuperbufScan) : ℕ :=
  let i := s.insertBeforeBuf.getD ch.queue.que.length
  match ch.evictee s with
  | none => i
  | some (j, _, _) => if j < i then i - 1 else i

/-- The node made for a buffer that joins no other. -/
def newNode (ch : MmChannel) (bufSIdx : ℕ) (bufInfo : MmCameraBufInfo) : MmChannelQueueNode where
  superBuf := (List.replicate ch.queue.numStreams none).set bufSIdx (some bufInfo)
  frameIdx := bufInfo.frameIdx
  matched := ch.queue.numStreams == 1
  expectedFrame := (ch.divertedFrameId == bufInfo.frameIdx ||
    bufInfo.frameIdx == ch.queue.goodFrameId) && ch.queue.numStreams != 1
  unmatchedMetaIdx :=
    if ch.queue.attr.priority = .low ∧ bufInfo.buf.streamType = .metadata then
      bufInfo.frameIdx
    else 0

/-- The new node is linked in at `i`; with a single bundled stream it is complete. -/
def linkNode (ch : MmChannel) (bufSIdx : ℕ) (bufInfo : MmCameraBufInfo) (i : ℕ) : MmChannel :=
  let node := ch.newNode bufSIdx bufInfo
  let ch := { ch with
    divertedFrameId :=
      if ch.divertedFrameId = bufInfo.frameIdx ∨ bufInfo.frameIdx = ch.queue.goodFrameId then 0
      else ch.divertedFrameId
    queue.que := ch.queue.que.insertIdx i node
    queue.size := ch.queue.size + 1 }
  if ch.queue.numStreams = 1 then
    { ch with queue.expectedFrameId :=
        addU32 bufInfo.frameIdx ch.queue.attr.postFrameSkip }.countMatch bufInfo.frameIdx
  else ch

/-- The branch without a node to join. -/
def insertNew (ch : MmChannel) (bufSIdx : ℕ) (bufInfo : MmCameraBufInfo) (s : SuperbufScan) :
    MmChannel :=
  if ch.queue.attr.maxUnmatchedFrames < s.unmatchedBundles ∧ s.lastBuf = none then
    -- the buffer is older than every partial super-buffer, and those are enough
    ch.qbufs [bufInfo.buf]
  else
    let i := ch.insertPos s
    let ch := ch.makeRoom s
    -- one `malloc` for the super-buffer and one for its list node
    let ok := ch.malloc ch.mallocs && ch.malloc (ch.mallocs + 1)
    let ch := { ch with mallocs := ch.mallocs + 2 }
    if ok then ch.linkNode bufSIdx bufInfo i else ch.qbufs [bufInfo.buf]

/-! ### `mm_channel_superbuf_comp_and_enqueue` -/

/-- The part of `comp_and_enqueue` under the queue lock. -/
def superbufComp (ch : MmChannel) (bufSIdx : ℕ) (bufInfo : MmCameraBufInfo) : MmChannel :=
  let s := superbufScan (joins ch.queue.attr.priority bufSIdx bufInfo) bufInfo.frameIdx ch.queue.que {}
  match s.superBuf with
  | some superBuf => ch.joinNode bufSIdx bufInfo s superBuf
  | none => ch.insertNew bufSIdx bufInfo s

/-- `mm_channel_superbuf_comp_and_enqueue`. -/
def superbufCompAndEnqueue (ch : MmChannel) (bufInfo : MmCameraBufInfo) : ℤ × MmChannel :=
  match ch.queue.bundledStreams.findIdx? (bufInfo.streamId == ·) with
  | none => (-1, ch)
  | some bufSIdx =>
    if bufInfo.frameIdx = 0 then (0, ch.qbufs [bufInfo.buf])
    else
      match ch.handleMetadata bufInfo with
      | (rc, ch) =>
        if rc < 0 then (-1, ch.qbufs [bufInfo.buf])
        else if utilSeqCompWRollover bufInfo.frameIdx ch.queue.expectedFrameId < 0 ∧
            ch.validateSuperBuf bufInfo ≤ 0 then
          (0, ch.qbufs [bufInfo.buf])
        else (0, ch.superbufComp bufSIdx bufInfo)

end MmChannel

end Marlin
