import Mathlib.Algebra.Group.Int.Defs
import Mathlib.Algebra.GroupWithZero.Nat
import Mathlib.Data.List.Basic

/-!
# The Channel of the Camera Interface

The data of `mm_channel_t` that the bundling of stream buffers works on: buffers as they
leave a stream, the super-buffer queue with its nodes and attributes, the capture
controls, and the streams of the channel. The functions on it follow in
`Marlin.SuperbufQueue`, `Marlin.SuperbufMatch` and `Marlin.ChannelThread`.

## Conventions

* Pointers to long-lived objects (channels, streams) are their handles; a pointer that
  may be `NULL` is an `Option`.
* `uint32_t` and `uint8_t` values are natural numbers, and arithmetic that can leave the
  type is written with its `% 2 ^ 32` or `% 256`. The queue counters `size` and
  `match_cnt` count heap nodes and stay far below the bound of their type.
* A function that calls out of the channel (into a stream, the frame-sync table, the
  camera object or the callback thread) records the call in `MmChannel.out`.
* `malloc` is an oracle: the `n`-th allocation of the channel succeeds iff
  `MmChannel.malloc n`.
-/

namespace Marlin

/-- `cam_stream_type_t`. -/
inductive CamStreamType
  | default | preview | postview | snapshot | video | callback | implDefined | metadata
  | raw | offlineProc | parm | analysis | max
  deriving DecidableEq

/-- `cam_frame_idx_range_t`. -/
structure CamFrameIdxRange where
  minFrameIdx : ℕ
  maxFrameIdx : ℕ
  numLedOnFrames : ℕ := 0
  frameSkipCount : ℕ := 0
  configBatchIdx : ℕ := 0
  deriving DecidableEq

/-- `cam_stream_crop_info_t`: a stream and the corner of its crop rectangle. -/
structure CamStreamCropInfo where
  streamId : ℕ
  left : ℤ
  top : ℤ
  deriving DecidableEq

/-- The tags of a `metadata_buffer_t` that the channel reads; `none` is a tag whose
`is_valid` flag is clear. -/
structure MetadataBuffer where
  prepSnapshotDone : Option ℤ := none
  goodFrameIdxRange : Option CamFrameIdxRange := none
  cropData : Option (List CamStreamCropInfo) := none
  /-- The `frame_id` of `CAM_INTF_BUF_DIVERT_INFO`. -/
  bufDivertInfo : Option ℕ := none
  lowLight : Option ℕ := none
  /-- The `settled` field of `CAM_INTF_META_AEC_INFO`. -/
  aecSettled : Option Bool := none
  deriving DecidableEq

/-- `mm_camera_buf_def_t`: a stream buffer. `buffer` is the mapped memory, which the
channel reads on the metadata stream only. -/
structure MmCameraBufDef where
  streamId : ℕ
  streamType : CamStreamType
  bufIdx : ℕ
  buffer : Option MetadataBuffer := none
  deriving DecidableEq

/-- `mm_camera_buf_info_t`: a dequeued buffer with its frame index. -/
structure MmCameraBufInfo where
  streamId : ℕ
  frameIdx : ℕ
  buf : MmCameraBufDef
  deriving DecidableEq

/-- `mm_channel_queue_node_t`: a super-buffer, with one slot per bundled stream. A slot
that is still zero from the `memset` is `none`. -/
structure MmChannelQueueNode where
  superBuf : List (Option MmCameraBufInfo)
  matched : Bool := false
  expectedFrame : Bool := false
  frameIdx : ℕ
  unmatchedMetaIdx : ℕ := 0
  deriving DecidableEq

/-- `mm_camera_super_buf_notify_mode_t`. -/
inductive NotifyMode
  | burst | continuous | max
  deriving DecidableEq

/-- `mm_camera_super_buf_priority_t`. -/
inductive SuperBufPriority
  | normal | focus | exposureBracketing | low | max
  deriving DecidableEq

/-- `mm_camera_channel_attr_t`: the bundle attributes of a channel. The default is the
zeroed structure. -/
structure MmCameraChannelAttr where
  notifyMode : NotifyMode := .burst
  waterMark : ℕ := 0
  lookBack : ℕ := 0
  postFrameSkip : ℕ := 0
  maxUnmatchedFrames : ℕ := 0
  enableFrameSync : Bool := false
  priority : SuperBufPriority := .normal
  userExpectedFrameId : ℕ := 0
  deriving DecidableEq

/-- `mm_channel_queue_t`: the super-buffer queue. `que` is the list behind
`que.head`, front first, and `size` the counter kept beside it. -/
structure MmChannelQueue where
  que : List MmChannelQueueNode := []
  size : ℕ := 0
  bundledStreams : List ℕ := []
  attr : MmCameraChannelAttr := {}
  expectedFrameId : ℕ := 0
  matchCnt : ℕ := 0
  expectedFrameIdWithoutLed : ℕ := 0
  ledOnStartFrameId : ℕ := 0
  ledOffStartFrameId : ℕ := 0
  ledOnNumFrames : ℕ := 0
  once : Bool := false
  frameSkipCount : ℕ := 0
  goodFrameId : ℕ := 0
  deriving DecidableEq

/-- The number of entries of `bundled_streams`: `mm_channel_start` fills the array and
sets `num_streams` from the same streams. -/
def MmChannelQueue.numStreams (q : MmChannelQueue) : ℕ := q.bundledStreams.length

/-- `cam_capture_type`. -/
inductive CamCaptureType
  | normal | flash | bracketing | lowLight | reset | manual3A | max
  deriving DecidableEq

/-- `cam_capture_settings_t`: the number of frames of a batch and its kind. -/
structure CamCaptureSettings where
  numFrames : ℤ := 0
  type : CamCaptureType := .normal
  deriving DecidableEq

/-- `cam_capture_frame_config_t`. The arrays of the capture configuration are functions
of the index: an index past the end names the memory behind the array. -/
structure CamCaptureFrameConfig where
  numBatch : ℕ := 0
  configs : ℕ → CamCaptureSettings := fun _ => {}

/-- `mm_channel_bracketing_state_t`. -/
inductive BracketingState
  | off | waitGoodFrameIdx | active
  deriving DecidableEq

/-- `mm_camera_req_buf_type_t`. -/
inductive ReqBufType
  | superBuf | frameSyncBuf
  deriving DecidableEq

/-- `mm_stream_state_type_t`. -/
inductive MmStreamState
  | notUsed | inited | acquired | cfg | buffed | reg | active
  deriving DecidableEq

/-- The fields of `cam_stream_info_t` that the channel and the stream read. -/
structure CamStreamInfo where
  streamType : CamStreamType
  noFrameExpected : Bool := false
  numBufs : ℕ := 0
  deriving DecidableEq

/-- `mm_stream_buf_status_t`. -/
structure MmStreamBufStatus where
  bufRefcnt : ℕ := 0
  initialRegFlag : Bool := false
  inKernel : Bool := false
  mapStatus : ℤ := 0
  deriving DecidableEq

/-- What a linked stream keeps of the stream it is a copy of: the fields `linked_obj` and
`is_linked` of `linked_stream`. -/
structure LinkedStream where
  linkedObj : Option ℕ := none
  isLinked : Bool := false
  deriving DecidableEq

/-- `mm_stream_t`. `chObj` is the handle of the owning channel, so a stream linked into a
channel carries another handle than the channel's. `buf` is the array filled by
`mem_vtbl.get_bufs`, `none` when it is `NULL`. -/
structure MmStream where
  myHdl : ℕ
  serverStreamId : ℕ := 0
  fd : ℤ := -1
  state : MmStreamState
  streamInfo : Option CamStreamInfo
  chObj : ℕ
  linkedStream : Option LinkedStream := none
  isBundled : Bool := false
  bufNum : ℕ := 0
  buf : Option (List MmCameraBufDef) := none
  bufStatus : List MmStreamBufStatus := []
  queuedBufferCount : ℤ := 0
  deriving DecidableEq

/-- A call that leaves the channel, or an access worth recording. -/
inductive Action
  /-- `mm_channel_qbuf`. -/
  | qbuf (buf : MmCameraBufDef)
  /-- `mm_frame_sync_add`, made as `match_cnt` goes up under `enable_frame_sync`. -/
  | frameSyncAdd (frameIdx : ℕ)
  /-- `mm_frame_sync_remove`. -/
  | frameSyncRemove (frameIdx : ℕ)
  /-- `mm_camera_start_zsl_snapshot`. -/
  | startZslSnapshot
  /-- `mm_camera_stop_zsl_snapshot`. -/
  | stopZslSnapshot
  /-- `cam_sem_post` on `cmd_thread.sync_sem`. -/
  | semPost
  /-- A node is handed to `mm_channel_send_super_buf`. -/
  | sendSuperBuf (node : MmChannelQueueNode)
  /-- A super-buffer is enqueued to the callback thread, with `bReadyForPrepareSnapshot`
  and `bUnlockAEC`. -/
  | cbEnq (bufs : List MmCameraBufDef) (bReadyForPrepareSnapshot bUnlockAEC : Bool)
  /-- A super-buffer is complete: `match_cnt` goes up for this frame. -/
  | superBufMatched (frameIdx : ℕ)
  /-- `capture_frame_id` or `frameConfig.configs` is read or written at `cur_capture_idx`. -/
  | captureAccess (idx : ℕ)
  deriving DecidableEq

/-- `mm_channel_t`, with the bundle's queue, the calls made so far (`out`) and the
allocation oracle. `superBufNotifyCb` says whether a callback is registered. -/
structure MmChannel where
  myHdl : ℕ
  queue : MmChannelQueue := {}
  isActive : Bool := false
  superBufNotifyCb : Bool := true
  streams : List MmStream := []
  pendingCnt : ℕ := 0
  pendingRetroCnt : ℕ := 0
  reqType : ReqBufType := .superBuf
  bWaitForPrepSnapshotDone : Bool := false
  unLockAEC : Bool := false
  stopZslSnapshot : Bool := false
  manualZSLSnapshot : Bool := false
  startZSlSnapshotCalled : Bool := false
  needLEDFlash : Bool := false
  bracketingState : BracketingState := .off
  isFlashBracketingEnabled : Bool := false
  isZoom1xFrameRequested : Bool := false
  burstSnapNum : ℕ := 0
  /-- A `uint8_t`, although it holds a frame index. -/
  divertedFrameId : ℕ := 0
  isConfigCapture : Bool := false
  curCaptureIdx : ℕ := 0
  captureFrameId : ℕ → ℕ := fun _ => 0
  frameConfig : CamCaptureFrameConfig := {}
  needLowLightZSL : ℕ := 0
  malloc : ℕ → Bool := fun _ => true
  mallocs : ℕ := 0
  out : List Action := []

namespace MmChannelQueueNode

/-- `num_of_bufs`: the slots of a node are allocated for the bundled streams. -/
def numOfBufs (n : MmChannelQueueNode) : ℕ := n.superBuf.length

/-- `super_buf[i].frame_idx`, zero in a slot that was never filled. -/
def slotFrameIdx (n : MmChannelQueueNode) (i : ℕ) : ℕ :=
  ((n.superBuf[i]?).join.map MmCameraBufInfo.frameIdx).getD 0

/-- The buffers of the slots with `frame_idx != 0`, in slot order. -/
def filledBufs (n : MmChannelQueueNode) : List MmCameraBufDef :=
  n.superBuf.filterMap fun s => s.bind fun b => if b.frameIdx = 0 then none else some b.buf

/-- The buffers of the slots with `buf != NULL`, in slot order. -/
def bufs (n : MmChannelQueueNode) : List MmCameraBufDef :=
  n.superBuf.filterMap fun s => s.map MmCameraBufInfo.buf

/-- The flag computed over `num_of_bufs` slots: no slot has `frame_idx == 0`. -/
def allFilled (n : MmChannelQueueNode) : Bool :=
  n.superBuf.all fun s => ((s.map MmCameraBufInfo.frameIdx).getD 0) != 0

end MmChannelQueueNode

namespace MmChannel

/-- Record a call. -/
def call (ch : MmChannel) (a : Action) : MmChannel :=
  { ch with out := ch.out ++ [a] }

/-- `mm_channel_qbuf` on each buffer in turn. -/
def qbufs (ch : MmChannel) (bs : List MmCameraBufDef) : MmChannel :=
  { ch with out := ch.out ++ bs.map .qbuf }

/-- `mm_channel_util_get_stream_by_handler`. -/
def utilGetStreamByHandler (ch : MmChannel) (handler : ℕ) : Option MmStream :=
  ch.streams.find? fun s => s.state != .notUsed && s.myHdl == handler

end MmChannel

end Marlin
