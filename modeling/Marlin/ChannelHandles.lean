import Marlin.CameraLocks
import Marlin.ChannelStart

/-!
# The Handles of Channels

`mm_camera_add_channel` gives the client a handle of the channel, which every later call looks
up among the handles of all channels of the camera. A channel that is not in use is all zero,
so that it has handle 0: its state machine fails every event. `mm_camera_del_channel` sends
the channel the event and then clears it, whatever the state machine answered; a channel that
runs has no such event, which counts as success.

`mm_camera_stop_channel` starts out with the result of a success, and
`mm_camera_reg_stream_buf_cb` returns it always, so that they succeed for a handle of no
channel.

## Conventions

* What the calls below a channel answer is given by `ChannelCalls`. `other` stands for what
  the state machine calls in events that neither add, remove, configure, link, start nor stop
  anything.
* The pointers that are only passed on are left out, and so is what a call does to the stream
  that a linked one is a copy of.
* The history is that of one camera, and `added` are the handles of the channels that were
  added and not deleted since.

## Main results

* `Kept.step`: the channels in use are those that were added, and the others are zero.
* `Kept.refused_iff`: what a call does for a handle of no channel.
* `handles_run`: which calls refuse such a handle, and that a channel that could not be
  deleted is as before.
-/

namespace Marlin

open List Option Transition

/-- What the calls below a channel answer: `open` and `mm_stream_set_ext_mode` with the id of
the stream, what `mm_stream_sync_info` and `mm_stream_set_fmt` leave, the calls that start and
stop streams, and those of the other events. -/
structure ChannelCalls where
  fd : ℤ := 3
  setExtMode : ℤ := 0
  serverStreamId : ℕ := 0
  config : ℤ := 0
  start : ℕ → StartCalls
  other : MmChannelEvt → ChannelSlots → ℤ × ChannelSlots
  qbuf : StreamSlot → ℤ × StreamSlot
  cancelBuf : StreamSlot → ℤ × StreamSlot

/-- A stream that is all zero. -/
def zeroStream : StreamSlot where
  stream := { myHdl := 0, fd := 0, state := .notUsed, streamInfo := none, chObj := 0 }

/-- `mm_channel_t` as the interface sees it: `slots` are the entries of `streams`, and `polling`
says whether the data poll thread was launched. The default is the channel that is all zero. -/
structure ChannelObj extends ChannelSlots where
  myHdl := 0
  bundle := { superBufNotifyCb := false }
  slots := List.replicate 8 zeroStream
  state : MmChannelState := .notUsed
  polling : Bool := false
  deriving DecidableEq

/-- The events of a channel, with their payloads. `other` are those that `ChannelCalls.other`
answers. -/
inductive ChannelEvt
  | addStream
  | linkStream (owner : ChannelObj) (streamId : ℕ)
  | delStream (streamId : ℕ)
  | configStream (streamId : ℕ) (info : CamStreamInfo)
  | start
  | stop
  | delete
  | other (evt : MmChannelEvt)

/-! ### The streams of a channel -/

namespace StreamSlot

/-- The event `MM_STREAM_EVT_ACQUIRE` of a stream that was just initialized. -/
def acquire (calls : ChannelCalls) (s : StreamSlot) : ℤ × StreamSlot :=
  if calls.fd < 0 then (-1, { s with stream.fd := calls.fd })
  else if calls.setExtMode = 0 then
    (0, { s with
      stream.fd := calls.fd
      stream.serverStreamId := calls.serverStreamId
      stream.state := .acquired })
  else (calls.setExtMode, { s with stream.fd := -1 })

/-- The event `MM_STREAM_EVT_SET_FMT`: the stream counts as configured whatever
`mm_stream_config` returns. -/
def setFmt (calls : ChannelCalls) (info : CamStreamInfo) (s : StreamSlot) : ℤ × StreamSlot :=
  match s.stream.state with
  | .notUsed => (-1, s)
  | .acquired | .cfg =>
    (calls.config, { s with
      stream.streamInfo := some info
      stream.bufNum := info.numBufs % 256
      stream.state := .cfg })
  | _ => (0, s)

/-- The event `MM_STREAM_EVT_RELEASE`. -/
def release (s : StreamSlot) : ℤ × StreamSlot :=
  match s.stream.state with
  | .notUsed => (-1, s)
  | .acquired | .cfg => (0, { zeroStream with stream.fd := -1 })
  | _ => (0, s)

end StreamSlot

namespace ChannelObj

/-- `mm_channel_util_get_stream_by_handler`, as the index of the entry. -/
def getStreamByHandler (c : ChannelObj) (handler : ℕ) : Option ℕ :=
  c.slots.findIdx? fun s => s.stream.state != .notUsed && s.stream.myHdl == handler

/-- The first entry of `streams` that is not used. -/
def freeStream (c : ChannelObj) : Option ℕ :=
  c.slots.findIdx? fun s => s.stream.state == .notUsed

/-- An entry of `streams` is changed. -/
def setStream (c : ChannelObj) (i : ℕ) (s : StreamSlot) : ChannelObj :=
  { c with slots := c.slots.set i s }

/-- The streams of a channel, which `mm_channel_start` and `mm_channel_stop` collect. -/
def usedStreams (c : ChannelObj) : ChannelSlots :=
  { c.toChannelSlots with
    slots := c.slots.filter fun s => 0 < s.stream.myHdl && s.stream.state != .notUsed }

/-- What became of the streams that were collected goes back to their entries. -/
def putBack (c : ChannelObj) (before : List StreamSlot) (after : ChannelSlots) : ChannelObj :=
  { c with
    bundle := after.bundle
    bWaitForPrepSnapshotDone := after.bWaitForPrepSnapshotDone
    frameSync := after.frameSync
    slots := c.slots.map fun s =>
      ((before.zip after.slots).find? fun p => p.1.stream.myHdl == s.stream.myHdl).elim s (·.2) }

/-- `mm_channel_add_stream`, with the next handle. -/
def addStream (calls : ChannelCalls) (hdl : ℕ → ℕ) (c : ChannelObj) : ℕ × ChannelObj :=
  match c.freeStream with
  | none => (0, c)
  | some i =>
    let s : StreamSlot :=
      { stream := { myHdl := hdl i, state := .inited, streamInfo := none, chObj := c.myHdl } }
    match s.acquire calls with
    | (0, s) => (hdl i, c.setStream i s)
    | (_, _) => (0, c.setStream i zeroStream)

/-- `mm_channel_link_stream`: the stream of the other channel is copied. -/
def linkStream (c owner : ChannelObj) (streamId : ℕ) : ℕ × ChannelObj :=
  match (owner.getStreamByHandler streamId).bind fun i => owner.slots[i]? with
  | none => (0, c)
  | some s =>
    match c.freeStream with
    | none => (0, c)
    | some i =>
      (s.stream.myHdl, c.setStream i { stream := { s.stream with linkedStream := some {} } })

/-- `mm_channel_del_stream`. A linked stream is only unlinked. -/
def delStream (streamId : ℕ) (c : ChannelObj) : ℤ × ChannelObj :=
  match c.getStreamByHandler streamId with
  | none => (-1, c)
  | some i =>
    let s := (c.slots[i]?).getD zeroStream
    if s.isOwned c.myHdl then (s.release.1, c.setStream i s.release.2)
    else (0, c.setStream i zeroStream)

/-- `mm_channel_config_stream`. -/
def configStream (calls : ChannelCalls) (streamId : ℕ) (info : CamStreamInfo) (c : ChannelObj) : ℤ × ChannelObj :=
  match c.getStreamByHandler streamId with
  | none => (-1, c)
  | some i =>
    let s := (c.slots[i]?).getD zeroStream
    if s.isOwned c.myHdl then
      ((s.setFmt calls info).1, c.setStream i (s.setFmt calls info).2)
    else (0, c)

/-- `mm_channel_start`, which fails with a negative number. -/
def start (calls : ChannelCalls) (c : ChannelObj) : ℤ × ChannelObj :=
  let r := c.usedStreams.channelStart calls.start
  (if r.1 then 0 else -1, c.putBack c.usedStreams.startOrder r.2)

/-- `mm_channel_stop`. -/
def stop (calls : ChannelCalls) (c : ChannelObj) : ℤ × ChannelObj :=
  (0, c.putBack c.usedStreams.slots (c.usedStreams.channelStop calls.start))

/-- `mm_channel_init`. -/
def init (attr : Option MmCameraChannelAttr) (channelCb : Bool) (c : ChannelObj) : ChannelObj :=
  { c with
    bundle.superBufNotifyCb := channelCb
    bundle.superbufQueue.attr := attr.getD c.bundle.superbufQueue.attr
    polling := true
    state := .stopped }

/-- `mm_channel_release`. -/
def release (c : ChannelObj) : ChannelObj :=
  { c with
    polling := false
    bundle := { superBufNotifyCb := false }
    state := .notUsed }

/-- What `mm_channel_qbuf` and `mm_channel_cancel_buf` share: the stream of the handle gets the
buffer. A linked stream passes it on. -/
def toStream (answer : StreamSlot → ℤ × StreamSlot) (streamId : ℕ) (c : ChannelObj) : ℤ × ChannelObj :=
  match c.getStreamByHandler streamId with
  | none => (-1, c)
  | some i =>
    let s := (c.slots[i]?).getD zeroStream
    ((answer s).1, if s.isOwned c.myHdl then c.setStream i (answer s).2 else c)

/-- `mm_channel_qbuf`. -/
def qbuf (calls : ChannelCalls) (streamId : ℕ) (c : ChannelObj) : ℤ × ChannelObj :=
  c.toStream calls.qbuf streamId

/-- `mm_channel_cancel_buf`. -/
def cancelBuf (calls : ChannelCalls) (streamId : ℕ) (c : ChannelObj) : ℤ × ChannelObj :=
  c.toStream calls.cancelBuf streamId

/-! ### The state machine of a channel -/

/-- What an event returns: its result, the handle it stores, and the channel. -/
structure FsmResult where
  rc : ℤ
  sHdl : ℕ := 0
  ch : ChannelObj

/-- The events of `mm_channel_fsm_fn_stopped` that `ChannelCalls.other` answers. -/
def handledStopped : MmChannelEvt → Bool
  | .getBundleInfo | .setStreamParm | .getStreamQueuedBufCount | .getStreamParm
  | .doStreamAction | .mapStreamBuf | .mapStreamBufs | .unmapStreamBuf | .regStreamBufCb => true
  | _ => false

/-- The events of `mm_channel_fsm_fn_active` that `ChannelCalls.other` answers. -/
def handledActive : MmChannelEvt → Bool
  | .requestSuperBuf | .cancelRequestSuperBuf | .flushSuperBufQueue | .startZslSnapshot
  | .stopZslSnapshot | .configNotifyMode | .setStreamParm | .getStreamQueuedBufCount
  | .getStreamParm | .doStreamAction | .mapStreamBuf | .mapStreamBufs | .unmapStreamBuf
  | .afBracketing | .aeBracketing | .flashBracketing | .zoom1x | .captureSetting
  | .regStreamBufCb => true
  | _ => false

/-- What `ChannelCalls.other` answers. -/
def otherEvt (calls : ChannelCalls) (c : ChannelObj) (evt : MmChannelEvt) : FsmResult where
  rc := (calls.other evt c.toChannelSlots).1
  ch := { c with toChannelSlots := (calls.other evt c.toChannelSlots).2 }

/-- `mm_channel_fsm_fn_stopped`. An event without a case succeeds. -/
def fsmStopped (calls : ChannelCalls) (hdl : ℕ → ℕ) (c : ChannelObj) : ChannelEvt → FsmResult
  | .addStream => { rc := 0, sHdl := (c.addStream calls hdl).1, ch := (c.addStream calls hdl).2 }
  | .linkStream owner streamId =>
    { rc := 0, sHdl := (c.linkStream owner streamId).1, ch := (c.linkStream owner streamId).2 }
  | .delStream streamId => { rc := (c.delStream streamId).1, ch := (c.delStream streamId).2 }
  | .start =>
    let r := c.start calls
    { rc := r.1, ch := if r.1 = 0 then { r.2 with state := .active } else r.2 }
  | .configStream streamId info =>
    { rc := (c.configStream calls streamId info).1, ch := (c.configStream calls streamId info).2 }
  | .delete => { rc := 0, ch := c.release }
  | .stop => { rc := 0, ch := c }
  | .other evt => if handledStopped evt then c.otherEvt calls evt else { rc := 0, ch := c }

/-- `mm_channel_fsm_fn_active`. An event without a case succeeds. -/
def fsmActive (calls : ChannelCalls) (c : ChannelObj) : ChannelEvt → FsmResult
  | .stop => { rc := (c.stop calls).1, ch := { (c.stop calls).2 with state := .stopped } }
  | .other evt => if handledActive evt then c.otherEvt calls evt else { rc := 0, ch := c }
  | _ => { rc := 0, ch := c }

/-- `mm_channel_fsm_fn`. -/
def fsmFn (calls : ChannelCalls) (hdl : ℕ → ℕ) (c : ChannelObj) (evt : ChannelEvt) : FsmResult :=
  match c.state with
  | .notUsed => { rc := -1, ch := c }
  | .stopped => c.fsmStopped calls hdl evt
  | .active => c.fsmActive calls evt
  | .paused => { rc := 0, ch := c }

/-- Only a stream that is added to an entry gets a handle made. -/
def makesHandle (c : ChannelObj) : ChannelEvt → Bool
  | .addStream => c.state == .stopped && c.freeStream.isSome
  | _ => false

end ChannelObj

/-- A camera with its channels and `g_handler_history_count`. -/
structure ChannelTable where
  ch : List ChannelObj := List.replicate 16 {}
  handlerHistoryCount : ℕ := 0
  deriving DecidableEq

namespace ChannelTable

/-- The next `g_handler_history_count`, a `uint16_t` that skips zero. -/
def nextHistoryCount (t : ChannelTable) : ℕ :=
  let count := (t.handlerHistoryCount + 1) % 65536
  if count = 0 then 1 else count

/-- `mm_camera_util_generate_handler`. -/
def generateHandler (t : ChannelTable) (idx : ℕ) : ℕ := t.nextHistoryCount * 256 + idx

/-- `mm_camera_util_get_channel_by_handler`, as an index. -/
def getChannelByHandler (t : ChannelTable) (handler : ℕ) : Option ℕ :=
  t.ch.findIdx? fun c => c.myHdl == handler

/-- The channel of an index. -/
def chObj (t : ChannelTable) (i : ℕ) : ChannelObj := (t.ch[i]?).getD {}

/-- A channel is changed. -/
def setChannel (t : ChannelTable) (i : ℕ) (c : ChannelObj) : ChannelTable :=
  { t with ch := t.ch.set i c }

/-- A channel gets an event, which may make a handle. -/
def sendEvt (calls : ChannelCalls) (i : ℕ) (evt : ChannelEvt) (t : ChannelTable) :
    ChannelObj.FsmResult × ChannelTable :=
  let c := t.chObj i
  let r := c.fsmFn calls t.generateHandler evt
  (r, { t.setChannel i r.ch with
    handlerHistoryCount :=
      if c.makesHandle evt then t.nextHistoryCount else t.handlerHistoryCount })

/-! ### `mm_camera.c` -/

section Calls

variable (calls : ChannelCalls)

/-- `mm_camera_add_channel`. -/
def addChannel (attr : Option MmCameraChannelAttr) (channelCb : Bool) (t : ChannelTable) : ℕ × ChannelTable :=
  match t.ch.findIdx? fun c => c.state == .notUsed with
  | some i =>
    let c : ChannelObj := { myHdl := t.generateHandler i, state := .stopped }
    (t.generateHandler i, { t.setChannel i (c.init attr channelCb) with
      handlerHistoryCount := t.nextHistoryCount })
  | none => (0, t)

/-- `mm_camera_del_channel`. -/
def delChannel (chId : ℕ) (t : ChannelTable) : ℤ × ChannelTable :=
  match t.getChannelByHandler chId with
  | some i =>
    let r := t.sendEvt calls i .delete
    (r.1.rc, r.2.setChannel i {})
  | none => (-1, t)

/-- What most functions on a channel share: the channel gets an event. Without the channel
they return `rc`. -/
def channelEvt (rc : ℤ) (evt : ChannelEvt) (chId : ℕ) (t : ChannelTable) : ℤ × ChannelTable :=
  match t.getChannelByHandler chId with
  | some i => ((t.sendEvt calls i evt).1.rc, (t.sendEvt calls i evt).2)
  | none => (rc, t)

/-- `mm_camera_add_stream`, which returns the handle that the event stored. -/
def addStream (chId : ℕ) (t : ChannelTable) : ℕ × ChannelTable :=
  match t.getChannelByHandler chId with
  | some i => ((t.sendEvt calls i .addStream).1.sHdl, (t.sendEvt calls i .addStream).2)
  | none => (0, t)

/-- `mm_camera_link_stream`. -/
def linkStream (chId streamId linkedChId : ℕ) (t : ChannelTable) : ℕ × ChannelTable :=
  match t.getChannelByHandler linkedChId, t.getChannelByHandler chId with
  | some i, some o =>
    let r := t.sendEvt calls i (.linkStream (t.chObj o) streamId)
    (r.1.sHdl, r.2)
  | _, _ => (0, t)

/-- `mm_camera_get_bundle_info`. -/
def getBundleInfo : ℕ → ChannelTable → ℤ × ChannelTable :=
  channelEvt calls (-1) (.other .getBundleInfo)

/-- `mm_camera_del_stream`. -/
def delStream (streamId : ℕ) : ℕ → ChannelTable → ℤ × ChannelTable :=
  channelEvt calls (-1) (.delStream streamId)

/-- `mm_camera_start_zsl_snapshot_ch`. -/
def startZslSnapshotCh : ℕ → ChannelTable → ℤ × ChannelTable :=
  channelEvt calls (-1) (.other .startZslSnapshot)

/-- `mm_camera_stop_zsl_snapshot_ch`. -/
def stopZslSnapshotCh : ℕ → ChannelTable → ℤ × ChannelTable :=
  channelEvt calls (-1) (.other .stopZslSnapshot)

/-- `mm_camera_config_stream`. -/
def configStream (streamId : ℕ) (info : CamStreamInfo) : ℕ → ChannelTable → ℤ × ChannelTable :=
  channelEvt calls (-1) (.configStream streamId info)

/-- `mm_camera_start_channel`. -/
def startChannel : ℕ → ChannelTable → ℤ × ChannelTable := channelEvt calls (-1) .start

/-- `mm_camera_stop_channel`, the only one that starts out with 0. -/
def stopChannel : ℕ → ChannelTable → ℤ × ChannelTable := channelEvt calls 0 .stop

/-- `mm_camera_request_super_buf`, which tests the request once more. -/
def requestSuperBuf (buf : Bool) (chId : ℕ) (t : ChannelTable) : ℤ × ChannelTable :=
  if buf then channelEvt calls (-1) (.other .requestSuperBuf) chId t else (-1, t)

/-- `mm_camera_cancel_super_buf_request`. -/
def cancelSuperBufRequest : ℕ → ChannelTable → ℤ × ChannelTable :=
  channelEvt calls (-1) (.other .cancelRequestSuperBuf)

/-- `mm_camera_flush_super_buf_queue`. -/
def flushSuperBufQueue : ℕ → ChannelTable → ℤ × ChannelTable :=
  channelEvt calls (-1) (.other .flushSuperBufQueue)

/-- `mm_camera_config_channel_notify`. -/
def configChannelNotify : ℕ → ChannelTable → ℤ × ChannelTable :=
  channelEvt calls (-1) (.other .configNotifyMode)

/-- `mm_camera_set_stream_parms`. -/
def setStreamParms : ℕ → ChannelTable → ℤ × ChannelTable :=
  channelEvt calls (-1) (.other .setStreamParm)

/-- `mm_camera_get_stream_parms`. -/
def getStreamParms : ℕ → ChannelTable → ℤ × ChannelTable :=
  channelEvt calls (-1) (.other .getStreamParm)

/-- `mm_camera_do_stream_action`. -/
def doStreamAction : ℕ → ChannelTable → ℤ × ChannelTable :=
  channelEvt calls (-1) (.other .doStreamAction)

/-- `mm_camera_map_stream_buf`. -/
def mapStreamBuf : ℕ → ChannelTable → ℤ × ChannelTable :=
  channelEvt calls (-1) (.other .mapStreamBuf)

/-- `mm_camera_map_stream_bufs`. -/
def mapStreamBufs : ℕ → ChannelTable → ℤ × ChannelTable :=
  channelEvt calls (-1) (.other .mapStreamBufs)

/-- `mm_camera_unmap_stream_buf`. -/
def unmapStreamBuf : ℕ → ChannelTable → ℤ × ChannelTable :=
  channelEvt calls (-1) (.other .unmapStreamBuf)

/-- `mm_camera_get_queued_buf_count`. -/
def getQueuedBufCount : ℕ → ChannelTable → ℤ × ChannelTable :=
  channelEvt calls (-1) (.other .getStreamQueuedBufCount)

/-- `mm_camera_reg_stream_buf_cb`. The result of the event is dropped. -/
def regStreamBufCb (chId : ℕ) (t : ChannelTable) : ℤ × ChannelTable :=
  (0, (channelEvt calls 0 (.other .regStreamBufCb) chId t).2)

/-- What `mm_camera_qbuf` and `mm_camera_cancel_buf` share: the channel gets the buffer without
an event. -/
def onChannel (f : ChannelObj → ℤ × ChannelObj) (chId : ℕ) (t : ChannelTable) : ℤ × ChannelTable :=
  match t.getChannelByHandler chId with
  | some i => ((f (t.chObj i)).1, t.setChannel i (f (t.chObj i)).2)
  | none => (-1, t)

/-- `mm_camera_qbuf`. -/
def qbuf (streamId : ℕ) : ℕ → ChannelTable → ℤ × ChannelTable :=
  onChannel fun c => c.qbuf calls streamId

/-- `mm_camera_cancel_buf`. -/
def cancelBuf (streamId : ℕ) : ℕ → ChannelTable → ℤ × ChannelTable :=
  onChannel fun c => c.cancelBuf calls streamId

/-- `mm_camera_channel_advanced_capture`. -/
def channelAdvancedCapture (type chId : ℕ) (t : ChannelTable) : ℤ × ChannelTable :=
  match CamCtrl.advancedCaptureEvt type with
  | some evt => channelEvt calls (-1) (.other evt) chId t
  | none => (-1, t)

end Calls

/-- The calls that are given the handle of a channel, with what else they are given. -/
inductive Call
  | delChannel | getBundleInfo | addStream
  | linkFrom (streamId linkedChId : ℕ)
  | linkInto (chId streamId : ℕ)
  | delStream (streamId : ℕ)
  | configStream (streamId : ℕ) (info : CamStreamInfo)
  | startChannel | stopChannel
  | startZslSnapshotCh | stopZslSnapshotCh
  | requestSuperBuf (buf : Bool)
  | cancelSuperBufRequest | flushSuperBufQueue | configChannelNotify
  | setStreamParms | getStreamParms | doStreamAction
  | mapStreamBuf | mapStreamBufs | unmapStreamBuf | getQueuedBufCount | regStreamBufCb
  | qbuf (streamId : ℕ)
  | cancelBuf (streamId : ℕ)
  | advancedCapture (type : ℕ)
  deriving DecidableEq

/-- A call with the handle of its channel. `linkFrom` and `linkInto` are the two handles of
`mm_camera_link_stream`. -/
def Call.run (calls : ChannelCalls) (h : ℕ) (t : ChannelTable) : Call → ℤ × ChannelTable
  | .delChannel => t.delChannel calls h
  | .getBundleInfo => t.getBundleInfo calls h
  | .addStream => ((t.addStream calls h).1, (t.addStream calls h).2)
  | .linkFrom streamId linkedChId =>
    ((t.linkStream calls h streamId linkedChId).1, (t.linkStream calls h streamId linkedChId).2)
  | .linkInto chId streamId =>
    ((t.linkStream calls chId streamId h).1, (t.linkStream calls chId streamId h).2)
  | .delStream streamId => t.delStream calls streamId h
  | .configStream streamId info => t.configStream calls streamId info h
  | .startChannel => t.startChannel calls h
  | .stopChannel => t.stopChannel calls h
  | .startZslSnapshotCh => t.startZslSnapshotCh calls h
  | .stopZslSnapshotCh => t.stopZslSnapshotCh calls h
  | .requestSuperBuf buf => t.requestSuperBuf calls buf h
  | .cancelSuperBufRequest => t.cancelSuperBufRequest calls h
  | .flushSuperBufQueue => t.flushSuperBufQueue calls h
  | .configChannelNotify => t.configChannelNotify calls h
  | .setStreamParms => t.setStreamParms calls h
  | .getStreamParms => t.getStreamParms calls h
  | .doStreamAction => t.doStreamAction calls h
  | .mapStreamBuf => t.mapStreamBuf calls h
  | .mapStreamBufs => t.mapStreamBufs calls h
  | .unmapStreamBuf => t.unmapStreamBuf calls h
  | .getQueuedBufCount => t.getQueuedBufCount calls h
  | .regStreamBufCb => t.regStreamBufCb calls h
  | .qbuf streamId => t.qbuf calls streamId h
  | .cancelBuf streamId => t.cancelBuf calls streamId h
  | .advancedCapture type => t.channelAdvancedCapture calls type h

/-- The result says that the call failed: a handle is 0, a count negative, and a status is not
0. -/
def Call.Failed (rc : ℤ) : Call → Prop
  | .addStream | .linkFrom .. | .linkInto .. => rc = 0
  | .getQueuedBufCount => rc < 0
  | _ => rc ≠ 0

/-! ### Histories -/

/-- A camera with the handles of the channels that were added and not deleted since. -/
structure Client where
  t : ChannelTable := {}
  added : List ℕ := []

/-- What a client does, with what the calls below answer. `handler` is a handle made for
another camera. -/
inductive Action
  | addChannel (attr : Option MmCameraChannelAttr) (channelCb : Bool)
  | delChannel (calls : ChannelCalls) (chId : ℕ)
  | addStream (calls : ChannelCalls) (chId : ℕ)
  | configStream (calls : ChannelCalls) (chId streamId : ℕ) (info : CamStreamInfo)
  | delStream (calls : ChannelCalls) (chId streamId : ℕ)
  | startChannel (calls : ChannelCalls) (chId : ℕ)
  | stopChannel (calls : ChannelCalls) (chId : ℕ)
  | handler

/-- What a step leads to. The client takes a channel for deleted when it is told so. -/
def Client.next (s : Client) : Action → Client
  | .addChannel attr channelCb =>
    let r := s.t.addChannel attr channelCb
    { t := r.2, added := if r.1 = 0 then s.added else r.1 :: s.added }
  | .delChannel calls chId =>
    let r := s.t.delChannel calls chId
    { t := r.2, added := if r.1 = 0 then s.added.filter (· ≠ chId) else s.added }
  | .addStream calls chId => { s with t := (s.t.addStream calls chId).2 }
  | .configStream calls chId streamId info =>
    { s with t := (s.t.configStream calls streamId info chId).2 }
  | .delStream calls chId streamId => { s with t := (s.t.delStream calls streamId chId).2 }
  | .startChannel calls chId => { s with t := (s.t.startChannel calls chId).2 }
  | .stopChannel calls chId => { s with t := (s.t.stopChannel calls chId).2 }
  | .handler => { s with t.handlerHistoryCount := s.t.nextHistoryCount }

/-- A step of the client. -/
def Step (s : Client) (a : Action) (u : Client) : Prop := u = s.next a

/-- The channels in use are those of the handles, at the index that the handle names, and the
others are zero. -/
structure Kept (s : Client) : Prop where
  zero : ∀ c ∈ s.t.ch, c.state = .notUsed → c = {}
  hdl : ∀ i c, s.t.ch[i]? = some c → c.state ≠ .notUsed → c.myHdl % 256 = i ∧ 256 ≤ c.myHdl
  added : ∀ h, h ∈ s.added ↔ ∃ c ∈ s.t.ch, c.state ≠ .notUsed ∧ c.myHdl = h
  length : s.t.ch.length = 16

theorem kept_init (count : ℕ) : Kept { t := { handlerHistoryCount := count } } where
  zero c hc _ := eq_of_mem_replicate hc
  hdl i c hc hused := by
    rw [eq_of_mem_replicate (mem_of_getElem? hc)] at hused
    exact absurd rfl hused
  added h := by
    refine ⟨fun hmem => absurd hmem (not_mem_nil), ?_⟩
    rintro ⟨c, hc, hused, -⟩
    rw [eq_of_mem_replicate hc] at hused
    exact absurd rfl hused
  length := rfl

/-! ### What a lookup finds -/

variable {t : ChannelTable} {i : ℕ} {c : ChannelObj}

theorem chObj_eq (h : t.ch[i]? = some c) : t.chObj i = c := by
  rw [chObj, h]
  rfl

variable {h : ℕ}

theorem getChannelByHandler_some (hi : t.getChannelByHandler h = some i) :
    t.ch[i]? = some (t.chObj i) ∧ (t.chObj i).myHdl = h := by
  obtain ⟨hlt, hhdl, -⟩ := findIdx?_eq_some_iff_getElem.mp hi
  have hget : t.ch[i]? = some t.ch[i] := getElem?_eq_getElem hlt
  rw [chObj_eq hget]
  exact ⟨hget, by simpa using hhdl⟩

variable {s : Client}

theorem Kept.dead (hs : Kept s) (hdead : h ∉ s.added)
    (hi : s.t.getChannelByHandler h = some i) : s.t.ch[i]? = some {} ∧ h = 0 := by
  obtain ⟨hget, hhdl⟩ := getChannelByHandler_some hi
  have hmem := mem_of_getElem? hget
  have hunused : (s.t.chObj i).state = .notUsed := by
    by_contra hused
    exact hdead ((hs.added h).mpr ⟨_, hmem, hused, hhdl⟩)
  have hzero := hs.zero _ hmem hunused
  rw [hzero] at hget hhdl
  exact ⟨hget, hhdl.symm⟩

theorem Kept.dead_isSome (hs : Kept s) (hdead : h ∉ s.added) :
    (s.t.getChannelByHandler h).isSome ↔ h = 0 ∧ ∃ c ∈ s.t.ch, c.state = .notUsed := by
  constructor
  · intro hsome
    obtain ⟨i, hi⟩ := isSome_iff_exists.mp hsome
    obtain ⟨hget, hzero⟩ := hs.dead hdead hi
    exact ⟨hzero, _, mem_of_getElem? hget, rfl⟩
  · rintro ⟨rfl, c, hc, hunused⟩
    rw [getChannelByHandler, List.findIdx?_isSome, List.any_eq_true]
    exact ⟨c, hc, by rw [hs.zero c hc hunused]; rfl⟩

theorem setChannel_self (h : t.ch[i]? = some c) : t.setChannel i c = t := by
  have hlt : i < t.ch.length := (List.getElem?_eq_some_iff.mp h).1
  have hc : t.ch[i] = c := (List.getElem?_eq_some_iff.mp h).2
  rw [setChannel, ← hc, set_getElem_self]

theorem sendEvt_zero (h : t.ch[i]? = some {}) (calls : ChannelCalls)
    (evt : ChannelEvt) : t.sendEvt calls i evt = ({ rc := -1, ch := {} }, t) := by
  have hset := setChannel_self h
  have hnone : ({} : ChannelObj).makesHandle evt = false := by cases evt <;> rfl
  simp only [sendEvt, chObj_eq h, hnone]
  exact congrArg _ hset

theorem sendEvt_linkZero (h : t.ch[i]? = some c) (calls : ChannelCalls) (streamId : ℕ) :
    ((t.sendEvt calls i (.linkStream {} streamId)).1.sHdl,
      (t.sendEvt calls i (.linkStream {} streamId)).2) = (0, t) := by
  have hset := setChannel_self h
  have hsame : (c.fsmFn calls t.generateHandler (.linkStream {} streamId)).sHdl = 0 ∧
      (c.fsmFn calls t.generateHandler (.linkStream {} streamId)).ch = c := by
    rw [ChannelObj.fsmFn]
    cases c.state <;> exact ⟨rfl, rfl⟩
  simp only [sendEvt, chObj_eq h, hsame]
  exact congrArg _ hset

/-! ### Calls with a handle of no channel -/

section Dead

variable {s : Client} (hs : Kept s) {h : ℕ} (hdead : h ∉ s.added) (calls : ChannelCalls)
include hs hdead

theorem Kept.channelEvt_dead (rc : ℤ) (evt : ChannelEvt) : s.t.channelEvt calls rc evt h =
      (if (s.t.getChannelByHandler h).isSome then -1 else rc, s.t) := by
  rw [channelEvt]
  cases hi : s.t.getChannelByHandler h with
  | none => rfl
  | some i =>
    dsimp only
    rw [sendEvt_zero (hs.dead hdead hi).1]
    rfl

theorem Kept.channelEvt_refuses (evt : ChannelEvt) : s.t.channelEvt calls (-1) evt h = (-1, s.t) := by
  rw [hs.channelEvt_dead hdead, ite_self]

theorem Kept.addStream_dead : s.t.addStream calls h = (0, s.t) := by
  rw [addStream]
  cases hi : s.t.getChannelByHandler h with
  | none => rfl
  | some i =>
    dsimp only
    rw [sendEvt_zero (hs.dead hdead hi).1]

theorem Kept.linkFrom_dead (streamId linkedChId : ℕ) : s.t.linkStream calls h streamId linkedChId = (0, s.t) := by
  rw [linkStream]
  cases hi : s.t.getChannelByHandler linkedChId with
  | none => rfl
  | some i =>
    cases ho : s.t.getChannelByHandler h with
    | none => rfl
    | some o =>
      dsimp only
      rw [chObj_eq (hs.dead hdead ho).1, sendEvt_linkZero (getChannelByHandler_some hi).1]

theorem Kept.linkInto_dead (chId streamId : ℕ) : s.t.linkStream calls chId streamId h = (0, s.t) := by
  rw [linkStream]
  cases hi : s.t.getChannelByHandler h with
  | none => rfl
  | some i =>
    cases s.t.getChannelByHandler chId with
    | none => rfl
    | some o =>
      dsimp only
      rw [sendEvt_zero (hs.dead hdead hi).1]

theorem Kept.onChannel_dead {f : ChannelObj → ℤ × ChannelObj} (hf : f {} = (-1, {})) :
    s.t.onChannel f h = (-1, s.t) := by
  rw [onChannel]
  cases hi : s.t.getChannelByHandler h with
  | none => rfl
  | some i =>
    have hget := (hs.dead hdead hi).1
    dsimp only
    rw [chObj_eq hget, hf]
    exact congrArg _ (setChannel_self hget)

theorem Kept.delChannel_dead : s.t.delChannel calls h = (-1, s.t) := by
  rw [delChannel]
  cases hi : s.t.getChannelByHandler h with
  | none => rfl
  | some i =>
    have hget := (hs.dead hdead hi).1
    dsimp only
    rw [sendEvt_zero hget]
    exact congrArg _ (setChannel_self hget)

end Dead

/-! ### What a history keeps -/

/-- The events of the history of a client. -/
def OfHistory : ChannelEvt → Prop
  | .addStream | .delStream _ | .configStream .. | .start | .stop => True
  | _ => False

/-- What works on the streams of a channel. -/
def SameChannel (c c' : ChannelObj) : Prop := c'.myHdl = c.myHdl ∧ c'.state = c.state

theorem sameChannel_addStream (calls : ChannelCalls) (hdl : ℕ → ℕ) (c : ChannelObj) :
    SameChannel c (c.addStream calls hdl).2 := by
  rw [ChannelObj.addStream]
  split
  · exact ⟨rfl, rfl⟩
  · dsimp only
    split <;> exact ⟨rfl, rfl⟩

theorem sameChannel_delStream (streamId : ℕ) (c : ChannelObj) : SameChannel c (c.delStream streamId).2 := by
  rw [ChannelObj.delStream]
  split
  · exact ⟨rfl, rfl⟩
  · dsimp only
    split <;> exact ⟨rfl, rfl⟩

theorem sameChannel_configStream (calls : ChannelCalls) (streamId : ℕ) (info : CamStreamInfo)
    (c : ChannelObj) : SameChannel c (c.configStream calls streamId info).2 := by
  rw [ChannelObj.configStream]
  split
  · exact ⟨rfl, rfl⟩
  · dsimp only
    split <;> exact ⟨rfl, rfl⟩

variable {evt : ChannelEvt}

theorem fsmFn_keeps (hused : c.state ≠ .notUsed) (calls : ChannelCalls) (hdl : ℕ → ℕ) (hevt : OfHistory evt) :
    (c.fsmFn calls hdl evt).ch.myHdl = c.myHdl ∧ (c.fsmFn calls hdl evt).ch.state ≠ .notUsed := by
  have hsame {c' : ChannelObj} (h : SameChannel c c') : c'.myHdl = c.myHdl ∧ c'.state ≠ .notUsed :=
    ⟨h.1, h.2 ▸ hused⟩
  rw [ChannelObj.fsmFn]
  split
  · exact absurd ‹_› hused
  · cases evt with
    | addStream => exact hsame (sameChannel_addStream calls hdl c)
    | delStream streamId => exact hsame (sameChannel_delStream streamId c)
    | configStream streamId info => exact hsame (sameChannel_configStream calls streamId info c)
    | start =>
      dsimp only [ChannelObj.fsmStopped]
      split
      · exact ⟨rfl, nofun⟩
      · exact hsame ⟨rfl, rfl⟩
    | stop => exact hsame ⟨rfl, rfl⟩
    | linkStream | delete | other => exact hevt.elim
  · cases evt with
    | stop => exact ⟨rfl, nofun⟩
    | other => exact hevt.elim
    | _ => exact hsame ⟨rfl, rfl⟩
  · exact hsame ⟨rfl, rfl⟩

theorem Kept.replace (hs : Kept s) {c' : ChannelObj}
    (hget : s.t.ch[i]? = some c) (hzero : c'.state = .notUsed → c' = {})
    (hhdl : c'.state ≠ .notUsed → c'.myHdl % 256 = i ∧ 256 ≤ c'.myHdl) {added : List ℕ}
    (hadded : ∀ h, h ∈ added ↔ c'.state ≠ .notUsed ∧ c'.myHdl = h ∨
      ∃ j c, j ≠ i ∧ s.t.ch[j]? = some c ∧ c.state ≠ .notUsed ∧ c.myHdl = h) (count : ℕ) :
    Kept { t := { ch := s.t.ch.set i c', handlerHistoryCount := count }, added := added } where
  zero d hd hunused := by
    rcases mem_or_eq_of_mem_set hd with hd | rfl
    · exact hs.zero d hd hunused
    · exact hzero hunused
  hdl j d hd hused := by
    rw [getElem?_set] at hd
    split at hd
    · rename_i hij
      obtain ⟨-, rfl⟩ : _ ∧ c' = d := by simpa using hd
      exact hij ▸ hhdl hused
    · exact hs.hdl j d hd hused
  added h := by
    have hlt : i < s.t.ch.length := (List.getElem?_eq_some_iff.mp hget).1
    rw [hadded h]
    constructor
    · rintro (⟨hused, hh⟩ | ⟨j, d, hj, hd, hused, hh⟩)
      · exact ⟨c', mem_set hlt c', hused, hh⟩
      · refine ⟨d, mem_of_getElem? (i := j) ?_, hused, hh⟩
        rw [getElem?_set_ne hj.symm]
        exact hd
    · rintro ⟨d, hd, hused, hh⟩
      obtain ⟨j, hj⟩ := getElem?_of_mem hd
      rw [getElem?_set] at hj
      split at hj
      · obtain rfl : c' = d := by simpa [hlt] using hj
        exact .inl ⟨hused, hh⟩
      · rename_i hij
        exact .inr ⟨j, d, Ne.symm hij, hj, hused, hh⟩
  length := (length_set ..).trans hs.length

/-- The handles of the other channels are those of the client without that of the channel. -/
theorem Kept.others (hs : Kept s) (hget : s.t.ch[i]? = some c) (hused : c.state ≠ .notUsed) (h : ℕ) :
    (∃ j d, j ≠ i ∧ s.t.ch[j]? = some d ∧ d.state ≠ .notUsed ∧ d.myHdl = h) ↔ h ∈ s.added ∧ h ≠ c.myHdl := by
  rw [hs.added h]
  constructor
  · rintro ⟨j, d, hj, hd, hdused, rfl⟩
    refine ⟨⟨d, mem_of_getElem? hd, hdused, rfl⟩, fun heq => hj ?_⟩
    rw [← (hs.hdl j d hd hdused).1, ← (hs.hdl i c hget hused).1, heq]
  · rintro ⟨⟨d, hd, hdused, rfl⟩, hne⟩
    obtain ⟨j, hj⟩ := getElem?_of_mem hd
    refine ⟨j, d, fun hij => hne ?_, hj, hdused, rfl⟩
    rw [hij, hget] at hj
    rw [some.inj hj]

theorem Kept.others_of_unused (hs : Kept s) (hget : s.t.ch[i]? = some c) (hunused : c.state = .notUsed) (h : ℕ) :
    (∃ j d, j ≠ i ∧ s.t.ch[j]? = some d ∧ d.state ≠ .notUsed ∧ d.myHdl = h) ↔ h ∈ s.added := by
  rw [hs.added h]
  constructor
  · rintro ⟨j, d, -, hd, hdused, hh⟩
    exact ⟨d, mem_of_getElem? hd, hdused, hh⟩
  · rintro ⟨d, hd, hdused, hh⟩
    obtain ⟨j, hj⟩ := getElem?_of_mem hd
    refine ⟨j, d, ?_, hj, hdused, hh⟩
    rintro rfl
    rw [hget] at hj
    exact hdused (some.inj hj ▸ hunused)

theorem Kept.sendEvt (hs : Kept s) (hget : s.t.ch[i]? = some c) (calls : ChannelCalls) (hevt : OfHistory evt) :
    Kept { s with t := (s.t.sendEvt calls i evt).2 } := by
  simp only [ChannelTable.sendEvt, chObj_eq hget, setChannel]
  by_cases hused : c.state = .notUsed
  · obtain rfl := hs.zero c (mem_of_getElem? hget) hused
    refine hs.replace hget (fun _ => rfl) (fun h => absurd rfl h) (fun h => ?_) _
    rw [hs.others_of_unused hget rfl]
    exact ⟨.inr, fun hh => hh.resolve_left fun h => h.1 rfl⟩
  · obtain ⟨hhdl, hstill⟩ := fsmFn_keeps hused calls s.t.generateHandler hevt
    refine hs.replace hget (fun h => absurd h hstill) (fun _ => ?_) (fun h => ?_) _
    · rw [hhdl]
      exact hs.hdl i c hget hused
    · rw [hs.others hget hused, hhdl]
      have hmem := (hs.added c.myHdl).mpr ⟨c, mem_of_getElem? hget, hused, rfl⟩
      constructor
      · intro hh
        by_cases heq : h = c.myHdl
        · exact .inl ⟨hstill, heq.symm⟩
        · exact .inr ⟨hh, heq⟩
      · rintro (⟨-, rfl⟩ | ⟨hh, -⟩)
        · exact hmem
        · exact hh

theorem Kept.channelEvt (hs : Kept s) (calls : ChannelCalls) (rc : ℤ) (hevt : OfHistory evt) (chId : ℕ) :
    Kept { s with t := (s.t.channelEvt calls rc evt chId).2 } := by
  rw [ChannelTable.channelEvt]
  cases hi : s.t.getChannelByHandler chId with
  | none => exact hs
  | some i => exact hs.sendEvt (getChannelByHandler_some hi).1 calls hevt

theorem generateHandler_index (hi : i < 16) : t.generateHandler i % 256 = i ∧ 256 ≤ t.generateHandler i := by
  have hpos : 1 ≤ t.nextHistoryCount := by
    simp only [nextHistoryCount]
    split <;> omega
  rw [generateHandler]
  omega

theorem addChannel_cases (attr : Option MmCameraChannelAttr) (channelCb : Bool) (t : ChannelTable) :
    t.addChannel attr channelCb = (0, t) ∨ ∃ i c, t.ch[i]? = some c ∧ c.state = .notUsed ∧
      t.addChannel attr channelCb = (t.generateHandler i, { t.setChannel i (ChannelObj.init attr channelCb
            { myHdl := t.generateHandler i, state := .stopped }) with
          handlerHistoryCount := t.nextHistoryCount }) := by
  rw [ChannelTable.addChannel]
  cases hi : t.ch.findIdx? fun c => c.state == .notUsed with
  | none => exact .inl rfl
  | some i =>
    obtain ⟨hlt, hunused, -⟩ := findIdx?_eq_some_iff_getElem.mp hi
    exact .inr ⟨i, t.ch[i], getElem?_eq_getElem hlt, by simpa using hunused, rfl⟩

theorem Kept.addChannel (hs : Kept s) (attr : Option MmCameraChannelAttr)
    (channelCb : Bool) : Kept (s.next (.addChannel attr channelCb)) := by
  rw [Client.next]
  obtain hadd | ⟨i, c, hget, hunused, hadd⟩ := addChannel_cases attr channelCb s.t
  · rw [hadd]
    exact hs
  · have hlt : i < 16 := hs.length ▸ (List.getElem?_eq_some_iff.mp hget).1
    have hnew := generateHandler_index (t := s.t) hlt
    have hpos : s.t.generateHandler i ≠ 0 := by omega
    rw [hadd]
    dsimp only
    rw [if_neg hpos]
    have hstopped : MmChannelState.stopped ≠ .notUsed := nofun
    refine hs.replace hget (fun h => absurd h hstopped) (fun _ => hnew) (fun h => ?_) _
    rw [mem_cons, hs.others_of_unused hget hunused]
    exact or_congr_left ⟨fun hh => ⟨hstopped, hh.symm⟩, fun hh => hh.2.symm⟩

theorem delete_used (hused : c.state ≠ .notUsed) (calls : ChannelCalls)
    (hdl : ℕ → ℕ) : (c.fsmFn calls hdl .delete).rc = 0 := by
  rw [ChannelObj.fsmFn]
  split
  · exact absurd ‹_› hused
  · rfl
  · rfl
  · rfl

theorem Kept.live (hs : Kept s) (hlive : h ∈ s.added) :
    ∃ i, s.t.getChannelByHandler h = some i ∧ s.t.ch[i]? = some (s.t.chObj i) ∧
      (s.t.chObj i).state ≠ .notUsed ∧ (s.t.chObj i).myHdl = h := by
  obtain ⟨d, hd, hdused, rfl⟩ := (hs.added h).mp hlive
  have hsome : (s.t.getChannelByHandler d.myHdl).isSome := by
    rw [getChannelByHandler, List.findIdx?_isSome, List.any_eq_true]
    exact ⟨d, hd, beq_self_eq_true _⟩
  obtain ⟨i, hi⟩ := isSome_iff_exists.mp hsome
  obtain ⟨hget, hhdl⟩ := getChannelByHandler_some hi
  refine ⟨i, hi, hget, fun hunused => ?_, hhdl⟩
  obtain ⟨j, hj⟩ := getElem?_of_mem hd
  have h256 := (hs.hdl j d hj hdused).2
  rw [← hhdl, hs.zero _ (mem_of_getElem? hget) hunused] at h256
  exact absurd h256 (by decide)

theorem Kept.delChannel (hs : Kept s) (calls : ChannelCalls) (chId : ℕ) : Kept (s.next (.delChannel calls chId)) := by
  by_cases hlive : chId ∈ s.added
  · obtain ⟨i, hi, hget, hused, hhdl⟩ := hs.live hlive
    have hrc : (s.t.sendEvt calls i .delete).1.rc = 0 := delete_used hused _ _
    have hdel : s.t.delChannel calls chId = (0, (s.t.sendEvt calls i .delete).2.setChannel i {}) := by
      rw [ChannelTable.delChannel, hi, ← hrc]
    rw [Client.next, hdel]
    simp only [ChannelTable.sendEvt, setChannel, set_set, if_true]
    refine hs.replace hget (fun _ => rfl) (fun h => absurd rfl h) (fun h => ?_) _
    rw [hs.others hget hused, hhdl, mem_filter]
    simp
  · rw [Client.next, hs.delChannel_dead hlive]
    exact hs

/-- **One step of the client.** -/
theorem Kept.step {u : Client} {a : Action} (hs : Kept s) (h : Step s a u) : Kept u := by
  obtain rfl := h
  cases a with
  | addChannel attr channelCb => exact hs.addChannel attr channelCb
  | delChannel calls chId => exact hs.delChannel calls chId
  | addStream calls chId =>
    simp only [Client.next, ChannelTable.addStream]
    cases hi : s.t.getChannelByHandler chId with
    | none => exact hs
    | some i => exact hs.sendEvt (getChannelByHandler_some hi).1 calls trivial
  | configStream calls chId streamId info => exact hs.channelEvt calls _ (by trivial) chId
  | delStream calls chId streamId => exact hs.channelEvt calls _ (by trivial) chId
  | startChannel calls chId => exact hs.channelEvt calls _ (by trivial) chId
  | stopChannel calls chId => exact hs.channelEvt calls _ (by trivial) chId
  | handler => exact ⟨hs.zero, hs.hdl, hs.added, hs.length⟩

/-! ### The calls of a client -/

/-- The calls that fail for a handle of no channel: all but the one that drops the result, and
the one that starts out with a success if the handle leads to no channel at all. -/
def Call.Refuses (t : ChannelTable) (h : ℕ) : Call → Prop
  | .regStreamBufCb => False
  | .stopChannel => h = 0 ∧ ∃ c ∈ t.ch, c.state = .notUsed
  | _ => True

/-- What a call with a handle of no channel has to do: it fails and changes nothing. -/
def Call.Refused (calls : ChannelCalls) (h : ℕ) (t : ChannelTable) (c : Call) : Prop :=
  c.Failed (c.run calls h t).1 ∧ (c.run calls h t).2 = t

/-- **A call with a handle of no channel.** -/
theorem Kept.refused_iff (hs : Kept s) (hdead : h ∉ s.added)
    (calls : ChannelCalls) (c : Call) : c.Refused calls h s.t ↔ c.Refuses s.t h := by
  have hevt (evt : ChannelEvt) := hs.channelEvt_refuses hdead calls evt
  have hone (rc : ℤ) (evt : ChannelEvt) := hs.channelEvt_dead hdead calls rc evt
  cases c with
  | stopChannel =>
    simp only [Call.Refused, Call.run, stopChannel, hone, Call.Refuses, Call.Failed, and_true, ← hs.dead_isSome hdead]
    cases s.t.getChannelByHandler h <;> simp
  | regStreamBufCb =>
    simp [Call.Refused, Call.run, regStreamBufCb, Call.Refuses, Call.Failed]
  | delChannel =>
    simp [Call.Refused, Call.run, hs.delChannel_dead hdead, Call.Refuses, Call.Failed]
  | addStream =>
    simp [Call.Refused, Call.run, hs.addStream_dead hdead, Call.Refuses, Call.Failed]
  | linkFrom streamId linkedChId =>
    simp [Call.Refused, Call.run, hs.linkFrom_dead hdead, Call.Refuses, Call.Failed]
  | linkInto chId streamId =>
    simp [Call.Refused, Call.run, hs.linkInto_dead hdead, Call.Refuses, Call.Failed]
  | requestSuperBuf buf =>
    cases buf <;>
      simp [Call.Refused, Call.run, requestSuperBuf, hevt, Call.Refuses, Call.Failed]
  | qbuf streamId =>
    have hqbuf : s.t.qbuf calls streamId h = (-1, s.t) := hs.onChannel_dead hdead rfl
    simp [Call.Refused, Call.run, hqbuf, Call.Refuses, Call.Failed]
  | cancelBuf streamId =>
    have hcancel : s.t.cancelBuf calls streamId h = (-1, s.t) := hs.onChannel_dead hdead rfl
    simp [Call.Refused, Call.run, hcancel, Call.Refuses, Call.Failed]
  | advancedCapture type =>
    simp only [Call.Refused, Call.run, channelAdvancedCapture, Call.Refuses, Call.Failed]
    cases CamCtrl.advancedCaptureEvt type with
    | none => simp
    | some evt => simp [hevt]
  | getBundleInfo | delStream | configStream | startChannel | startZslSnapshotCh
  | stopZslSnapshotCh | cancelSuperBufRequest | flushSuperBufQueue | configChannelNotify
  | setStreamParms | getStreamParms | doStreamAction | mapStreamBuf | mapStreamBufs
  | unmapStreamBuf | getQueuedBufCount =>
    simp [Call.Refused, Call.run, getBundleInfo, delStream, configStream, startChannel,
      startZslSnapshotCh, stopZslSnapshotCh, cancelSuperBufRequest, flushSuperBufQueue,
      configChannelNotify, setStreamParms, getStreamParms, doStreamAction, mapStreamBuf,
      mapStreamBufs, unmapStreamBuf, getQueuedBufCount, hevt, Call.Refuses, Call.Failed]

theorem Kept.delChannel_fails (hs : Kept s) {calls : ChannelCalls}
    (hrc : (s.t.delChannel calls h).1 ≠ 0) : (s.t.delChannel calls h).2 = s.t := by
  rw [ChannelTable.delChannel] at hrc ⊢
  cases hi : s.t.getChannelByHandler h with
  | none => rfl
  | some i =>
    obtain ⟨hget, hhdl⟩ := getChannelByHandler_some hi
    rw [hi] at hrc
    by_cases hunused : (s.t.chObj i).state = .notUsed
    · rw [hs.zero _ (mem_of_getElem? hget) hunused] at hget
      dsimp only
      rw [sendEvt_zero hget]
      exact setChannel_self hget
    · exact absurd (delete_used hunused calls _) hrc

/-- **The handles in a history.** A call with a handle of no channel fails and changes nothing
if and only if it is one of those that refuse it; and a channel that could not be deleted is as
before, with all others. -/
theorem handles_run {count : ℕ} {as : List Action} {s : Client}
    (h : Run Step { t := { handlerHistoryCount := count } } as s) :
    (∀ (calls : ChannelCalls) (c : Call) (id : ℕ), id ∉ s.added → (c.Refused calls id s.t ↔ c.Refuses s.t id)) ∧
      ∀ (calls : ChannelCalls) (id : ℕ), (s.t.delChannel calls id).1 ≠ 0 → (s.t.delChannel calls id).2 = s.t := by
  have hs : Kept s := h.invariant (fun _ _ _ hs hstep => hs.step hstep) (kept_init count)
  exact ⟨fun calls c _ hdead => hs.refused_iff hdead calls c, fun _ _ hrc => hs.delChannel_fails hrc⟩

/-- Calls that all succeed. -/
def quiet : ChannelCalls where
  start _ :=
    { getBufs := some [], requestBufs := true, qbuf := fun _ => true, mapped := true,
      streamOn := true, moduleStreamOn := true }
  other _ c := (0, c)
  qbuf s := (0, s)
  cancelBuf s := (0, s)

/-- A channel is added, gets a stream, and is deleted. -/
def addDelete : List Action :=
  [.addChannel none true, .addStream quiet 512, .delChannel quiet 512]

theorem run_addDelete : Run Step { t := { handlerHistoryCount := 1 } } addDelete
    { t := { handlerHistoryCount := 3 } } := by
  have hone : Run Step { t := { handlerHistoryCount := 1 } } [.addChannel none true] _ :=
    .single rfl
  have htwo := hone.snoc (a := Action.addStream quiet 512) rfl
  have hthree := htwo.snoc (a := Action.delChannel quiet 512) rfl
  exact hthree

/-- The handle of the channel that was deleted does not start a channel. -/
theorem handles_run_stale : Call.startChannel.Refused quiet 512 { handlerHistoryCount := 3 } :=
  ((handles_run run_addDelete).1 quiet .startChannel 512 (not_mem_nil)).mpr trivial

/-- The handle of the channel that was deleted is stopped with success. -/
theorem not_handles_refused : ¬ ∀ (count : ℕ) (as : List Action) (s : Client),
    Run Step { t := { handlerHistoryCount := count } } as s →
    (∀ (calls : ChannelCalls) (c : Call) (id : ℕ), id ∉ s.added → c.Refused calls id s.t) ∧
      ∀ (calls : ChannelCalls) (id : ℕ), (s.t.delChannel calls id).1 ≠ 0 →
        (s.t.delChannel calls id).2 = s.t := fun hall =>
  ((hall 1 addDelete _ run_addDelete).1 quiet .stopChannel 512 (not_mem_nil)).1 (by decide)

end ChannelTable

end Marlin
