import Marlin.CameraOpen
import Marlin.Locking

/-!
# The Locks of the Camera Interface

The entries of `mm_camera_ops`, `camera_open` and `get_num_of_cameras` as programs on
`g_intf_lock`, on the `cam_lock` of each camera object and on the `ch_lock` of each of its
channels. An entry of the table takes the global lock and hands over to the camera's lock; the
function it calls releases that one, or hands over to the channel's lock, which
`mm_channel_fsm_fn` releases.

What is called below them works on none of these locks: its result is an `Outcome`. The
pointers and numbers that are only passed on to it are left out.

Three branches release too little: `mm_camera_cancel_buf` for a handle of no channel,
`mm_camera_channel_advanced_capture` for a type it does not know, and `get_num_of_cameras`
without the shim library.

## Main results

* `intfCall_ends`, `channelEvt_ends`: the lemma of each family of functions.
* `call_ends`: no entry takes a lock that it holds or releases one that it does not hold; what
  it keeps.
* `call_releases`: an entry returns without locks unless it takes one of the three branches.
-/

namespace Marlin

open Option Locking
open PollThread (mmCameraUtilGetIndexByHandler)

/-- The states of a channel. -/
inductive MmChannelState
  | notUsed | stopped | active | paused
  deriving DecidableEq

/-- What the interface reads of an `mm_channel_t`. -/
structure ChannelEntry where
  myHdl : ℕ := 0
  state : MmChannelState := .notUsed
  deriving DecidableEq

/-- The locks: `g_intf_lock`, those of the camera objects and those of their channels. -/
inductive CamLock
  | gIntf
  | cam (id : ℕ)
  | ch (id i : ℕ)
  deriving DecidableEq

/-- The events that the interface hands to `mm_channel_fsm_fn`. -/
inductive MmChannelEvt
  | start | stop | delete | getBundleInfo | addStream | linkStream | delStream | configStream
  | setStreamParm | getStreamParm | doStreamAction | mapStreamBuf | mapStreamBufs
  | unmapStreamBuf | requestSuperBuf | cancelRequestSuperBuf | flushSuperBufQueue
  | configNotifyMode | startZslSnapshot | stopZslSnapshot | getStreamQueuedBufCount
  | regStreamBufCb | afBracketing | aeBracketing | flashBracketing | zoom1x | captureSetting
  deriving DecidableEq

/-- The results of what the interface calls: a command to the daemon, an event in a state of
the channel and the handle it returns, the device and the system. `openCtrl` and `openErrno`
are those of one try to open the device. -/
inductive Outcome
  | sendCmd | registerEvent
  | channelFsm (evt : MmChannelEvt) (state : MmChannelState) | channelQbuf | channelCancelBuf
  | malloc | openCtrl (tries : ℕ) | openErrno (tries : ℕ) | openSession
  | decrypt | loadShimLib
  deriving DecidableEq

/-- A media device as `get_num_of_cameras` sees it: the result of its device info, whether its
model is `MSM_CAMERA_NAME`, and whether it lists a video node of the camera group. -/
structure MediaDevice where
  deviceInfo : ℤ
  isCamera : Bool
  hasVideoNode : Bool
  deriving DecidableEq

/-- The interface with the channels of its camera objects and the media devices. -/
structure CamCtrl where
  intf : Intf
  ch : ℕ → List ChannelEntry
  media : List MediaDevice := []

/-- A call into the interface. -/
abbrev IntfM := LockM CamLock CamCtrl

namespace CamCtrl

/-- `-EINVAL`. -/
def einval : ℤ := -22

/-- `-EUSERS`. -/
def eusers : ℤ := -87

/-- The result of `mm_camera_util_s_ctrl` and `mm_camera_util_g_ctrl`. -/
def ctrlResult (rc : ℤ) : ℤ := if 0 ≤ rc then 0 else -1

/-- `mm_camera_util_get_channel_by_handler`. The channels that are not used have handle 0. -/
def getChannelByHandler (c : CamCtrl) (id handler : ℕ) : Option ℕ :=
  (c.ch id).findIdx? fun ch => ch.myHdl == handler

/-- A channel of an object is changed. -/
def setChannel (c : CamCtrl) (id i : ℕ) (ch : ChannelEntry) : CamCtrl :=
  { c with ch := Function.update c.ch id ((c.ch id).set i ch) }

/-- `mm_camera_add_channel` takes the first channel that is not used. -/
def newChannel (c : CamCtrl) (id i : ℕ) : CamCtrl :=
  let c' := c.setChannel id i { myHdl := c.intf.generateHandler i, state := .stopped }
  { c' with intf := { c.intf with handlerHistoryCount := c.intf.nextHistoryCount } }

/-- A client that finds the camera open takes a reference. -/
def addRef (c : CamCtrl) (id : ℕ) : CamCtrl :=
  let obj := { c.intf.objs id with refCount := (c.intf.objs id).refCount + 1 }
  { c with intf := c.intf.setObj id obj }

/-- The object of a new camera has no channels in use. -/
def openObj (c : CamCtrl) (idx : ℕ) : CamCtrl :=
  { c with
    intf := c.intf.newObj idx
    ch := Function.update c.ch c.intf.objNum (List.replicate 16 {}) }

/-- The object is published, or freed and its entry emptied. -/
def opened (c : CamCtrl) (idx id : ℕ) (ok : Bool) : CamCtrl :=
  let intf := { c.intf with opening := c.intf.opening.erase (idx, id) }
  { c with intf := if ok then intf.setEntry idx (some id) else (intf.setEntry idx none).free id }

/-- The object is freed after it was closed. -/
def closed (c : CamCtrl) (id : ℕ) : CamCtrl :=
  { c with intf := { c.intf with closing := c.intf.closing.erase id }.free id }

/-! ### `mm_camera.c` -/

section Calls

variable (out : Outcome → ℤ)

/-- `mm_channel_fsm_fn`. The channel's lock is released after every event in every state. -/
def channelFsmFn (id i : ℕ) (evt : MmChannelEvt) : IntfM ℤ := do
  let c ← data
  unlock (.ch id i)
  pure (out (.channelFsm evt (((c.ch id)[i]?.getD {}).state)))

/-- What the functions on a channel share: its lock is taken before the camera's is released,
and it gets an event. Without the channel they return `rc`. -/
def channelEvt (id chId : ℕ) (rc : ℤ) (evt : MmChannelEvt) : IntfM ℤ := do
  let c ← data
  match c.getChannelByHandler id chId with
  | some i => do
      lock (.ch id i)
      unlock (.cam id)
      channelFsmFn out id i evt
  | none => do
      unlock (.cam id)
      pure rc

/-- What the functions on the camera share: they release its lock and return a result. -/
def cameraCall (id : ℕ) (rc : ℤ) : IntfM ℤ := do
  unlock (.cam id)
  pure rc

/-- `mm_camera_query_capability`. -/
def queryCapability (id : ℕ) : IntfM ℤ := cameraCall id (out .sendCmd)

/-- `mm_camera_register_event_notify`. -/
def registerEventNotify (id : ℕ) : IntfM ℤ := cameraCall id (out .registerEvent)

/-- `mm_camera_set_parms`, with whether it gets parameters. -/
def setParms (id : ℕ) (parms : Bool) : IntfM ℤ :=
  cameraCall id (if parms then ctrlResult (out .sendCmd) else -1)

/-- `mm_camera_get_parms`. -/
def getParms (id : ℕ) (parms : Bool) : IntfM ℤ :=
  cameraCall id (if parms then ctrlResult (out .sendCmd) else -1)

/-- `mm_camera_sync_related_sensors`. -/
def syncRelatedSensors (id : ℕ) (parms : Bool) : IntfM ℤ :=
  cameraCall id (if parms then ctrlResult (out .sendCmd) else -1)

/-- `mm_camera_do_auto_focus`. -/
def doAutoFocus (id : ℕ) : IntfM ℤ := cameraCall id (ctrlResult (out .sendCmd))

/-- `mm_camera_cancel_auto_focus`. -/
def cancelAutoFocus (id : ℕ) : IntfM ℤ := cameraCall id (ctrlResult (out .sendCmd))

/-- `mm_camera_prepare_snapshot`. -/
def prepareSnapshot (id : ℕ) : IntfM ℤ := cameraCall id (ctrlResult (out .sendCmd))

/-- `mm_camera_flush`. -/
def flush (id : ℕ) : IntfM ℤ := cameraCall id (ctrlResult (out .sendCmd))

/-- `mm_camera_map_buf`. -/
def mapBuf (id : ℕ) : IntfM ℤ := cameraCall id (out .sendCmd)

/-- `mm_camera_map_bufs`. -/
def mapBufs (id : ℕ) : IntfM ℤ := cameraCall id (out .sendCmd)

/-- `mm_camera_unmap_buf`. -/
def unmapBuf (id : ℕ) : IntfM ℤ := cameraCall id (out .sendCmd)

/-- `mm_camera_add_channel`. -/
def addChannel (id : ℕ) : IntfM ℤ := do
  let c ← data
  match (c.ch id).findIdx? (fun ch => ch.state == .notUsed) with
  | some i => do
      change fun c => c.newChannel id i
      unlock (.cam id)
      pure (c.intf.generateHandler i)
  | none => do
      unlock (.cam id)
      pure 0

/-- `mm_camera_del_channel`. The channel is cleared after its lock was released. -/
def delChannel (id chId : ℕ) : IntfM ℤ := do
  let c ← data
  match c.getChannelByHandler id chId with
  | some i => do
      lock (.ch id i)
      unlock (.cam id)
      let rc ← channelFsmFn out id i .delete
      change fun c => c.setChannel id i {}
      pure rc
  | none => do
      unlock (.cam id)
      pure (-1)

/-- `mm_camera_get_bundle_info`. -/
def getBundleInfo (id chId : ℕ) : IntfM ℤ := channelEvt out id chId (-1) .getBundleInfo

/-- `mm_camera_link_stream`. The channel that the stream is linked into gets the event. -/
def linkStream (id chId linkedChId : ℕ) : IntfM ℤ := do
  let c ← data
  match c.getChannelByHandler id linkedChId, c.getChannelByHandler id chId with
  | some i, some _ => do
      lock (.ch id i)
      unlock (.cam id)
      channelFsmFn out id i .linkStream
  | _, _ => do
      unlock (.cam id)
      pure 0

/-- `mm_camera_add_stream`. -/
def addStream (id chId : ℕ) : IntfM ℤ := channelEvt out id chId 0 .addStream

/-- `mm_camera_del_stream`. -/
def delStream (id chId : ℕ) : IntfM ℤ := channelEvt out id chId (-1) .delStream

/-- `mm_camera_config_stream`. -/
def configStream (id chId : ℕ) : IntfM ℤ := channelEvt out id chId (-1) .configStream

/-- `mm_camera_start_zsl_snapshot_ch`. -/
def startZslSnapshotCh (id chId : ℕ) : IntfM ℤ := channelEvt out id chId (-1) .startZslSnapshot

/-- `mm_camera_stop_zsl_snapshot_ch`. -/
def stopZslSnapshotCh (id chId : ℕ) : IntfM ℤ := channelEvt out id chId (-1) .stopZslSnapshot

/-- `mm_camera_start_channel`. -/
def startChannel (id chId : ℕ) : IntfM ℤ := channelEvt out id chId (-1) .start

/-- `mm_camera_stop_channel`. -/
def stopChannel (id chId : ℕ) : IntfM ℤ := channelEvt out id chId 0 .stop

/-- `mm_camera_request_super_buf`, which tests the request once more. -/
def requestSuperBuf (id chId : ℕ) (buf : Bool) : IntfM ℤ :=
  if buf then channelEvt out id chId (-1) .requestSuperBuf else cameraCall id (-1)

/-- `mm_camera_cancel_super_buf_request`. -/
def cancelSuperBufRequest (id chId : ℕ) : IntfM ℤ :=
  channelEvt out id chId (-1) .cancelRequestSuperBuf

/-- `mm_camera_flush_super_buf_queue`. -/
def flushSuperBufQueue (id chId : ℕ) : IntfM ℤ :=
  channelEvt out id chId (-1) .flushSuperBufQueue

/-- `mm_camera_config_channel_notify`. -/
def configChannelNotify (id chId : ℕ) : IntfM ℤ := channelEvt out id chId (-1) .configNotifyMode

/-- `mm_camera_set_stream_parms`. -/
def setStreamParms (id chId : ℕ) : IntfM ℤ := channelEvt out id chId (-1) .setStreamParm

/-- `mm_camera_get_stream_parms`. -/
def getStreamParms (id chId : ℕ) : IntfM ℤ := channelEvt out id chId (-1) .getStreamParm

/-- `mm_camera_map_stream_buf`. -/
def mapStreamBuf (id chId : ℕ) : IntfM ℤ := channelEvt out id chId (-1) .mapStreamBuf

/-- `mm_camera_map_stream_bufs`. -/
def mapStreamBufs (id chId : ℕ) : IntfM ℤ := channelEvt out id chId (-1) .mapStreamBufs

/-- `mm_camera_unmap_stream_buf`. -/
def unmapStreamBuf (id chId : ℕ) : IntfM ℤ := channelEvt out id chId (-1) .unmapStreamBuf

/-- `mm_camera_get_queued_buf_count`. -/
def getQueuedBufCount (id chId : ℕ) : IntfM ℤ :=
  channelEvt out id chId (-1) .getStreamQueuedBufCount

/-- `mm_camera_reg_stream_buf_cb`. The result of the event is dropped. -/
def regStreamBufCb (id chId : ℕ) : IntfM ℤ := do
  let _ ← channelEvt out id chId 0 .regStreamBufCb
  pure 0

/-- `mm_camera_qbuf`. The channel's lock is not taken. -/
def qbuf (id chId : ℕ) : IntfM ℤ := do
  let c ← data
  unlock (.cam id)
  pure (if (c.getChannelByHandler id chId).isSome then out .channelQbuf else -1)

/-- `mm_camera_cancel_buf`. Without the channel the camera's lock is kept. -/
def cancelBuf (id chId : ℕ) : IntfM ℤ := do
  let c ← data
  match c.getChannelByHandler id chId with
  | some _ => do
      unlock (.cam id)
      pure (out .channelCancelBuf)
  | none => pure (-1)

/-- The event of an advanced capture, in the order of `mm_camera_advanced_capture_t`. -/
def advancedCaptureEvt (type : ℕ) : Option MmChannelEvt :=
  [MmChannelEvt.afBracketing, .aeBracketing, .flashBracketing, .zoom1x, .captureSetting][type]?

/-- `mm_camera_channel_advanced_capture`. A type it does not know leaves the channel locked. -/
def channelAdvancedCapture (id chId type : ℕ) : IntfM ℤ := do
  let c ← data
  match c.getChannelByHandler id chId with
  | some i => do
      lock (.ch id i)
      unlock (.cam id)
      match advancedCaptureEvt type with
      | some evt => channelFsmFn out id i evt
      | none => pure (-1)
  | none => do
      unlock (.cam id)
      pure (-1)

/-- `mm_camera_close`. -/
def cameraClose (id : ℕ) : IntfM ℤ := cameraCall id 0

/-- The tries of `mm_camera_open` to open the device: the descriptor and `errno` of the last
one. `EIO` and `ETIMEDOUT` are tried again while tries are left. -/
def openTries : ℕ → ℤ × ℤ
  | 0 => (out (.openCtrl 0), out (.openErrno 0))
  | n + 1 =>
    let fd := out (.openCtrl (n + 1))
    let errno := out (.openErrno (n + 1))
    if 0 ≤ fd ∨ (errno ≠ 5 ∧ errno ≠ 110) then (fd, errno) else openTries n

/-- `mm_camera_open`. Success and failure release the camera's lock. -/
def cameraOpenDev (id : ℕ) : IntfM ℤ := do
  let c ← data
  if mmCameraUtilGetIndexByHandler (c.intf.objs id).myHdl < c.intf.maxNumSensors then
    let (fd, errno) := openTries out 19
    if fd < 0 then do
      unlock (.cam id)
      pure (if errno = 16 then eusers else -1)
    else if out .openSession < 0 then do
      unlock (.cam id)
      pure (if out .openSession = -2 then eusers else -1)
    else do
      unlock (.cam id)
      pure 0
  else do
    unlock (.cam id)
    pure (-1)

/-! ### `mm_camera_interface.c` -/

/-- What the entries of the table share: the camera of the handle is looked up under the
global lock, which is released when the camera's lock is held. Without it they return `rc`. -/
def intfCall (handle : ℕ) (rc : ℤ) (body : ℕ → IntfM ℤ) : IntfM ℤ := do
  lock .gIntf
  let c ← data
  match c.intf.getCameraByHandler handle with
  | some id => do
      lock (.cam id)
      unlock .gIntf
      body id
  | none => do
      unlock .gIntf
      pure rc

/-- `mm_camera_intf_request_super_buf`. Without a request it does not take the camera's
lock. -/
def intfRequestSuperBuf (handle chId : ℕ) (buf : Bool) : IntfM ℤ :=
  if buf then intfCall handle (-1) fun id => requestSuperBuf out id chId buf
  else do
    lock .gIntf
    unlock .gIntf
    pure (-1)

/-- `mm_camera_intf_get_session_id`, which releases the camera's lock itself. -/
def intfGetSessionId (handle : ℕ) : IntfM ℤ :=
  intfCall handle (-1) fun id => do
    unlock (.cam id)
    pure 0

/-- `mm_camera_intf_close`. -/
def intfClose (handle : ℕ) : IntfM ℤ := do
  lock .gIntf
  let c ← data
  match c.intf.getCameraByHandler handle with
  | some id => do
      change fun c => { c with intf := c.intf.dropRef handle id }
      if 0 < (c.intf.objs id).refCount - 1 then do
        unlock .gIntf
        pure 0
      else do
        lock (.cam id)
        unlock .gIntf
        let rc ← cameraClose id
        change fun c => c.closed id
        pure rc
  | none => do
      unlock .gIntf
      pure (-1)

/-- `camera_open`. -/
def cameraOpen (idx : ℕ) : IntfM ℤ := do
  let c ← data
  if c.intf.numCam ≤ idx then pure einval
  else do
    lock .gIntf
    let c ← data
    match c.intf.camObj idx with
    | some id => do
        change fun c => c.addRef id
        unlock .gIntf
        pure 0
    | none =>
      if out .malloc = 0 then do
        unlock .gIntf
        pure einval
      else do
        let id := c.intf.objNum
        change fun c => c.openObj idx
        lock (.cam id)
        unlock .gIntf
        let rc ← cameraOpenDev out id
        lock .gIntf
        change fun c => c.opened idx id (rc == 0)
        unlock .gIntf
        pure rc

/-- The loop of `get_num_of_cameras` over the media devices. A device without information
starts the count over and ends it. -/
def countCameras (maxNumSensors : ℕ) : List MediaDevice → ℕ → ℕ
  | [], numCameras => numCameras
  | dev :: devs, numCameras =>
    if dev.deviceInfo < 0 then 0
    else if dev.isCamera then
      let numCameras := if dev.hasVideoNode then numCameras + 1 else numCameras
      if maxNumSensors ≤ numCameras then numCameras
      else countCameras maxNumSensors devs numCameras
    else countCameras maxNumSensors devs numCameras

/-- `get_num_of_cameras`. Without the shim library the global lock is kept. -/
def getNumOfCameras : IntfM ℤ :=
  if out .decrypt = 1 then pure 0
  else do
    lock .gIntf
    change fun c => { c with intf := { c.intf with numCam := 0, camObj := fun _ => none } }
    if out .loadShimLib < 0 then pure 0
    else do
      let c ← data
      let numCameras := countCameras c.intf.maxNumSensors c.media 0
      change fun c => { c with intf := { c.intf with numCam := numCameras } }
      unlock .gIntf
      pure numCameras

end Calls

/-! ### The entries -/

/-- The entries of `mm_camera_ops`, `camera_open` and `get_num_of_cameras` with the arguments
that their locks depend on: handles of cameras and channels, whether a pointer is given, the
type of an advanced capture. -/
inductive Entry
  | queryCapability (handle : ℕ) | registerEventNotify (handle : ℕ) | closeCamera (handle : ℕ)
  | setParms (handle : ℕ) (parms : Bool) | getParms (handle : ℕ) (parms : Bool)
  | doAutoFocus (handle : ℕ) | cancelAutoFocus (handle : ℕ) | prepareSnapshot (handle : ℕ)
  | startZslSnapshot (handle chId : ℕ) | stopZslSnapshot (handle chId : ℕ)
  | mapBuf (handle : ℕ) | mapBufs (handle : ℕ) | unmapBuf (handle : ℕ)
  | addChannel (handle : ℕ) | deleteChannel (handle chId : ℕ)
  | getBundleInfo (handle chId : ℕ) | addStream (handle chId : ℕ)
  | linkStream (handle chId linkedChId : ℕ) | deleteStream (handle chId : ℕ)
  | configStream (handle chId : ℕ) | qbuf (handle chId : ℕ) | cancelBuffer (handle chId : ℕ)
  | getQueuedBufCount (handle chId : ℕ) | mapStreamBuf (handle chId : ℕ)
  | mapStreamBufs (handle chId : ℕ) | unmapStreamBuf (handle chId : ℕ)
  | setStreamParms (handle chId : ℕ) | getStreamParms (handle chId : ℕ)
  | startChannel (handle chId : ℕ) | stopChannel (handle chId : ℕ)
  | requestSuperBuf (handle chId : ℕ) (buf : Bool) | cancelSuperBufRequest (handle chId : ℕ)
  | flushSuperBufQueue (handle chId : ℕ) | configureNotifyMode (handle chId : ℕ)
  | processAdvancedCapture (handle chId type : ℕ) | getSessionId (handle : ℕ)
  | syncRelatedSensors (handle : ℕ) (parms : Bool) | flush (handle : ℕ)
  | registerStreamBufCb (handle chId : ℕ)
  | cameraOpen (idx : ℕ) | getNumOfCameras
  deriving DecidableEq

/-- The program of an entry. Those of the table are `mm_camera_intf_*`. -/
def Entry.call (out : Outcome → ℤ) : Entry → IntfM ℤ
  | queryCapability h => intfCall h (-1) (CamCtrl.queryCapability out)
  | registerEventNotify h => intfCall h (-1) (CamCtrl.registerEventNotify out)
  | closeCamera h => intfClose h
  | setParms h parms => intfCall h (-1) fun id => CamCtrl.setParms out id parms
  | getParms h parms => intfCall h (-1) fun id => CamCtrl.getParms out id parms
  | doAutoFocus h => intfCall h (-1) (CamCtrl.doAutoFocus out)
  | cancelAutoFocus h => intfCall h (-1) (CamCtrl.cancelAutoFocus out)
  | prepareSnapshot h => intfCall h (-1) (CamCtrl.prepareSnapshot out)
  | startZslSnapshot h ch => intfCall h (-1) fun id => startZslSnapshotCh out id ch
  | stopZslSnapshot h ch => intfCall h (-1) fun id => stopZslSnapshotCh out id ch
  | mapBuf h => intfCall h (-1) (CamCtrl.mapBuf out)
  | mapBufs h => intfCall h (-1) (CamCtrl.mapBufs out)
  | unmapBuf h => intfCall h (-1) (CamCtrl.unmapBuf out)
  | addChannel h => intfCall h 0 CamCtrl.addChannel
  | deleteChannel h ch => intfCall h (-1) fun id => delChannel out id ch
  | getBundleInfo h ch => intfCall h (-1) fun id => CamCtrl.getBundleInfo out id ch
  | addStream h ch => intfCall h 0 fun id => CamCtrl.addStream out id ch
  | linkStream h ch linked => intfCall h 0 fun id => CamCtrl.linkStream out id ch linked
  | deleteStream h ch => intfCall h (-1) fun id => delStream out id ch
  | configStream h ch => intfCall h (-1) fun id => CamCtrl.configStream out id ch
  | qbuf h ch => intfCall h (-1) fun id => CamCtrl.qbuf out id ch
  | cancelBuffer h ch => intfCall h (-1) fun id => cancelBuf out id ch
  | getQueuedBufCount h ch => intfCall h (-1) fun id => CamCtrl.getQueuedBufCount out id ch
  | mapStreamBuf h ch => intfCall h (-1) fun id => CamCtrl.mapStreamBuf out id ch
  | mapStreamBufs h ch => intfCall h (-1) fun id => CamCtrl.mapStreamBufs out id ch
  | unmapStreamBuf h ch => intfCall h (-1) fun id => CamCtrl.unmapStreamBuf out id ch
  | setStreamParms h ch => intfCall h (-1) fun id => CamCtrl.setStreamParms out id ch
  | getStreamParms h ch => intfCall h (-1) fun id => CamCtrl.getStreamParms out id ch
  | startChannel h ch => intfCall h (-1) fun id => CamCtrl.startChannel out id ch
  | stopChannel h ch => intfCall h (-1) fun id => CamCtrl.stopChannel out id ch
  | requestSuperBuf h ch buf => intfRequestSuperBuf out h ch buf
  | cancelSuperBufRequest h ch =>
    intfCall h (-1) fun id => CamCtrl.cancelSuperBufRequest out id ch
  | flushSuperBufQueue h ch => intfCall h (-1) fun id => CamCtrl.flushSuperBufQueue out id ch
  | configureNotifyMode h ch => intfCall h (-1) fun id => configChannelNotify out id ch
  | processAdvancedCapture h ch type =>
    intfCall h (-1) fun id => channelAdvancedCapture out id ch type
  | getSessionId h => intfGetSessionId h
  | syncRelatedSensors h parms =>
    intfCall h (-1) fun id => CamCtrl.syncRelatedSensors out id parms
  | flush h => intfCall h (-1) (CamCtrl.flush out)
  | registerStreamBufCb h ch => intfCall h 0 fun id => regStreamBufCb out id ch
  | cameraOpen idx => CamCtrl.cameraOpen out idx
  | getNumOfCameras => CamCtrl.getNumOfCameras out

/-- The locks that an entry keeps. -/
def Entry.kept (out : Outcome → ℤ) (c : CamCtrl) : Entry → List CamLock
  | cancelBuffer h ch => (c.intf.getCameraByHandler h).elim [] fun id =>
    if c.getChannelByHandler id ch = none then [.cam id] else []
  | processAdvancedCapture h ch type => (c.intf.getCameraByHandler h).elim [] fun id =>
    if 5 ≤ type then (c.getChannelByHandler id ch).toList.map (CamLock.ch id) else []
  | getNumOfCameras => if out .decrypt ≠ 1 ∧ out .loadShimLib < 0 then [.gIntf] else []
  | _ => []

/-- An entry stays clear of the three branches that keep a lock. -/
def Entry.Releases (out : Outcome → ℤ) (c : CamCtrl) : Entry → Prop
  | cancelBuffer h ch =>
    ∀ id, c.intf.getCameraByHandler h = some id → c.getChannelByHandler id ch ≠ none
  | processAdvancedCapture h ch type =>
    ∀ id, c.intf.getCameraByHandler h = some id → c.getChannelByHandler id ch ≠ none → type < 5
  | getNumOfCameras => out .decrypt = 1 ∨ 0 ≤ out .loadShimLib
  | _ => True

/-! ### The families -/

section Families

variable {out : Outcome → ℤ}

theorem cameraCall_ends (id : ℕ) (rc : ℤ) (c : CamCtrl) : Ends (cameraCall id rc) ⟨[.cam id], c⟩ [] := by
  rw [cameraCall, ends_unlock (by simp)]
  simp

theorem channelFsmFn_ends (id i : ℕ) (evt : MmChannelEvt) {t : Thread CamLock CamCtrl}
    (ht : t.held = [.ch id i]) : Ends (channelFsmFn out id i evt) t [] := by
  rw [channelFsmFn, ends_data, ends_unlock (by simp [ht])]
  simp [ht]

theorem handover_ends {id i : ℕ} {c : CamCtrl} {post : List CamLock} {f : IntfM ℤ} :
    Ends (do lock (.ch id i); unlock (.cam id); f) ⟨[.cam id], c⟩ post ↔ Ends f ⟨[.ch id i], c⟩ post := by
  rw [ends_lock (by simp), ends_unlock (by simp)]
  simp

/-- **The functions on a channel**: with or without the channel all locks are released. -/
theorem channelEvt_ends (id chId : ℕ) (rc : ℤ) (evt : MmChannelEvt) (c : CamCtrl) :
    Ends (channelEvt out id chId rc evt) ⟨[.cam id], c⟩ [] := by
  rw [channelEvt, ends_data]
  cases c.getChannelByHandler id chId with
  | none => exact cameraCall_ends id rc c
  | some i => exact handover_ends.mpr (channelFsmFn_ends id i evt rfl)

/-- **The entries of the table** keep what the function they call keeps. -/
theorem intfCall_ends {handle : ℕ} {rc : ℤ} {body : ℕ → IntfM ℤ} {c : CamCtrl}
    {post : ℕ → List CamLock} (hbody : ∀ id, Ends (body id) ⟨[.cam id], c⟩ (post id)) :
    Ends (intfCall handle rc body) ⟨[], c⟩ ((c.intf.getCameraByHandler handle).elim [] post) := by
  rw [intfCall, ends_lock (by simp), ends_data]
  cases c.intf.getCameraByHandler handle with
  | none =>
    simp only [elim_none]
    rw [ends_unlock (by simp)]
    simp
  | some id =>
    simp only [elim_some]
    rw [ends_lock (by simp), ends_unlock (by simp)]
    simpa using hbody id

theorem intfCall_releases {handle : ℕ} {rc : ℤ} {body : ℕ → IntfM ℤ} {c : CamCtrl}
    (hbody : ∀ id, Ends (body id) ⟨[.cam id], c⟩ []) :
    Ends (intfCall handle rc body) ⟨[], c⟩ [] := by
  have h : Ends (intfCall handle rc body) ⟨[], c⟩
      ((c.intf.getCameraByHandler handle).elim [] fun _ => []) := intfCall_ends hbody
  cases hcam : c.intf.getCameraByHandler handle with
  | none => rwa [hcam] at h
  | some id => rwa [hcam] at h

/-! ### The functions with a body of their own -/

theorem addChannel_ends (id : ℕ) (c : CamCtrl) : Ends (addChannel id) ⟨[.cam id], c⟩ [] := by
  rw [addChannel, ends_data]
  cases (c.ch id).findIdx? (fun ch => ch.state == .notUsed) with
  | none => exact cameraCall_ends id 0 c
  | some i => exact cameraCall_ends id _ _

theorem delChannel_ends (id chId : ℕ) (c : CamCtrl) : Ends (delChannel out id chId) ⟨[.cam id], c⟩ [] := by
  rw [delChannel, ends_data]
  cases c.getChannelByHandler id chId with
  | none => exact cameraCall_ends id (-1) c
  | some i =>
    refine handover_ends.mpr ((channelFsmFn_ends id i .delete rfl).bind ?_)
    rintro rc t ht
    rw [ends_change, ends_pure]
    exact ht

theorem linkStream_ends (id chId linkedChId : ℕ) (c : CamCtrl) :
    Ends (linkStream out id chId linkedChId) ⟨[.cam id], c⟩ [] := by
  rw [linkStream, ends_data]
  cases c.getChannelByHandler id linkedChId with
  | none => exact cameraCall_ends id 0 c
  | some i =>
    cases c.getChannelByHandler id chId with
    | none => exact cameraCall_ends id 0 c
    | some _ => exact handover_ends.mpr (channelFsmFn_ends id i .linkStream rfl)

theorem regStreamBufCb_ends (id chId : ℕ) (c : CamCtrl) : Ends (regStreamBufCb out id chId) ⟨[.cam id], c⟩ [] := by
  refine (channelEvt_ends id chId 0 .regStreamBufCb c).bind ?_
  rintro rc t ht
  rw [ends_pure]
  exact ht

theorem qbuf_ends (id chId : ℕ) (c : CamCtrl) : Ends (CamCtrl.qbuf out id chId) ⟨[.cam id], c⟩ [] := by
  rw [CamCtrl.qbuf, ends_data]
  exact cameraCall_ends id _ c

theorem cancelBuf_ends (id chId : ℕ) (c : CamCtrl) : Ends (cancelBuf out id chId) ⟨[.cam id], c⟩
      (if c.getChannelByHandler id chId = none then [.cam id] else []) := by
  rw [cancelBuf, ends_data]
  cases c.getChannelByHandler id chId with
  | none => simp
  | some i => exact cameraCall_ends id (out .channelCancelBuf) c

theorem advancedCaptureEvt_eq_none {type : ℕ} : advancedCaptureEvt type = none ↔ 5 ≤ type := by
  simp [advancedCaptureEvt]

theorem channelAdvancedCapture_ends (id chId type : ℕ) (c : CamCtrl) :
    Ends (channelAdvancedCapture out id chId type) ⟨[.cam id], c⟩ (if 5 ≤ type then
        (c.getChannelByHandler id chId).toList.map (CamLock.ch id) else []) := by
  rw [channelAdvancedCapture, ends_data]
  cases c.getChannelByHandler id chId with
  | none =>
    rw [show (if 5 ≤ type then (none : Option ℕ).toList.map (CamLock.ch id) else []) = [] by simp]
    exact cameraCall_ends id (-1) c
  | some i =>
    refine handover_ends.mpr ?_
    cases h : advancedCaptureEvt type with
    | none => simp [advancedCaptureEvt_eq_none.mp h]
    | some evt =>
      have hlt : ¬5 ≤ type := by
        rw [← advancedCaptureEvt_eq_none, h]
        exact some_ne_none evt
      simp only [if_neg hlt]
      exact channelFsmFn_ends id i evt rfl

theorem intfRequestSuperBuf_ends (handle chId : ℕ) (buf : Bool) (c : CamCtrl) :
    Ends (intfRequestSuperBuf out handle chId buf) ⟨[], c⟩ [] := by
  cases buf with
  | false =>
    simp only [intfRequestSuperBuf, Bool.false_eq_true, if_false]
    rw [ends_lock (by simp), ends_unlock (by simp)]
    simp
  | true => exact intfCall_releases fun id => channelEvt_ends id chId (-1) _ c

theorem intfClose_ends (handle : ℕ) (c : CamCtrl) : Ends (intfClose handle) ⟨[], c⟩ [] := by
  rw [intfClose, ends_lock (by simp), ends_data]
  cases h : c.intf.getCameraByHandler handle with
  | none =>
    simp only
    rw [ends_unlock (by simp)]
    simp
  | some id =>
    simp only
    rw [ends_change]
    split
    · rw [ends_unlock (by simp)]
      simp
    · rw [ends_lock (by simp), ends_unlock (by simp)]
      refine Ends.bind (cameraCall_ends id 0 _) ?_
      rintro rc t ht
      rw [ends_change, ends_pure]
      exact ht

theorem cameraOpenDev_ends (id : ℕ) (c : CamCtrl) : Ends (cameraOpenDev out id) ⟨[.cam id], c⟩ [] := by
  rw [cameraOpenDev, ends_data]
  split
  · split
    split
    · exact cameraCall_ends id _ c
    · split
      · exact cameraCall_ends id _ c
      · exact cameraCall_ends id 0 c
  · exact cameraCall_ends id (-1) c

theorem cameraOpen_ends (idx : ℕ) (c : CamCtrl) : Ends (CamCtrl.cameraOpen out idx) ⟨[], c⟩ [] := by
  rw [CamCtrl.cameraOpen, ends_data]
  split
  · simp
  · rw [ends_lock (by simp), ends_data]
    cases h : c.intf.camObj idx with
    | some id =>
      simp only
      rw [ends_change, ends_unlock (by simp)]
      simp
    | none =>
      simp only
      split
      · rw [ends_unlock (by simp)]
        simp
      · rw [ends_change, ends_lock (by simp), ends_unlock (by simp)]
        refine Ends.bind (cameraOpenDev_ends c.intf.objNum _) ?_
        rintro rc t ht
        rw [ends_lock (by simp [ht]), ends_change, ends_unlock (by simp)]
        simp [ht]

theorem getNumOfCameras_ends (c : CamCtrl) : Ends (CamCtrl.getNumOfCameras out) ⟨[], c⟩
      (if out .decrypt ≠ 1 ∧ out .loadShimLib < 0 then [.gIntf] else []) := by
  rw [CamCtrl.getNumOfCameras]
  split
  · next hdec => simp [hdec]
  · next hdec =>
      rw [ends_lock (by simp), ends_change]
      split
      · next hshim => simp [hdec, hshim]
      · next hshim =>
          rw [ends_data, ends_change, ends_unlock (by simp)]
          simp [hshim]

end Families

/-! ### All entries -/

/-- **No entry breaks the discipline**, and what it keeps. -/
theorem call_ends (out : Outcome → ℤ) (e : Entry) (c : CamCtrl) : Ends (e.call out) ⟨[], c⟩ (e.kept out c) := by
  cases e with
  | closeCamera h => exact intfClose_ends h c
  | addChannel h => exact intfCall_releases fun id => addChannel_ends id c
  | deleteChannel h ch => exact intfCall_releases fun id => delChannel_ends id ch c
  | linkStream h ch linked => exact intfCall_releases fun id => linkStream_ends id ch linked c
  | qbuf h ch => exact intfCall_releases fun id => qbuf_ends id ch c
  | cancelBuffer h ch => exact intfCall_ends fun id => cancelBuf_ends id ch c
  | requestSuperBuf h ch buf => exact intfRequestSuperBuf_ends h ch buf c
  | processAdvancedCapture h ch type =>
    exact intfCall_ends fun id => channelAdvancedCapture_ends id ch type c
  | registerStreamBufCb h ch => exact intfCall_releases fun id => regStreamBufCb_ends id ch c
  | cameraOpen idx => exact cameraOpen_ends idx c
  | getNumOfCameras => exact getNumOfCameras_ends c
  | queryCapability h | registerEventNotify h | doAutoFocus h | cancelAutoFocus h
  | prepareSnapshot h | mapBuf h | mapBufs h | unmapBuf h | getSessionId h | flush h =>
    exact intfCall_releases fun id => cameraCall_ends id _ c
  | setParms h parms | getParms h parms | syncRelatedSensors h parms =>
    exact intfCall_releases fun id => cameraCall_ends id _ c
  | startZslSnapshot h ch | stopZslSnapshot h ch | getBundleInfo h ch | addStream h ch
  | deleteStream h ch | configStream h ch | getQueuedBufCount h ch | mapStreamBuf h ch
  | mapStreamBufs h ch | unmapStreamBuf h ch | setStreamParms h ch | getStreamParms h ch
  | startChannel h ch | stopChannel h ch | cancelSuperBufRequest h ch
  | flushSuperBufQueue h ch | configureNotifyMode h ch =>
    exact intfCall_releases fun id => channelEvt_ends id ch _ _ c

theorem kept_eq_nil {out : Outcome → ℤ} {e : Entry} {c : CamCtrl} : e.kept out c = [] ↔ e.Releases out c := by
  cases e with
  | cancelBuffer h ch =>
    simp only [Entry.kept, Entry.Releases]
    cases c.intf.getCameraByHandler h with
    | none => simp
    | some id => simp
  | processAdvancedCapture h ch type =>
    simp only [Entry.kept, Entry.Releases]
    cases c.intf.getCameraByHandler h with
    | none => simp
    | some id =>
      cases hch : c.getChannelByHandler id ch with
      | none => simp [hch]
      | some i => simp [hch]
  | getNumOfCameras =>
    simp only [Entry.kept, Entry.Releases]
    split
    · next h => simp [h.1, h.2]
    · next h =>
        simp only [true_iff]
        omega
  | _ => simp [Entry.kept, Entry.Releases]

/-- **The lock discipline of the interface.** A call that starts without locks runs without a
fault and returns without locks exactly if it stays clear of the three branches. -/
theorem call_releases (out : Outcome → ℤ) (e : Entry) (c : CamCtrl) :
    Ends (e.call out) ⟨[], c⟩ [] ↔ e.Releases out c := by
  rw [← kept_eq_nil]
  constructor
  · intro h
    exact (call_ends out e c).unique h
  · intro h
    have hends := call_ends out e c
    rwa [h] at hends

/-- One camera that is open, with handle 256 and a channel with handle 513. -/
def oneChannel : CamCtrl where
  intf :=
    { maxNumSensors := 5
      numCam := 1
      camObj := fun i => if i = 0 then some 0 else none
      objNum := 1
      objs := fun _ => { myHdl := 256, refCount := 1 }
      handles := [256] }
  ch := fun _ => { myHdl := 513, state := .active } :: List.replicate 15 {}

/-- Cancelling a buffer of a channel that was deleted keeps the camera locked, an advanced
capture of type 5 keeps the channel locked, and counting the cameras without the shim library
keeps the interface locked. -/
theorem call_keeps : ¬ (∀ (out : Outcome → ℤ) (e : Entry) (c : CamCtrl), Ends (e.call out) ⟨[], c⟩ []) ∧
      Ends (Entry.call (fun _ => 0) (.cancelBuffer 256 258)) ⟨[], oneChannel⟩ [.cam 0] ∧
      Ends (Entry.call (fun _ => 0) (.processAdvancedCapture 256 513 5)) ⟨[], oneChannel⟩ [.ch 0 0] ∧
      Ends (Entry.call (fun _ => -1) .getNumOfCameras) ⟨[], oneChannel⟩ [.gIntf] := by
  have hcancel : Ends (Entry.call (fun _ => 0) (.cancelBuffer 256 258)) ⟨[], oneChannel⟩
      [.cam 0] := call_ends (fun _ => 0) (.cancelBuffer 256 258) oneChannel
  refine ⟨fun h => ?_, hcancel, call_ends _ (.processAdvancedCapture 256 513 5) oneChannel,
    call_ends _ .getNumOfCameras oneChannel⟩
  have hnil := hcancel.unique (h (fun _ => 0) (.cancelBuffer 256 258) oneChannel)
  simp at hnil

end CamCtrl

end Marlin
