import Marlin.Transition

/-!
# The State Machine of the Camera Interface

`QCameraStateMachine` takes the API calls and the internal events of the camera one by one. In each of
its eight states it has a handler of its own, which calls the interface and answers API calls with
`signalAPIResult`.

## Conventions

* An event comes with its payload and with what the calls to the interface answer. `rc` is the answer of
  a call that only gives the status of the API result.
* Of the interface there is the preview: idle, prepared or started. `takePicture`, `preTakePicture` and
  `preStartRecording` stop and restart it themselves.
* `prepare` and `start` have an answer for each time they are called while one event is handled.
* Delayed message types, the ZSL value that is restored and the answers to `signalEvtResult` are left out.
-/

namespace Marlin

/-- `NO_ERROR`. -/
def noError : ℤ := 0

/-- `INVALID_OPERATION`. -/
def invalidOperation : ℤ := -38

/-- `BAD_VALUE`. -/
def badValue : ℤ := -22

/-- `UNKNOWN_ERROR`. -/
def unknownError : ℤ := -2147483648

/-- `qcamera_sm_evt_enum_t`. -/
inductive SmEvt
  | setPreviewWindow | setCallbacks | enableMsgType | disableMsgType | msgTypeEnabled
  | setParams | setParamsStop | setParamsCommit | setParamsRestart | getParams | putParams
  | preparePreview | startPreview | startNodisplayPreview | stopPreview | previewEnabled
  | storeMetadataInBufs | preStartRecording | startRecording | stopRecording | recordingEnabled
  | releaseRecordingFrame | prepareSnapshot | preTakePicture | takePicture | cancelPicture
  | startAutoFocus | stopAutoFocus | sendCommand | release | dump | regFaceImage
  | evtInternal | evtNotify | jpegEvtNotify | snapshotDone | thermalNotify | stopCaptureChannel
  | restartPreview | delayedRestart | sendCommandRestart | restartStartPreview | restartStopPreview
  deriving DecidableEq

/-- `qcamera_state_enum_t`. -/
inductive SmState
  | previewStopped | previewReady | previewing | prepareSnapshot | picTaking | recording
  | videoPicTaking | previewPicTaking
  deriving DecidableEq

/-- `qcamera_internal_evt_type_t`. -/
inductive InternalEvt
  | focusUpdate | prepSnapshotDone | faceDetectResult | histogramStats | cropInfo | asdUpdate
  | readyForSnapshot | ledModeOverride | awbUpdate | aeUpdate | focusPosUpdate | hdrUpdate
  | retroAecUnlock | zslCaptureDone
  deriving DecidableEq

/-- The server events that are told apart. -/
inductive ServerEvt
  | daemonDied | cacDone | other
  deriving DecidableEq

/-- The commands that are told apart. -/
inductive CameraCmd
  | longshotOn | longshotOff | other
  deriving DecidableEq

/-- `qcamera_api_result_type_t`, with what comes with it. -/
inductive ApiResultType
  | deflt
  | enableFlag (enabled : ℤ)
  | params (got : Bool)
  | handle (faceId : ℤ)
  deriving DecidableEq

/-- `qcamera_api_result_t`. -/
structure ApiResult where
  status : ℤ
  requestApi : SmEvt
  resultType : ApiResultType
  deriving DecidableEq

/-- The preview of the interface. -/
inductive Preview
  | idle | prepared | started
  deriving DecidableEq

/-- The payload of an event, and what the interface answers while it is handled. -/
structure SmEnv where
  window : Bool := true
  cmd : CameraCmd := .other
  arg1Restart : Bool := false
  arg2Delayed : Bool := false
  server : ServerEvt := .other
  internal : InternalEvt := .focusUpdate
  rc : ℤ := 0
  deferredWork : ℤ := 0
  value : ℤ := 0
  needRestart : Bool := false
  prepare : ℕ → ℤ := fun _ => 0
  start : ℕ → ℤ := fun _ => 0
  configureAdvancedCapture : ℤ := 0
  recordingHint : Bool := false
  relatedSensors : Bool := false
  zslMode : Bool := false
  longshotEnabled : Bool := false
  previewRestartEnabled : Bool := false
  manualCapture3 : Bool := false
  retroPicture : Bool := false

/-- The state machine, with the preview and the window of the interface, and the API results so far. -/
structure QCameraStateMachine where
  mState : SmState := .previewStopped
  previewNeedsRestart : Bool := false
  previewDelayedRestart : Bool := false
  preview : Preview := .idle
  previewWindow : Bool := false
  results : List ApiResult := []

namespace SmEnv

/-- The status of a call that waits for the deferred initialisation first. -/
def afterDeferredWork (env : SmEnv) : ℤ := if env.deferredWork ≠ 0 then env.deferredWork else env.rc

end SmEnv

namespace QCameraStateMachine

/-! ### The interface -/

/-- `m_parent->preparePreview`, the `n`th time. -/
def preparePreview (s : QCameraStateMachine) (env : SmEnv) (n : ℕ) : ℤ × QCameraStateMachine :=
  if env.prepare n ≠ 0 then (env.prepare n, s)
  else if s.preview = .idle then (noError, { s with preview := .prepared })
  else (unknownError, s)

/-- `m_parent->startPreview`, the `n`th time. -/
def startPreview (s : QCameraStateMachine) (env : SmEnv) (n : ℕ) : ℤ × QCameraStateMachine :=
  if env.start n ≠ 0 then (env.start n, s)
  else if s.preview = .prepared then (noError, { s with preview := .started })
  else (unknownError, s)

/-- `m_parent->unpreparePreview`. -/
def unpreparePreview (s : QCameraStateMachine) : QCameraStateMachine := { s with preview := .idle }

/-- `m_parent->stopPreview`, which ends with `unpreparePreview`. -/
def stopPreview (s : QCameraStateMachine) : QCameraStateMachine := s.unpreparePreview

/-- Prepare and start; a preview that does not start is taken back. -/
def restart (s : QCameraStateMachine) (env : SmEnv) (n : ℕ) : ℤ × QCameraStateMachine :=
  let (rc, s) := s.preparePreview env n
  if rc = 0 then
    let (rc, s) := s.startPreview env n
    if rc ≠ 0 then (rc, s.unpreparePreview) else (rc, s)
  else (rc, s)

/-- Prepare and start; a preview that does not start is left prepared. -/
def restartOnly (s : QCameraStateMachine) (env : SmEnv) (n : ℕ) : ℤ × QCameraStateMachine :=
  let (rc, s) := s.preparePreview env n
  if rc = 0 then s.startPreview env n else (rc, s)

/-- `m_parent->preStartRecording`. -/
def parentPreStartRecording (s : QCameraStateMachine) (env : SmEnv) : ℤ × QCameraStateMachine :=
  if env.recordingHint = false ∧ env.relatedSensors = false then s.stopPreview.restartOnly env 0
  else (noError, s)

/-- `m_parent->preTakePicture`. -/
def parentPreTakePicture (s : QCameraStateMachine) (env : SmEnv) : ℤ × QCameraStateMachine :=
  if env.recordingHint = true ∧ env.relatedSensors = false then s.stopPreview.restart env 0
  else (noError, s)

/-- `m_parent->takePicture`: without ZSL the preview is stopped, once the capture is configured. -/
def parentTakePicture (s : QCameraStateMachine) (env : SmEnv) (zslMode : Bool) :
    ℤ × QCameraStateMachine :=
  if env.configureAdvancedCapture ≠ 0 then (env.configureAdvancedCapture, s)
  else if zslMode then (env.rc, s)
  else (env.rc, s.stopPreview)

/-! ### Answers -/

/-- `signalAPIResult`. -/
def signalAPIResult (s : QCameraStateMachine) (result : ApiResult) : QCameraStateMachine :=
  { s with results := s.results ++ [result] }

/-- A result without additional information. -/
def answer (s : QCameraStateMachine) (evt : SmEvt) (rc : ℤ) : QCameraStateMachine :=
  s.signalAPIResult ⟨rc, evt, .deflt⟩

/-- A result with a flag. -/
def answerFlag (s : QCameraStateMachine) (evt : SmEvt) (rc enabled : ℤ) : QCameraStateMachine :=
  s.signalAPIResult ⟨rc, evt, .enableFlag enabled⟩

/-- The parameters, or `UNKNOWN_ERROR` if there are none. -/
def answerParams (s : QCameraStateMachine) (env : SmEnv) (evt : SmEvt) : QCameraStateMachine :=
  if env.value = 0 then s.signalAPIResult ⟨unknownError, evt, .params false⟩
  else s.signalAPIResult ⟨noError, evt, .params true⟩

/-- The handle of a face. -/
def answerHandle (s : QCameraStateMachine) (env : SmEnv) (evt : SmEvt) : QCameraStateMachine :=
  s.signalAPIResult ⟨env.rc, evt, .handle env.value⟩

/-- The next state. -/
def goto (s : QCameraStateMachine) (mState : SmState) : QCameraStateMachine := { s with mState := mState }

/-! ### The handlers -/

/-- The preview is prepared only, from the stopped state. -/
def prepareFromStopped (s : QCameraStateMachine) (env : SmEnv) (evt : SmEvt) : QCameraStateMachine :=
  let (rc, s) := s.preparePreview env 0
  (if rc = 0 then s.goto .previewReady else s).answer evt rc

/-- The preview is prepared and started, from the stopped state. -/
def startFromStopped (s : QCameraStateMachine) (env : SmEnv) (evt : SmEvt) : QCameraStateMachine :=
  let (rc, s) := s.restart env 0
  (if rc = 0 then s.goto .previewing else s).answer evt rc

/-- `procEvtPreviewStoppedState`. -/
def procEvtPreviewStoppedState (s : QCameraStateMachine) (env : SmEnv) (evt : SmEvt) :
    QCameraStateMachine :=
  match evt with
  | .setPreviewWindow => ({ s with previewWindow := env.window }).answer evt env.rc
  | .setCallbacks | .setParamsCommit | .putParams | .release | .storeMetadataInBufs =>
    s.answer evt env.rc
  | .enableMsgType | .disableMsgType | .setParams | .dump | .sendCommand | .stopAutoFocus =>
    s.answer evt env.afterDeferredWork
  | .msgTypeEnabled => s.answerFlag evt noError env.value
  | .setParamsStop | .setParamsRestart | .stopPreview | .startAutoFocus | .cancelPicture =>
    s.answer evt noError
  | .getParams => s.answerParams env evt
  | .preparePreview =>
    if env.deferredWork ≠ 0 then s.answer evt env.deferredWork else s.prepareFromStopped env evt
  | .startPreview =>
    if env.deferredWork ≠ 0 then s.answer evt env.deferredWork
    else if s.previewWindow = false then s.prepareFromStopped env evt
    else s.startFromStopped env evt
  | .startNodisplayPreview =>
    if env.deferredWork ≠ 0 then s.answer evt env.deferredWork else s.startFromStopped env evt
  | .previewEnabled | .recordingEnabled => s.answerFlag evt noError 0
  | .regFaceImage => s.answerHandle env evt
  | .preStartRecording | .restartStopPreview | .restartStartPreview | .startRecording | .stopRecording
  | .releaseRecordingFrame | .prepareSnapshot | .preTakePicture | .takePicture =>
    s.answer evt invalidOperation
  | .thermalNotify | .evtNotify | .snapshotDone | .evtInternal | .jpegEvtNotify | .stopCaptureChannel
  | .restartPreview | .delayedRestart | .sendCommandRestart => s

/-- The prepared preview is started; one that does not start is taken back. -/
def startFromReady (s : QCameraStateMachine) (env : SmEnv) : ℤ × QCameraStateMachine :=
  let (rc, s) := s.startPreview env 0
  (rc, if rc ≠ 0 then s.unpreparePreview.goto .previewStopped else s.goto .previewing)

/-- `procEvtPreviewReadyState`. -/
def procEvtPreviewReadyState (s : QCameraStateMachine) (env : SmEnv) (evt : SmEvt) :
    QCameraStateMachine :=
  match evt with
  | .setPreviewWindow =>
    let s := { s with previewWindow := env.window }
    if env.window then
      let (rc, s) := s.startFromReady env
      s.answer evt rc
    else s.answer evt noError
  | .setCallbacks | .enableMsgType | .disableMsgType | .setParams | .setParamsCommit | .putParams
  | .storeMetadataInBufs | .dump | .startAutoFocus | .stopAutoFocus | .sendCommand => s.answer evt env.rc
  | .msgTypeEnabled => s.answerFlag evt noError env.value
  | .setParamsStop => s.unpreparePreview.answer evt noError
  | .setParamsRestart =>
    let (rc, s) := s.preparePreview env 0
    (if rc ≠ 0 then s.goto .previewStopped else s).answer evt rc
  | .getParams => s.answerParams env evt
  | .preparePreview => s.answer evt noError
  -- the status of the start is overwritten
  | .startNodisplayPreview => (s.startFromReady env).2.answer evt noError
  | .startPreview =>
    (if s.previewWindow then (s.startFromReady env).2 else s).answer evt noError
  | .stopPreview => (s.unpreparePreview.goto .previewStopped).answer evt noError
  | .previewEnabled => s.answerFlag evt noError 1
  | .recordingEnabled => s.answerFlag evt noError 0
  | .regFaceImage => s.answerHandle env evt
  | .preStartRecording | .restartStopPreview | .restartStartPreview | .startRecording | .stopRecording
  | .prepareSnapshot | .preTakePicture | .takePicture | .cancelPicture | .releaseRecordingFrame
  | .release => s.answer evt invalidOperation
  | .evtNotify | .snapshotDone | .evtInternal | .jpegEvtNotify | .thermalNotify | .stopCaptureChannel
  | .restartPreview | .delayedRestart | .sendCommandRestart => s

/-- `TAKE_PICTURE` while the preview is on. -/
def takePictureFromPreviewing (s : QCameraStateMachine) (env : SmEnv) : QCameraStateMachine :=
  let s := if env.recordingHint then (s.stopPreview.restart env 0).2 else s
  if env.zslMode ∨ env.longshotEnabled then
    let leaves := env.previewRestartEnabled && env.manualCapture3
    let s := if leaves then s.stopPreview.goto .picTaking else s.goto .previewPicTaking
    -- where the preview is left, the ZSL value was set to `FALSE`
    let (rc, s) := s.parentTakePicture env (env.zslMode && !leaves)
    let s := if rc ≠ 0 then s.goto .previewing else s
    if env.retroPicture = false ∨ rc ≠ 0 then s.answer .takePicture rc else s
  else
    let (rc, s) := (s.goto .picTaking).parentTakePicture env false
    if rc ≠ 0 then
      let (tempRc, s) := s.stopPreview.restart env 1
      (s.goto (if tempRc = 0 then .previewing else .previewStopped)).answer .takePicture rc
    else s.answer .takePicture rc

/-- `SEND_COMMAND` while the preview is on. -/
def sendCommandFromPreviewing (s : QCameraStateMachine) (env : SmEnv) : QCameraStateMachine :=
  let s := { s with previewNeedsRestart := env.arg1Restart, previewDelayedRestart := env.arg2Delayed }
  if env.cmd = .longshotOn ∧ env.arg1Restart then
    if env.arg2Delayed = false then
      let (rc, s) := s.stopPreview.restart env 0
      s.answer .sendCommand rc
    else s.stopPreview.answer .sendCommand env.rc
  else s.answer .sendCommand env.rc

/-- `SEND_COMMAND_RESTART` while the preview is on. -/
def sendCommandRestartFromPreviewing (s : QCameraStateMachine) (env : SmEnv) : QCameraStateMachine :=
  if env.cmd = .longshotOn ∧ s.previewNeedsRestart ∧ s.previewDelayedRestart then
    let (rc, s) := s.restart env 0
    s.answer .sendCommandRestart rc
  else s.answer .sendCommandRestart noError

/-- `procEvtPreviewingState`. -/
def procEvtPreviewingState (s : QCameraStateMachine) (env : SmEnv) (evt : SmEvt) :
    QCameraStateMachine :=
  match evt with
  | .setCallbacks | .enableMsgType | .disableMsgType | .setParams | .setParamsCommit | .putParams
  | .storeMetadataInBufs | .dump | .startAutoFocus | .stopAutoFocus => s.answer evt env.rc
  | .msgTypeEnabled => s.answerFlag evt noError env.value
  | .setParamsStop => s.stopPreview.answer evt env.rc
  | .setParamsRestart =>
    let (rc, s) := s.preparePreview env 0
    -- the state is left only where the start fails
    if rc = 0 then
      let (rc, s) := s.startPreview env 0
      (if rc ≠ 0 then s.unpreparePreview.goto .previewStopped else s).answer evt rc
    else s.answer evt rc
  | .getParams => s.answerParams env evt
  | .preparePreview | .startPreview | .startNodisplayPreview => s.answer evt noError
  | .stopPreview => (s.stopPreview.goto .previewStopped).answer evt env.rc
  | .previewEnabled => s.answerFlag evt noError 1
  | .recordingEnabled => s.answerFlag evt noError 0
  | .preStartRecording =>
    let (rc, s) := s.parentPreStartRecording env
    s.answer evt rc
  | .startRecording => (if env.rc = 0 then s.goto .recording else s).answer evt env.rc
  | .prepareSnapshot => if env.rc = 0 then s.goto .prepareSnapshot else s.answer evt env.rc
  | .preTakePicture =>
    let (rc, s) := s.parentPreTakePicture env
    s.answer evt rc
  | .takePicture => s.takePictureFromPreviewing env
  | .sendCommand => s.sendCommandFromPreviewing env
  | .sendCommandRestart => s.sendCommandRestartFromPreviewing env
  | .regFaceImage => s.answerHandle env evt
  | .setPreviewWindow | .cancelPicture | .stopRecording | .releaseRecordingFrame | .release =>
    s.answer evt invalidOperation
  | .restartStopPreview => s.stopPreview.answer evt noError
  | .restartStartPreview =>
    let (rc, s) := s.restartOnly env 0
    s.answer evt rc
  | .evtInternal | .evtNotify | .thermalNotify | .snapshotDone | .jpegEvtNotify | .stopCaptureChannel
  | .restartPreview | .delayedRestart => s

/-- The daemon died: two calls are answered. -/
def answerDaemonDied (s : QCameraStateMachine) (env : SmEnv) : QCameraStateMachine :=
  match env.server with
  | .daemonDied => (s.answer .prepareSnapshot noError).answer .takePicture noError
  | .cacDone | .other => s

/-- `procEvtPrepareSnapshotState`. -/
def procEvtPrepareSnapshotState (s : QCameraStateMachine) (env : SmEnv) (evt : SmEvt) :
    QCameraStateMachine :=
  match evt with
  | .setPreviewWindow | .setCallbacks | .enableMsgType | .disableMsgType | .msgTypeEnabled | .setParams
  | .setParamsStop | .setParamsCommit | .setParamsRestart | .getParams | .putParams | .preparePreview
  | .startPreview | .startNodisplayPreview | .stopPreview | .previewEnabled | .recordingEnabled
  | .storeMetadataInBufs | .dump | .startAutoFocus | .stopAutoFocus | .preStartRecording
  | .restartStopPreview | .restartStartPreview | .startRecording | .preTakePicture | .takePicture
  | .prepareSnapshot | .sendCommand | .cancelPicture | .stopRecording | .releaseRecordingFrame
  | .release => s.answer evt invalidOperation
  | .evtInternal =>
    match env.internal with
    | .prepSnapshotDone => (s.goto .previewing).answer .prepareSnapshot noError
    | .focusUpdate | .faceDetectResult | .histogramStats | .cropInfo | .asdUpdate | .readyForSnapshot
    | .ledModeOverride | .awbUpdate | .aeUpdate | .focusPosUpdate | .hdrUpdate | .retroAecUnlock
    | .zslCaptureDone => s
  | .evtNotify => s.answerDaemonDied env
  | .snapshotDone | .thermalNotify | .jpegEvtNotify | .regFaceImage | .stopCaptureChannel
  | .restartPreview | .delayedRestart | .sendCommandRestart => s

/-- `procEvtPicTakingState`. -/
def procEvtPicTakingState (s : QCameraStateMachine) (env : SmEnv) (evt : SmEvt) :
    QCameraStateMachine :=
  match evt with
  | .setCallbacks | .enableMsgType | .disableMsgType | .setParams | .setParamsCommit | .putParams
  | .storeMetadataInBufs | .dump | .startAutoFocus | .stopAutoFocus => s.answer evt env.rc
  | .msgTypeEnabled => s.answerFlag evt noError env.value
  | .setParamsStop | .setParamsRestart => s.answer evt noError
  | .getParams => s.answerParams env evt
  | .stopPreview | .cancelPicture => (s.goto .previewStopped).answer evt env.rc
  | .previewEnabled | .recordingEnabled => s.answerFlag evt noError 0
  | .sendCommand => (if env.cmd = .longshotOff then s.goto .previewing else s).answer evt env.rc
  | .regFaceImage => s.answerHandle env evt
  | .preTakePicture => s.answer evt (if env.longshotEnabled then noError else invalidOperation)
  | .takePicture => s.answer evt (if env.longshotEnabled then env.rc else invalidOperation)
  | .setPreviewWindow | .prepareSnapshot | .preStartRecording | .restartStopPreview
  | .restartStartPreview | .startRecording | .stopRecording | .releaseRecordingFrame | .preparePreview
  | .startPreview | .startNodisplayPreview | .release => s.answer evt invalidOperation
  | .evtNotify => s.answerDaemonDied env
  | .stopCaptureChannel =>
    if env.previewRestartEnabled ∧ env.rc = 0 then
      let (rc, s) := s.restartOnly env 0
      s.answer evt rc
    else s.answer evt env.rc
  | .snapshotDone =>
    if env.previewRestartEnabled then
      (if env.manualCapture3 then (s.restartOnly env 0).2 else s).goto .previewing
    else s.goto .previewStopped
  | .evtInternal | .jpegEvtNotify | .thermalNotify | .restartPreview | .delayedRestart
  | .sendCommandRestart => s

/-- The status of `SET_PARAMS` while recording: parameters that need a restart are refused. -/
def setParamsRecording (env : SmEnv) : ℤ :=
  if env.rc = 0 ∧ env.needRestart then badValue else env.rc

/-- `procEvtRecordingState`. -/
def procEvtRecordingState (s : QCameraStateMachine) (env : SmEnv) (evt : SmEvt) :
    QCameraStateMachine :=
  match evt with
  | .preparePreview | .startPreview | .setPreviewWindow | .preTakePicture | .prepareSnapshot
  | .preStartRecording | .restartStopPreview | .restartStartPreview | .startRecording =>
    s.answer evt noError
  | .setCallbacks | .enableMsgType | .disableMsgType | .setParamsCommit | .putParams
  | .storeMetadataInBufs | .dump | .startAutoFocus | .stopAutoFocus | .sendCommand
  | .releaseRecordingFrame => s.answer evt env.rc
  | .msgTypeEnabled => s.answerFlag evt noError env.value
  | .setParams => s.answer evt (setParamsRecording env)
  | .setParamsStop | .setParamsRestart | .cancelPicture | .startNodisplayPreview | .release =>
    s.answer evt invalidOperation
  | .getParams => s.answerParams env evt
  | .previewEnabled => s.answerFlag evt noError 0
  | .recordingEnabled => s.answerFlag evt noError 1
  | .takePicture => (if env.rc ≠ 0 then s else s.goto .videoPicTaking).answer evt env.rc
  | .stopRecording => (s.goto .previewing).answer evt env.rc
  | .stopPreview => (s.stopPreview.goto .previewStopped).answer evt env.rc
  | .regFaceImage => s.answerHandle env evt
  | .evtInternal | .evtNotify | .thermalNotify | .snapshotDone | .jpegEvtNotify | .stopCaptureChannel
  | .restartPreview | .delayedRestart | .sendCommandRestart => s

/-- `procEvtVideoPicTakingState`. -/
def procEvtVideoPicTakingState (s : QCameraStateMachine) (env : SmEnv) (evt : SmEvt) :
    QCameraStateMachine :=
  match evt with
  | .setCallbacks | .enableMsgType | .disableMsgType | .setParamsCommit | .putParams
  | .storeMetadataInBufs | .dump | .startAutoFocus | .stopAutoFocus | .sendCommand
  | .releaseRecordingFrame => s.answer evt env.rc
  | .msgTypeEnabled => s.answerFlag evt noError env.value
  | .setParams => s.answer evt (setParamsRecording env)
  | .getParams => s.answerParams env evt
  | .previewEnabled | .recordingEnabled => s.answerFlag evt noError 1
  | .stopRecording => (s.goto .previewing).answer evt env.rc
  | .cancelPicture => (s.goto .recording).answer evt env.rc
  | .regFaceImage => s.answerHandle env evt
  | .stopPreview => (s.stopPreview.goto .previewStopped).answer evt env.rc
  | .setPreviewWindow | .setParamsStop | .setParamsRestart | .preStartRecording | .restartStopPreview
  | .restartStartPreview | .startRecording | .preparePreview | .startPreview | .startNodisplayPreview
  | .prepareSnapshot | .preTakePicture | .takePicture | .release => s.answer evt invalidOperation
  | .snapshotDone => s.goto .recording
  | .evtInternal | .evtNotify | .jpegEvtNotify | .thermalNotify | .stopCaptureChannel
  | .restartPreview | .delayedRestart | .sendCommandRestart => s

/-- `procEvtPreviewPicTakingState`. -/
def procEvtPreviewPicTakingState (s : QCameraStateMachine) (env : SmEnv) (evt : SmEvt) :
    QCameraStateMachine :=
  match evt with
  | .setCallbacks | .enableMsgType | .disableMsgType | .setParams | .setParamsCommit | .putParams
  | .storeMetadataInBufs | .dump | .startAutoFocus | .stopAutoFocus | .releaseRecordingFrame =>
    s.answer evt env.rc
  | .msgTypeEnabled => s.answerFlag evt noError env.value
  | .setParamsStop => s.stopPreview.answer evt env.rc
  | .setParamsRestart =>
    let (rc, s) := s.restart env 0
    (if rc ≠ 0 then s.goto .picTaking else s).answer evt rc
  | .getParams => s.answerParams env evt
  | .previewEnabled => s.answerFlag evt noError 1
  | .recordingEnabled => s.answerFlag evt noError 0
  | .sendCommand => (if env.cmd = .longshotOff then s.goto .previewing else s).answer evt env.rc
  | .cancelPicture => (s.goto .previewing).answer evt env.rc
  | .stopPreview => (s.unpreparePreview.goto .previewStopped).answer evt env.rc
  | .preStartRecording =>
    if env.zslMode ∨ env.longshotEnabled then s.answer evt invalidOperation
    else
      let (rc, s) := s.parentPreStartRecording env
      s.answer evt rc
  | .startRecording =>
    if env.zslMode ∨ env.longshotEnabled then s.answer evt invalidOperation
    else (if env.rc = 0 then s.goto .videoPicTaking else s).answer evt env.rc
  | .regFaceImage => s.answerHandle env evt
  | .preTakePicture => s.answer evt (if env.longshotEnabled then noError else invalidOperation)
  | .takePicture => s.answer evt (if env.longshotEnabled then env.rc else invalidOperation)
  | .prepareSnapshot =>
    if env.retroPicture then if env.rc ≠ 0 then s.answer evt env.rc else s
    else s.answer evt invalidOperation
  | .stopRecording | .preparePreview | .startPreview | .startNodisplayPreview | .setPreviewWindow
  | .release => s.answer evt invalidOperation
  | .evtInternal =>
    match env.internal with
    | .prepSnapshotDone => if env.retroPicture then s.answer .prepareSnapshot noError else s
    | .readyForSnapshot => if env.retroPicture then s.answer .takePicture noError else s
    | .focusUpdate | .faceDetectResult | .histogramStats | .cropInfo | .asdUpdate | .ledModeOverride
    | .awbUpdate | .aeUpdate | .focusPosUpdate | .hdrUpdate | .retroAecUnlock | .zslCaptureDone => s
  | .evtNotify => s.answerDaemonDied env
  | .snapshotDone =>
    let s := s.goto .previewing
    if env.retroPicture then s.answer evt env.rc else s
  | .restartStopPreview => s.stopPreview.answer evt noError
  | .restartStartPreview =>
    let (rc, s) := s.restartOnly env 0
    s.answer evt rc
  | .jpegEvtNotify | .thermalNotify | .stopCaptureChannel | .restartPreview | .delayedRestart
  | .sendCommandRestart => s

/-- `stateMachine`. -/
def stateMachine (s : QCameraStateMachine) (env : SmEnv) (evt : SmEvt) : QCameraStateMachine :=
  match s.mState with
  | .previewStopped => s.procEvtPreviewStoppedState env evt
  | .previewReady => s.procEvtPreviewReadyState env evt
  | .previewing => s.procEvtPreviewingState env evt
  | .prepareSnapshot => s.procEvtPrepareSnapshotState env evt
  | .picTaking => s.procEvtPicTakingState env evt
  | .recording => s.procEvtRecordingState env evt
  | .videoPicTaking => s.procEvtVideoPicTakingState env evt
  | .previewPicTaking => s.procEvtPreviewPicTakingState env evt

end QCameraStateMachine

end Marlin
