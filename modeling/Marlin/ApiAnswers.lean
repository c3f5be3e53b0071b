import Marlin.PreviewAgreement

/-!
# The Answers to the API Calls

Every API call waits until the state machine has answered it. Most calls are answered while they are
handled; `PREPARE_SNAPSHOT` and the `TAKE_PICTURE` of a retro picture are answered by later events.

## Conventions

* The calls are the API events so far, the answers are the results' `request_api`.
* An API event is one that some state answers; `SNAPSHOT_DONE` comes as a call and as an internal event.
* `Orderly` is the condition under which no call is ignored, forgotten or answered for nothing.

## Main results

* `calls_answered_run`: every call is answered once, or still waits for an event that will answer it.
* `ignored_call`: a call that is never answered.
-/

namespace Marlin

open List Transition

namespace QCameraStateMachine

variable {s t : QCameraStateMachine} {env : SmEnv} {evt : SmEvt}

/-! ### What the handlers answer -/

/-- The answered calls. -/
def answered (s : QCameraStateMachine) : List SmEvt := s.results.map ApiResult.requestApi

/-- The event is an API call. -/
def isApi : SmEvt → Bool
  | .evtInternal | .evtNotify | .jpegEvtNotify | .thermalNotify | .restartPreview | .delayedRestart =>
    false
  | _ => true

/-- The handler of the state knows the API call. -/
def hears (m : SmState) (env : SmEnv) : SmEvt → Bool
  | .regFaceImage => decide (m ≠ .prepareSnapshot)
  | .sendCommandRestart => decide (m = .previewing)
  | .stopCaptureChannel => decide (m = .picTaking)
  | .snapshotDone => decide (m = .previewPicTaking) && env.retroPicture
  | evt => isApi evt

/-- The calls that an event answers while it is handled. -/
def answersTo (m : SmState) (env : SmEnv) (evt : SmEvt) : List SmEvt :=
  bif hears m env evt then [evt] else []

/-- **The routine step**: `new` is answered, and nothing begins that is answered later. -/
def Plain (s t : QCameraStateMachine) (new : List SmEvt) : Prop :=
  t.answered = s.answered ++ new ∧ (t.mState = .prepareSnapshot → s.mState = .prepareSnapshot)

theorem Plain.skip (s : QCameraStateMachine) : Plain s s [] := ⟨(append_nil _).symm, id⟩

theorem Plain.params (s : QCameraStateMachine) (env : SmEnv) (evt : SmEvt) :
    Plain s (s.answerParams env evt) [evt] := by
  rw [answerParams]
  split
  · exact ⟨map_append, id⟩
  · exact ⟨map_append, id⟩

/-- An answer after calls to the interface. -/
theorem Plain.answer {u : QCameraStateMachine} {rc : ℤ} (hanswered : u.answered = s.answered)
    (hstate : u.mState = .prepareSnapshot → s.mState = .prepareSnapshot) :
    Plain s (u.answer evt rc) [evt] :=
  ⟨hanswered ▸ map_append, hstate⟩

theorem plain_prepareFromStopped (s : QCameraStateMachine) (env : SmEnv) (evt : SmEvt) :
    Plain s (s.prepareFromStopped env evt) [evt] := by
  obtain ⟨rc, p, heq, -, -⟩ := s.preparePreview_cases env 0
  rw [prepareFromStopped, heq]
  dsimp only
  split
  · exact .answer rfl (by rintro ⟨⟩)
  · exact .answer rfl id

theorem plain_startFromStopped (s : QCameraStateMachine) (env : SmEnv) (evt : SmEvt) :
    Plain s (s.startFromStopped env evt) [evt] := by
  obtain ⟨rc, p, heq, -, -⟩ := s.restart_cases env 0
  rw [startFromStopped, heq]
  dsimp only
  split
  · exact .answer rfl (by rintro ⟨⟩)
  · exact .answer rfl id

theorem plain_stopped (s : QCameraStateMachine) (env : SmEnv) (evt : SmEvt) :
    Plain s (s.procEvtPreviewStoppedState env evt) (answersTo .previewStopped env evt) := by
  cases evt with
  | preparePreview =>
    simp only [procEvtPreviewStoppedState]
    split
    · exact .answer rfl id
    · exact plain_prepareFromStopped ..
  | startPreview =>
    simp only [procEvtPreviewStoppedState]
    split
    · exact .answer rfl id
    · split
      · exact plain_prepareFromStopped ..
      · exact plain_startFromStopped ..
  | startNodisplayPreview =>
    simp only [procEvtPreviewStoppedState]
    split
    · exact .answer rfl id
    · exact plain_startFromStopped ..
  | getParams => exact .params ..
  | thermalNotify | evtNotify | snapshotDone | evtInternal | jpegEvtNotify | stopCaptureChannel
  | restartPreview | delayedRestart | sendCommandRestart => exact .skip s
  | _ => exact ⟨map_append, id⟩

theorem startFromReady_book (s : QCameraStateMachine) (env : SmEnv) : (s.startFromReady env).2.answered = s.answered ∧
      (s.startFromReady env).2.mState ≠ .prepareSnapshot := by
  obtain ⟨rc, t, heq, hrc, -⟩ := s.startFromReady_cases env
  rw [heq]
  rcases hrc with ⟨-, rfl⟩ | ⟨-, rfl⟩
  · exact ⟨rfl, nofun⟩
  · exact ⟨rfl, nofun⟩

theorem plain_ready (s : QCameraStateMachine) (env : SmEnv) (evt : SmEvt) :
    Plain s (s.procEvtPreviewReadyState env evt) (answersTo .previewReady env evt) := by
  obtain ⟨hanswered, hstate⟩ := s.startFromReady_book env
  cases evt with
  | setPreviewWindow =>
    obtain ⟨hanswered, hstate⟩ := startFromReady_book { s with previewWindow := env.window } env
    simp only [procEvtPreviewReadyState]
    split
    · exact .answer hanswered fun h => absurd h hstate
    · exact .answer rfl id
  | setParamsRestart =>
    obtain ⟨rc, p, heq, -, -⟩ := s.preparePreview_cases env 0
    simp only [procEvtPreviewReadyState, heq]
    split
    · exact .answer rfl (by rintro ⟨⟩)
    · exact .answer rfl id
  | startNodisplayPreview => exact .answer hanswered fun h => absurd h hstate
  | startPreview =>
    simp only [procEvtPreviewReadyState]
    split
    · exact .answer hanswered fun h => absurd h hstate
    · exact .answer rfl id
  | stopPreview => exact .answer rfl (by rintro ⟨⟩)
  | getParams => exact .params ..
  | evtNotify | snapshotDone | evtInternal | jpegEvtNotify | thermalNotify | stopCaptureChannel
  | restartPreview | delayedRestart | sendCommandRestart => exact .skip s
  | _ => exact ⟨map_append, id⟩

theorem parentPreStartRecording_eq (s : QCameraStateMachine) (env : SmEnv) :
    ∃ rc p, s.parentPreStartRecording env = (rc, { s with preview := p }) := by
  rw [parentPreStartRecording]
  split
  · obtain ⟨rc, p, heq, -, -⟩ := s.stopPreview.restartOnly_cases env 0
    exact ⟨rc, p, heq⟩
  · exact ⟨_, s.preview, rfl⟩

theorem parentPreTakePicture_eq (s : QCameraStateMachine) (env : SmEnv) :
    ∃ rc p, s.parentPreTakePicture env = (rc, { s with preview := p }) := by
  rw [parentPreTakePicture]
  split
  · obtain ⟨rc, p, heq, -, -⟩ := s.stopPreview.restart_cases env 0
    exact ⟨rc, p, heq⟩
  · exact ⟨_, s.preview, rfl⟩

/-- `m_parent->takePicture` goes well. -/
def Takes (env : SmEnv) : Prop := env.configureAdvancedCapture = 0 ∧ env.rc = 0

theorem parentTakePicture_cases (s : QCameraStateMachine) (env : SmEnv) (zslMode : Bool) : ∃ rc p,
    s.parentTakePicture env zslMode = (rc, { s with preview := p }) ∧ (rc = 0 ↔ Takes env) := by
  rw [parentTakePicture]
  split
  · rename_i hconfig
    exact ⟨_, s.preview, rfl, fun h => absurd h hconfig, fun h => absurd h.1 hconfig⟩
  · rename_i hconfig
    have hiff : env.rc = 0 ↔ Takes env := ⟨fun h => ⟨not_not.mp hconfig, h⟩, fun h => h.2⟩
    split
    · exact ⟨_, s.preview, rfl, hiff⟩
    · exact ⟨_, _, rfl, hiff⟩

/-- `TAKE_PICTURE` is answered by a later event. -/
def TakesLater (env : SmEnv) : Prop :=
  (env.zslMode = true ∨ env.longshotEnabled = true) ∧ env.retroPicture = true ∧ Takes env

/-- The preview is left while the picture is taken. -/
def leavesPreview (env : SmEnv) : Bool := env.previewRestartEnabled && env.manualCapture3

theorem hinted_answered (s : QCameraStateMachine) (env : SmEnv) :
    (if env.recordingHint then (s.stopPreview.restart env 0).2 else s).answered = s.answered := by
  obtain ⟨rc, p, heq, -, -⟩ := s.stopPreview.restart_cases env 0
  split
  · rw [heq]
    rfl
  · rfl

theorem takePicture_later (s : QCameraStateMachine) (h : TakesLater env) :
    (s.takePictureFromPreviewing env).answered = s.answered ∧
      (leavesPreview env = false → (s.takePictureFromPreviewing env).mState = .previewPicTaking) := by
  obtain ⟨hzsl, hretro, htakes⟩ := h
  have hbook := s.hinted_answered env
  rw [takePictureFromPreviewing]
  generalize (if env.recordingHint then (s.stopPreview.restart env 0).2 else s) = u at hbook
  simp only [if_pos hzsl, hretro]
  cases hleaves : leavesPreview env <;> rw [leavesPreview] at hleaves
  · obtain ⟨rc, p, heq, hrc⟩ :=
      (u.goto .previewPicTaking).parentTakePicture_cases env env.zslMode
    simp only [hleaves, heq, hrc.mpr htakes, Bool.not_false, Bool.and_true, Bool.false_eq_true, if_false,
      ne_eq, not_true_eq_false, or_false, reduceCtorEq]
    exact ⟨hbook, fun _ => rfl⟩
  · obtain ⟨rc, p, heq, hrc⟩ :=
      (u.stopPreview.goto .picTaking).parentTakePicture_cases env false
    simp only [hleaves, heq, hrc.mpr htakes, Bool.not_true, Bool.and_false, if_true, if_false, ne_eq,
      not_true_eq_false, or_false, reduceCtorEq]
    exact ⟨hbook, by rintro ⟨⟩⟩

theorem plain_takePicture (s : QCameraStateMachine) (h : ¬ TakesLater env) :
    Plain s (s.takePictureFromPreviewing env) [.takePicture] := by
  have hbook := s.hinted_answered env
  rw [takePictureFromPreviewing]
  generalize (if env.recordingHint then (s.stopPreview.restart env 0).2 else s) = u at hbook
  dsimp only
  split
  · rename_i hzsl
    obtain ⟨v, hv, hvbook, hvstate⟩ : ∃ v, (if (env.previewRestartEnabled && env.manualCapture3) = true
        then u.stopPreview.goto .picTaking else u.goto .previewPicTaking) = v ∧
        v.answered = s.answered ∧ v.mState ≠ .prepareSnapshot := by
      refine ⟨_, rfl, ?_⟩
      split
      · exact ⟨hbook, by rintro ⟨⟩⟩
      · exact ⟨hbook, by rintro ⟨⟩⟩
    rw [hv]
    obtain ⟨rc, p, heq, hrc⟩ := v.parentTakePicture_cases env
      (env.zslMode && !(env.previewRestartEnabled && env.manualCapture3))
    simp only [heq]
    by_cases hzero : rc = 0
    · have hretro : env.retroPicture = false := by
        cases hretro : env.retroPicture with
        | false => rfl
        | true => exact absurd ⟨hzsl, hretro, hrc.mp hzero⟩ h
      simp only [hzero, hretro, ne_eq, not_true_eq_false, if_false, true_or, if_true]
      exact .answer hvbook fun hm => absurd hm hvstate
    · simp only [ne_eq, hzero, not_false_eq_true, or_true, if_true]
      exact .answer hvbook (by rintro ⟨⟩)
  · obtain ⟨rc, p, heq, -⟩ := (u.goto .picTaking).parentTakePicture_cases env false
    simp only [heq]
    split
    · obtain ⟨tempRc, p, heq, -, -⟩ :=
        (stopPreview { u.goto .picTaking with preview := p }).restart_cases env 1
      rw [heq]
      dsimp only
      split
      · exact .answer hbook (by rintro ⟨⟩)
      · exact .answer hbook (by rintro ⟨⟩)
    · exact .answer hbook (by rintro ⟨⟩)

theorem plain_sendCommand (s : QCameraStateMachine) (env : SmEnv) :
    Plain s (s.sendCommandFromPreviewing env) [.sendCommand] := by
  rw [sendCommandFromPreviewing]
  dsimp only
  split
  · split
    · obtain ⟨rc, p, heq, -, -⟩ := restart_cases (stopPreview
        { s with previewNeedsRestart := env.arg1Restart, previewDelayedRestart := env.arg2Delayed }) env 0
      rw [heq]
      exact .answer rfl id
    · exact .answer rfl id
  · exact .answer rfl id

theorem plain_sendCommandRestart (s : QCameraStateMachine) (env : SmEnv) :
    Plain s (s.sendCommandRestartFromPreviewing env) [.sendCommandRestart] := by
  obtain ⟨rc, p, heq, -, -⟩ := s.restart_cases env 0
  rw [sendCommandRestartFromPreviewing, heq]
  split
  · exact .answer rfl id
  · exact .answer rfl id

theorem plain_previewing (s : QCameraStateMachine) (env : SmEnv) (evt : SmEvt)
    (hsnapshot : evt = .prepareSnapshot → env.rc ≠ 0) (hpicture : evt = .takePicture → ¬ TakesLater env) :
    Plain s (s.procEvtPreviewingState env evt) (answersTo .previewing env evt) := by
  cases evt with
  | setParamsRestart =>
    obtain ⟨rc, p, heq, -, -⟩ := s.preparePreview_cases env 0
    simp only [procEvtPreviewingState, heq]
    split
    · obtain ⟨rc, p, heq, -, -⟩ := startPreview_cases { s with preview := p } env 0
      simp only [heq]
      split
      · exact .answer rfl (by rintro ⟨⟩)
      · exact .answer rfl id
    · exact .answer rfl id
  | stopPreview => exact .answer rfl (by rintro ⟨⟩)
  | preStartRecording =>
    obtain ⟨rc, p, heq⟩ := s.parentPreStartRecording_eq env
    simp only [procEvtPreviewingState, heq]
    exact .answer rfl id
  | startRecording =>
    simp only [procEvtPreviewingState]
    split
    · exact .answer rfl (by rintro ⟨⟩)
    · exact .answer rfl id
  | prepareSnapshot =>
    simp only [procEvtPreviewingState, if_neg (hsnapshot rfl)]
    exact .answer rfl id
  | preTakePicture =>
    obtain ⟨rc, p, heq⟩ := s.parentPreTakePicture_eq env
    simp only [procEvtPreviewingState, heq]
    exact .answer rfl id
  | takePicture => exact s.plain_takePicture (hpicture rfl)
  | sendCommand => exact s.plain_sendCommand env
  | sendCommandRestart => exact s.plain_sendCommandRestart env
  | restartStartPreview =>
    obtain ⟨rc, p, heq, -, -⟩ := s.restartOnly_cases env 0
    simp only [procEvtPreviewingState, heq]
    exact .answer rfl id
  | getParams => exact .params ..
  | evtInternal | evtNotify | thermalNotify | snapshotDone | jpegEvtNotify | stopCaptureChannel
  | restartPreview | delayedRestart => exact .skip s
  | _ => exact ⟨map_append, id⟩

theorem plain_prepareSnapshot (s : QCameraStateMachine) (env : SmEnv) (evt : SmEvt)
    (hdone : evt = .evtInternal → env.internal ≠ .prepSnapshotDone)
    (hdied : evt = .evtNotify → env.server ≠ .daemonDied) :
    (s.procEvtPrepareSnapshotState env evt).answered = s.answered ++ answersTo .prepareSnapshot env evt ∧
      (s.procEvtPrepareSnapshotState env evt).mState = s.mState := by
  cases evt with
  | evtInternal =>
    simp only [procEvtPrepareSnapshotState]
    split
    · rename_i hinternal
      exact absurd hinternal (hdone rfl)
    all_goals exact ⟨(append_nil _).symm, rfl⟩
  | evtNotify =>
    simp only [procEvtPrepareSnapshotState, answerDaemonDied]
    split
    · rename_i hserver
      exact absurd hserver (hdied rfl)
    all_goals exact ⟨(append_nil _).symm, rfl⟩
  | snapshotDone | thermalNotify | jpegEvtNotify | regFaceImage | stopCaptureChannel | restartPreview
  | delayedRestart | sendCommandRestart => exact ⟨(append_nil _).symm, rfl⟩
  | _ => exact ⟨map_append, rfl⟩

theorem plain_picTaking (s : QCameraStateMachine) (env : SmEnv) (evt : SmEvt)
    (hdied : evt = .evtNotify → env.server ≠ .daemonDied) :
    Plain s (s.procEvtPicTakingState env evt) (answersTo .picTaking env evt) := by
  obtain ⟨rc, p, heq, -, -⟩ := s.restartOnly_cases env 0
  cases evt with
  | stopPreview => exact .answer rfl (by rintro ⟨⟩)
  | cancelPicture => exact .answer rfl (by rintro ⟨⟩)
  | sendCommand =>
    simp only [procEvtPicTakingState]
    split
    · exact .answer rfl (by rintro ⟨⟩)
    · exact .answer rfl id
  | stopCaptureChannel =>
    simp only [procEvtPicTakingState, heq]
    split
    · exact .answer rfl id
    · exact .answer rfl id
  | snapshotDone =>
    simp only [procEvtPicTakingState, heq]
    split
    · split
      · exact ⟨(append_nil _).symm, by rintro ⟨⟩⟩
      · exact ⟨(append_nil _).symm, by rintro ⟨⟩⟩
    · exact ⟨(append_nil _).symm, by rintro ⟨⟩⟩
  | evtNotify =>
    simp only [procEvtPicTakingState, answerDaemonDied]
    split
    · rename_i hserver
      exact absurd hserver (hdied rfl)
    all_goals exact .skip s
  | getParams => exact .params ..
  | evtInternal | jpegEvtNotify | thermalNotify | restartPreview | delayedRestart
  | sendCommandRestart => exact .skip s
  | _ => exact ⟨map_append, id⟩

theorem plain_recording (s : QCameraStateMachine) (env : SmEnv) (evt : SmEvt) :
    Plain s (s.procEvtRecordingState env evt) (answersTo .recording env evt) := by
  cases evt with
  | takePicture =>
    simp only [procEvtRecordingState]
    split
    · exact .answer rfl id
    · exact .answer rfl (by rintro ⟨⟩)
  | stopRecording => exact .answer rfl (by rintro ⟨⟩)
  | stopPreview => exact .answer rfl (by rintro ⟨⟩)
  | getParams => exact .params ..
  | evtInternal | evtNotify | thermalNotify | snapshotDone | jpegEvtNotify | stopCaptureChannel
  | restartPreview | delayedRestart | sendCommandRestart => exact .skip s
  | _ => exact ⟨map_append, id⟩

theorem plain_videoPicTaking (s : QCameraStateMachine) (env : SmEnv) (evt : SmEvt) :
    Plain s (s.procEvtVideoPicTakingState env evt) (answersTo .videoPicTaking env evt) := by
  cases evt with
  | stopRecording => exact .answer rfl nofun
  | cancelPicture => exact .answer rfl nofun
  | stopPreview => exact .answer rfl nofun
  | snapshotDone => exact ⟨(append_nil _).symm, nofun⟩
  | getParams => exact .params ..
  | evtInternal | evtNotify | jpegEvtNotify | thermalNotify | stopCaptureChannel | restartPreview
  | delayedRestart | sendCommandRestart => exact .skip s
  | _ => exact ⟨map_append, id⟩

/-- The picture that is taken while the preview is on comes to its end. -/
def Leaves (s : QCameraStateMachine) (env : SmEnv) : SmEvt → Prop
  | .setParamsRestart => ¬ (s.preview = .idle ∧ CanRestart env 0)
  | .sendCommand => env.cmd = .longshotOff
  | .cancelPicture | .stopPreview | .snapshotDone => True
  | .startRecording => env.zslMode = false ∧ env.longshotEnabled = false ∧ env.rc = 0
  | _ => False

/-- The routine step while a picture is taken in the preview. -/
def PlainThere (s t : QCameraStateMachine) (env : SmEnv) (evt : SmEvt) : Prop :=
  Plain s t (answersTo .previewPicTaking env evt) ∧ (¬ s.Leaves env evt → t.mState = s.mState)

theorem plain_previewPicTaking (s : QCameraStateMachine) (env : SmEnv) (evt : SmEvt)
    (hinternal : evt ≠ .evtInternal) (hdied : evt = .evtNotify → env.server ≠ .daemonDied)
    (hsnapshot : evt = .prepareSnapshot → env.retroPicture = true → env.rc ≠ 0) :
    PlainThere s (s.procEvtPreviewPicTakingState env evt) env evt := by
  cases evt with
  | setParamsRestart =>
    obtain ⟨rc, p, heq, -, hok⟩ := s.restart_cases env 0
    simp only [procEvtPreviewPicTakingState, heq]
    split
    · rename_i hne
      exact ⟨.answer rfl (by rintro ⟨⟩), fun hstays => absurd (fun h => hne (hok h.1 h.2)) hstays⟩
    · exact ⟨.answer rfl id, fun _ => rfl⟩
  | sendCommand =>
    simp only [procEvtPreviewPicTakingState]
    split
    · rename_i hoff
      exact ⟨.answer rfl (by rintro ⟨⟩), fun hstays => absurd hoff hstays⟩
    · exact ⟨.answer rfl id, fun _ => rfl⟩
  | cancelPicture => exact ⟨.answer rfl (by rintro ⟨⟩), fun hstays => absurd trivial hstays⟩
  | stopPreview => exact ⟨.answer rfl (by rintro ⟨⟩), fun hstays => absurd trivial hstays⟩
  | preStartRecording =>
    obtain ⟨rc, p, heq⟩ := s.parentPreStartRecording_eq env
    simp only [procEvtPreviewPicTakingState, heq]
    split
    · exact ⟨.answer rfl id, fun _ => rfl⟩
    · exact ⟨.answer rfl id, fun _ => rfl⟩
  | startRecording =>
    simp only [procEvtPreviewPicTakingState]
    split
    · exact ⟨.answer rfl id, fun _ => rfl⟩
    · rename_i hlive
      rw [not_or, Bool.not_eq_true, Bool.not_eq_true] at hlive
      split
      · rename_i hrc
        exact ⟨.answer rfl (by rintro ⟨⟩), fun hstays => absurd ⟨hlive.1, hlive.2, hrc⟩ hstays⟩
      · exact ⟨.answer rfl id, fun _ => rfl⟩
  | prepareSnapshot =>
    simp only [procEvtPreviewPicTakingState]
    split
    · rename_i hretro
      rw [if_pos (hsnapshot rfl hretro)]
      exact ⟨.answer rfl id, fun _ => rfl⟩
    · exact ⟨.answer rfl id, fun _ => rfl⟩
  | evtInternal => exact absurd rfl hinternal
  | evtNotify =>
    simp only [procEvtPreviewPicTakingState, answerDaemonDied]
    split
    · rename_i hserver
      exact absurd hserver (hdied rfl)
    all_goals exact ⟨.skip s, fun _ => rfl⟩
  | snapshotDone =>
    simp only [procEvtPreviewPicTakingState]
    cases hretro : env.retroPicture with
    | false =>
      refine ⟨⟨?_, by rintro ⟨⟩⟩, fun hstays => absurd trivial hstays⟩
      simp [answersTo, hears, hretro, answered, goto]
    | true =>
      refine ⟨⟨?_, by rintro ⟨⟩⟩, fun hstays => absurd trivial hstays⟩
      simp [answersTo, hears, hretro, answered, goto, answer, signalAPIResult]
  | restartStartPreview =>
    obtain ⟨rc, p, heq, -, -⟩ := s.restartOnly_cases env 0
    simp only [procEvtPreviewPicTakingState, heq]
    exact ⟨.answer rfl id, fun _ => rfl⟩
  | getParams =>
    refine ⟨.params .., fun _ => ?_⟩
    simp only [procEvtPreviewPicTakingState, answerParams]
    split <;> rfl
  | jpegEvtNotify | thermalNotify | stopCaptureChannel | restartPreview | delayedRestart
  | sendCommandRestart => exact ⟨.skip s, fun _ => rfl⟩
  | _ => exact ⟨⟨map_append, id⟩, fun _ => rfl⟩

/-! ### Answers by internal events -/

/-- The calls that an internal event answers. -/
def answersLater (m : SmState) (env : SmEnv) (evt : SmEvt) : List SmEvt :=
  match m, evt with
  | .prepareSnapshot, .evtInternal =>
    if env.internal = .prepSnapshotDone then [.prepareSnapshot] else []
  | .previewPicTaking, .evtInternal =>
    if env.retroPicture = false then []
    else if env.internal = .prepSnapshotDone then [.prepareSnapshot]
    else if env.internal = .readyForSnapshot then [.takePicture]
    else []
  | .prepareSnapshot, .evtNotify | .picTaking, .evtNotify | .previewPicTaking, .evtNotify =>
    if env.server = .daemonDied then [.prepareSnapshot, .takePicture] else []
  | _, _ => []

theorem mem_answersLater {m : SmState} {call : SmEvt} (h : call ∈ answersLater m env evt) :
    call = .prepareSnapshot ∨ call = .takePicture := by
  unfold answersLater at h
  split at h
  · split at h
    · exact .inl (mem_singleton.mp h)
    · cases h
  · split at h
    · cases h
    · split at h
      · exact .inl (mem_singleton.mp h)
      · split at h
        · exact .inr (mem_singleton.mp h)
        · cases h
  case h_6 => cases h
  all_goals
    split at h
    · simpa using h
    · cases h

theorem answered_evtInternal (s : QCameraStateMachine) (env : SmEnv) : (s.stateMachine env .evtInternal).answered =
        s.answered ++ answersLater s.mState env .evtInternal ∧
      (s.stateMachine env .evtInternal).mState =
        if s.mState = .prepareSnapshot ∧ env.internal = .prepSnapshotDone then .previewing
        else s.mState := by
  rw [stateMachine]
  cases hm : s.mState with
  | prepareSnapshot =>
    simp only [procEvtPrepareSnapshotState, answersLater]
    cases env.internal with
    | prepSnapshotDone => exact ⟨map_append, rfl⟩
    | _ => exact ⟨(append_nil _).symm, hm⟩
  | previewPicTaking =>
    simp only [procEvtPreviewPicTakingState, answersLater]
    cases env.retroPicture with
    | false => cases env.internal <;> exact ⟨(append_nil _).symm, hm⟩
    | true =>
      cases env.internal with
      | prepSnapshotDone => exact ⟨map_append, hm⟩
      | readyForSnapshot => exact ⟨map_append, hm⟩
      | _ => exact ⟨(append_nil _).symm, hm⟩
  | _ => exact ⟨(append_nil _).symm, hm⟩

theorem answered_daemonDied (s : QCameraStateMachine) (env : SmEnv) : (s.answerDaemonDied env).answered = s.answered ++
        (if env.server = .daemonDied then [.prepareSnapshot, .takePicture] else []) ∧
      (s.answerDaemonDied env).mState = s.mState := by
  rw [answerDaemonDied]
  cases env.server with
  | daemonDied => exact ⟨by simp [answered, answer, signalAPIResult], rfl⟩
  | _ => exact ⟨(append_nil _).symm, rfl⟩

theorem answered_evtNotify (s : QCameraStateMachine) (env : SmEnv) :
    (s.stateMachine env .evtNotify).answered = s.answered ++ answersLater s.mState env .evtNotify ∧
      (s.stateMachine env .evtNotify).mState = s.mState := by
  rw [stateMachine]
  cases hm : s.mState with
  | prepareSnapshot | picTaking | previewPicTaking =>
    obtain ⟨hanswered, hstate⟩ := s.answered_daemonDied env
    exact ⟨hanswered, hstate.trans hm⟩
  | _ => exact ⟨(append_nil _).symm, hm⟩

/-- An internal event would answer the call. -/
def Answerable (s : QCameraStateMachine) (evt : SmEvt) : Prop :=
  ∃ env, (s.stateMachine env .evtInternal).answered = s.answered ++ [evt]

theorem answerable_prepareSnapshot (hm : s.mState = .prepareSnapshot ∨ s.mState = .previewPicTaking) :
    s.Answerable .prepareSnapshot := by
  refine ⟨{ internal := .prepSnapshotDone, retroPicture := true }, ?_⟩
  rw [(s.answered_evtInternal _).1]
  rcases hm with hm | hm <;> rw [hm] <;> rfl

theorem answerable_takePicture (hm : s.mState = .previewPicTaking) : s.Answerable .takePicture := by
  refine ⟨{ internal := .readyForSnapshot, retroPicture := true }, ?_⟩
  rw [(s.answered_evtInternal _).1, hm]
  rfl

end QCameraStateMachine

/-! ### Calls and answers -/

/-- An event that is posted, as an API call or as an internal event. -/
structure ApiInput where
  api : Bool
  evt : SmEvt
  env : SmEnv := {}

/-- API calls are API events; `SNAPSHOT_DONE` is an internal event too. -/
def ApiInput.posted (a : ApiInput) : Bool :=
  bif a.api then QCameraStateMachine.isApi a.evt
  else !QCameraStateMachine.isApi a.evt || decide (a.evt = .snapshotDone)

/-- The state machine, with the calls so far. -/
structure ApiRun where
  sm : QCameraStateMachine := {}
  calls : List SmEvt := []

namespace ApiRun

open QCameraStateMachine

/-- One event. -/
def next (c : ApiRun) (a : ApiInput) : Option ApiRun :=
  if a.posted then
    some ⟨c.sm.stateMachine a.env a.evt, c.calls ++ bif a.api then [a.evt] else []⟩
  else none

/-- The calls that wait for their answer. -/
def pending (c : ApiRun) (evt : SmEvt) : ℕ := c.calls.count evt - c.sm.answered.count evt

/-- No call waits. -/
def Settled (c : ApiRun) : Prop := c.pending .prepareSnapshot = 0 ∧ c.pending .takePicture = 0
deriving Decidable

/-- **The condition**: calls, and only calls, are heard; an internal event answers calls that wait; no
picture leaves the preview with a call that waits. -/
structure Orderly (c : ApiRun) (a : ApiInput) : Prop where
  heard : hears c.sm.mState a.env a.evt = a.api
  owed : ∀ evt ∈ answersLater c.sm.mState a.env a.evt, 0 < c.pending evt
  taken : c.sm.mState = .previewing → a.evt = .takePicture → TakesLater a.env → leavesPreview a.env = false
  settled : c.sm.mState = .previewPicTaking → c.sm.Leaves a.env a.evt → c.Settled

/-- **Every call is answered once**, or waits for an event that will answer it. -/
structure Accounted (c : ApiRun) : Prop where
  once : ∀ evt, c.sm.answered.count evt ≤ c.calls.count evt
  waits : ∀ evt, c.sm.answered.count evt < c.calls.count evt →
    (evt = .prepareSnapshot ∨ evt = .takePicture) ∧ c.sm.Answerable evt

/-- How many calls of a kind wait. -/
def owed (m n : ℕ) : SmEvt → ℕ
  | .prepareSnapshot => m
  | .takePicture => n
  | _ => 0

/-- `m` calls of `PREPARE_SNAPSHOT` and `n` of `TAKE_PICTURE` wait. -/
def Owes (c : ApiRun) (m n : ℕ) : Prop :=
  ∀ evt, c.calls.count evt = c.sm.answered.count evt + owed m n evt

/-- The numbers that a state allows. -/
def Fits (m n : ℕ) : SmState → Prop
  | .prepareSnapshot => m = 1 ∧ n = 0
  | .previewPicTaking => True
  | _ => m = 0 ∧ n = 0

/-- The invariant. -/
def Inv (c : ApiRun) : Prop := ∃ m n, c.Owes m n ∧ Fits m n c.sm.mState

variable {c d : ApiRun} {a : ApiInput} {m n m' n' : ℕ} {t : QCameraStateMachine}

theorem Owes.pending (h : c.Owes m n) (evt : SmEvt) : c.pending evt = owed m n evt := by
  rw [ApiRun.pending, h evt]
  omega

theorem fits_zero {st : SmState} (h : st ≠ .prepareSnapshot) : Fits 0 0 st := by
  cases st with
  | prepareSnapshot => exact absurd rfl h
  | previewPicTaking => exact trivial
  | _ => exact ⟨rfl, rfl⟩

theorem Owes.step {calls new : List SmEvt} (h : c.Owes m n) (hanswered : t.answered = c.sm.answered ++ new)
    (hcount : ∀ evt, calls.count evt + owed m n evt = new.count evt + owed m' n' evt) :
    Owes ⟨t, c.calls ++ calls⟩ m' n' := by
  intro evt
  have hevt := h evt
  have hnew := hcount evt
  rw [hanswered, count_append, count_append]
  omega

theorem Owes.plain (h : c.Owes m n) (hord : c.Orderly a)
    (hanswered : t.answered = c.sm.answered ++ answersTo c.sm.mState a.env a.evt) :
    Owes ⟨t, c.calls ++ bif a.api then [a.evt] else []⟩ m n := by
  rw [answersTo, hord.heard] at hanswered
  exact h.step hanswered fun _ => rfl

theorem Inv.accounted (h : c.Inv) : c.Accounted := by
  obtain ⟨m, n, howes, hfits⟩ := h
  refine ⟨fun evt => ?_, fun evt hlt => ?_⟩
  · rw [howes evt]
    exact Nat.le_add_right _ _
  · have hpos : owed m n evt ≠ 0 := fun hzero => by
      rw [howes evt, hzero] at hlt
      exact Nat.lt_irrefl _ hlt
    cases evt with
    | prepareSnapshot =>
      refine ⟨.inl rfl, answerable_prepareSnapshot ?_⟩
      cases hm : c.sm.mState with
      | prepareSnapshot => exact .inl rfl
      | previewPicTaking => exact .inr rfl
      | _ =>
        rw [hm] at hfits
        exact absurd hfits.1 hpos
    | takePicture =>
      refine ⟨.inr rfl, answerable_takePicture ?_⟩
      cases hm : c.sm.mState with
      | previewPicTaking => rfl
      | _ =>
        rw [hm] at hfits
        exact absurd hfits.2 hpos
    | _ => exact absurd rfl hpos

theorem Inv.of_plain (howes : c.Owes 0 0) (hord : c.Orderly a) (hm : c.sm.mState ≠ .prepareSnapshot)
    (hplain : Plain c.sm t (answersTo c.sm.mState a.env a.evt)) :
    Inv ⟨t, c.calls ++ bif a.api then [a.evt] else []⟩ :=
  ⟨0, 0, howes.plain hord hplain.1, fits_zero fun h => hm (hplain.2 h)⟩

theorem Orderly.daemonDied (hord : c.Orderly a) (howes : c.Owes m n)
    (hm : c.sm.mState = .prepareSnapshot ∨ c.sm.mState = .picTaking ∨ c.sm.mState = .previewPicTaking)
    (hevt : a.evt = .evtNotify) (hdied : a.env.server = .daemonDied) : 0 < m ∧ 0 < n := by
  have hlater : answersLater c.sm.mState a.env a.evt = [.prepareSnapshot, .takePicture] := by
    rcases hm with hm | hm | hm <;> rw [hm, hevt] <;> exact if_pos hdied
  have howed := hord.owed
  rw [hlater] at howed
  constructor
  · have hpending := howed .prepareSnapshot (by decide)
    rwa [howes.pending] at hpending
  · have hpending := howed .takePicture (by decide)
    rwa [howes.pending] at hpending

theorem Inv.internal_prepareSnapshot (howes : c.Owes 1 0) (hm : c.sm.mState = .prepareSnapshot) :
    Inv ⟨c.sm.stateMachine a.env .evtInternal, c.calls ++ []⟩ := by
  obtain ⟨hanswered, hstate⟩ := c.sm.answered_evtInternal a.env
  by_cases hdone : a.env.internal = .prepSnapshotDone
  · have hlater : answersLater c.sm.mState a.env .evtInternal = [.prepareSnapshot] := by
      rw [hm]
      exact if_pos hdone
    rw [hlater] at hanswered
    rw [if_pos ⟨hm, hdone⟩] at hstate
    refine ⟨0, 0, howes.step hanswered fun evt => ?_, hstate ▸ ⟨rfl, rfl⟩⟩
    cases evt <;> rfl
  · have hlater : answersLater c.sm.mState a.env .evtInternal = [] := by
      rw [hm]
      exact if_neg hdone
    rw [hlater] at hanswered
    rw [if_neg fun h => hdone h.2, hm] at hstate
    exact ⟨1, 0, howes.step hanswered fun _ => rfl, hstate ▸ ⟨rfl, rfl⟩⟩

theorem Inv.internal_previewPicTaking (howes : c.Owes m n) (hord : c.Orderly a)
    (hevt : a.evt = .evtInternal) (hm : c.sm.mState = .previewPicTaking) :
    Inv ⟨c.sm.stateMachine a.env .evtInternal, c.calls ++ []⟩ := by
  obtain ⟨hanswered, hstate⟩ := c.sm.answered_evtInternal a.env
  have howed := hord.owed
  rw [hevt] at howed
  have hfits (k l : ℕ) : Fits k l (c.sm.stateMachine a.env .evtInternal).mState := by
    rw [hstate, hm]
    exact trivial
  rcases hlater : answersLater c.sm.mState a.env .evtInternal with _ | ⟨call, _ | ⟨other, rest⟩⟩
  · rw [hlater] at hanswered
    exact ⟨m, n, howes.step hanswered fun _ => rfl, hfits m n⟩
  · rw [hlater] at hanswered howed
    have hpos := howed call (mem_singleton_self _)
    rw [howes.pending] at hpos
    rcases mem_answersLater (hlater ▸ mem_singleton_self call) with rfl | rfl
    · refine ⟨m - 1, n, howes.step hanswered fun evt => ?_, hfits _ _⟩
      cases evt with
      | prepareSnapshot => exact (Nat.zero_add m).trans (Nat.add_sub_cancel' hpos).symm
      | _ => rfl
    · refine ⟨m, n - 1, howes.step hanswered fun evt => ?_, hfits _ _⟩
      cases evt with
      | takePicture => exact (Nat.zero_add n).trans (Nat.add_sub_cancel' hpos).symm
      | _ => rfl
  · -- an internal event answers one call only
    exfalso
    have hlength : (answersLater c.sm.mState a.env .evtInternal).length ≤ 1 := by
      rw [hm]
      simp only [answersLater]
      split_ifs <;> decide
    rw [hlater] at hlength
    simp at hlength

theorem Inv.notify_previewPicTaking (howes : c.Owes m n) (hord : c.Orderly a)
    (hevt : a.evt = .evtNotify) (hm : c.sm.mState = .previewPicTaking) :
    Inv ⟨c.sm.stateMachine a.env .evtNotify, c.calls ++ []⟩ := by
  obtain ⟨hanswered, hstate⟩ := c.sm.answered_evtNotify a.env
  have hfits (k l : ℕ) : Fits k l (c.sm.stateMachine a.env .evtNotify).mState := by
    rw [hstate, hm]
    exact trivial
  by_cases hdied : a.env.server = .daemonDied
  · obtain ⟨hpos, hpos'⟩ := hord.daemonDied howes (.inr (.inr hm)) hevt hdied
    have hlater : answersLater c.sm.mState a.env .evtNotify = [.prepareSnapshot, .takePicture] := by
      rw [hm]
      exact if_pos hdied
    rw [hlater] at hanswered
    refine ⟨m - 1, n - 1, howes.step hanswered fun evt => ?_, hfits _ _⟩
    cases evt with
    | prepareSnapshot => exact (Nat.zero_add m).trans (Nat.add_sub_cancel' hpos).symm
    | takePicture => exact (Nat.zero_add n).trans (Nat.add_sub_cancel' hpos').symm
    | _ => rfl
  · have hlater : answersLater c.sm.mState a.env .evtNotify = [] := by
      rw [hm]
      exact if_neg hdied
    rw [hlater] at hanswered
    exact ⟨m, n, howes.step hanswered fun _ => rfl, hfits m n⟩

theorem Inv.of_previewing (howes : c.Owes 0 0) (hord : c.Orderly a) (hm : c.sm.mState = .previewing) :
    Inv ⟨c.sm.procEvtPreviewingState a.env a.evt, c.calls ++ bif a.api then [a.evt] else []⟩ := by
  by_cases hsnapshot : a.evt = .prepareSnapshot ∧ a.env.rc = 0
  · have hapi : a.api = true := by rw [← hord.heard, hsnapshot.1]; rfl
    rw [hapi, hsnapshot.1]
    simp only [procEvtPreviewingState, if_pos hsnapshot.2, cond_true]
    refine ⟨1, 0, howes.step (append_nil _).symm fun evt => ?_, rfl, rfl⟩
    cases evt <;> rfl
  · by_cases hpicture : a.evt = .takePicture ∧ TakesLater a.env
    · have hapi : a.api = true := by rw [← hord.heard, hpicture.1]; rfl
      obtain ⟨hanswered, hstate⟩ := c.sm.takePicture_later hpicture.2
      have hstays := hstate (hord.taken hm hpicture.1 hpicture.2)
      rw [hapi, hpicture.1, cond_true]
      refine ⟨0, 1, howes.step (hanswered.trans (append_nil _).symm) fun evt => ?_, ?_⟩
      · cases evt <;> rfl
      · have hfits : Fits 0 1 (c.sm.takePictureFromPreviewing a.env).mState := by
          rw [hstays]
          exact trivial
        exact hfits
    · refine Inv.of_plain howes hord (by simp [hm]) ?_
      rw [hm]
      exact c.sm.plain_previewing a.env a.evt (fun hevt hrc => hsnapshot ⟨hevt, hrc⟩)
        fun hevt hlater => hpicture ⟨hevt, hlater⟩

theorem Inv.of_prepareSnapshot (howes : c.Owes 1 0) (hord : c.Orderly a) (hm : c.sm.mState = .prepareSnapshot) :
    Inv ⟨c.sm.stateMachine a.env a.evt, c.calls ++ bif a.api then [a.evt] else []⟩ := by
  by_cases hinternal : a.evt = .evtInternal
  · have hapi : a.api = false := by rw [← hord.heard, hinternal]; rfl
    rw [hapi, hinternal]
    exact Inv.internal_prepareSnapshot howes hm
  · have hdied : a.evt = .evtNotify → a.env.server ≠ .daemonDied := fun hevt hdied =>
      absurd (hord.daemonDied howes (.inl hm) hevt hdied).2 (Nat.lt_irrefl 0)
    obtain ⟨hanswered, hstate⟩ := c.sm.plain_prepareSnapshot a.env a.evt (fun hevt => absurd hevt hinternal) hdied
    have hhandler : c.sm.stateMachine a.env a.evt = c.sm.procEvtPrepareSnapshotState a.env a.evt := by
      rw [stateMachine, hm]
    rw [hhandler]
    refine ⟨1, 0, howes.plain hord (hm ▸ hanswered), ?_⟩
    rw [hstate, hm]
    exact ⟨rfl, rfl⟩

theorem Inv.of_previewPicTaking (howes : c.Owes m n) (hord : c.Orderly a) (hm : c.sm.mState = .previewPicTaking) :
    Inv ⟨c.sm.stateMachine a.env a.evt, c.calls ++ bif a.api then [a.evt] else []⟩ := by
  have hhandler : c.sm.stateMachine a.env a.evt = c.sm.procEvtPreviewPicTakingState a.env a.evt := by
    rw [stateMachine, hm]
  by_cases hinternal : a.evt = .evtInternal
  · have hapi : a.api = false := by rw [← hord.heard, hinternal]; rfl
    rw [hapi, hinternal]
    exact Inv.internal_previewPicTaking howes hord hinternal hm
  by_cases hnotify : a.evt = .evtNotify
  · have hapi : a.api = false := by rw [← hord.heard, hnotify]; rfl
    rw [hapi, hnotify]
    exact Inv.notify_previewPicTaking howes hord hnotify hm
  by_cases hsnapshot : a.evt = .prepareSnapshot ∧ a.env.retroPicture = true ∧ a.env.rc = 0
  · obtain ⟨hevt, hretro, hrc⟩ := hsnapshot
    have hapi : a.api = true := by rw [← hord.heard, hevt]; rfl
    rw [hhandler, hapi, hevt]
    simp only [procEvtPreviewPicTakingState, if_pos hretro, hrc, ne_eq, not_true_eq_false, if_false, cond_true]
    refine ⟨m + 1, n, howes.step (append_nil _).symm fun evt => ?_, ?_⟩
    · cases evt with
      | prepareSnapshot => exact (Nat.add_comm 1 m).trans (Nat.zero_add _).symm
      | _ => rfl
    · rw [hm]
      exact trivial
  · obtain ⟨hplain, hstays⟩ := c.sm.plain_previewPicTaking a.env a.evt hinternal
      (fun hevt => absurd hevt hnotify) fun hevt hretro hrc => hsnapshot ⟨hevt, hretro, hrc⟩
    rw [hhandler]
    by_cases hleaves : c.sm.Leaves a.env a.evt
    · obtain ⟨hnone, hnone'⟩ := hord.settled hm hleaves
      rw [howes.pending] at hnone hnone'
      obtain rfl : m = 0 := hnone
      obtain rfl : n = 0 := hnone'
      exact Inv.of_plain howes hord (by simp [hm]) (hm ▸ hplain)
    · refine ⟨m, n, howes.plain hord (hm ▸ hplain.1), ?_⟩
      rw [hstays hleaves, hm]
      exact trivial

theorem Inv.next (h : c.Inv) (hord : c.Orderly a) (hstep : fires ApiRun.next c a d) : d.Inv := by
  obtain ⟨m, n, howes, hfits⟩ := h
  obtain rfl : ApiRun.mk (c.sm.stateMachine a.env a.evt) (c.calls ++ bif a.api then [a.evt] else []) = d := by
    rw [fires, ApiRun.next] at hstep
    split at hstep
    · exact Option.some.inj hstep
    · cases hstep
  cases hm : c.sm.mState with
  | prepareSnapshot =>
    rw [hm] at hfits
    obtain ⟨rfl, rfl⟩ := hfits
    exact Inv.of_prepareSnapshot howes hord hm
  | previewPicTaking => exact Inv.of_previewPicTaking howes hord hm
  | previewing =>
    rw [hm] at hfits
    obtain ⟨rfl, rfl⟩ := hfits
    rw [stateMachine, hm]
    exact Inv.of_previewing howes hord hm
  | picTaking =>
    rw [hm] at hfits
    obtain ⟨rfl, rfl⟩ := hfits
    have hdied : a.evt = .evtNotify → a.env.server ≠ .daemonDied := fun hevt hdied =>
      absurd (hord.daemonDied howes (.inr (.inl hm)) hevt hdied).2 (Nat.lt_irrefl 0)
    refine Inv.of_plain howes hord (by simp [hm]) ?_
    rw [stateMachine, hm]
    exact c.sm.plain_picTaking a.env a.evt hdied
  | previewStopped =>
    rw [hm] at hfits
    obtain ⟨rfl, rfl⟩ := hfits
    refine Inv.of_plain howes hord (by simp [hm]) ?_
    rw [stateMachine, hm]
    exact c.sm.plain_stopped a.env a.evt
  | previewReady =>
    rw [hm] at hfits
    obtain ⟨rfl, rfl⟩ := hfits
    refine Inv.of_plain howes hord (by simp [hm]) ?_
    rw [stateMachine, hm]
    exact c.sm.plain_ready a.env a.evt
  | recording =>
    rw [hm] at hfits
    obtain ⟨rfl, rfl⟩ := hfits
    refine Inv.of_plain howes hord (by simp [hm]) ?_
    rw [stateMachine, hm]
    exact c.sm.plain_recording a.env a.evt
  | videoPicTaking =>
    rw [hm] at hfits
    obtain ⟨rfl, rfl⟩ := hfits
    refine Inv.of_plain howes hord (by simp [hm]) ?_
    rw [stateMachine, hm]
    exact c.sm.plain_videoPicTaking a.env a.evt

/-- **Every call is accounted for** in every run from the start whose events come in order: it is answered
once, while it is handled or later, and a call that waits is never forgotten. -/
theorem calls_answered_run {as : List ApiInput} (h : Run (guarded Orderly (fires ApiRun.next)) {} as c) :
    c.Accounted := by
  have hstart : Inv {} := ⟨0, 0, fun evt => by cases evt <;> rfl, ⟨rfl, rfl⟩⟩
  have hinv : c.Inv := h.invariant (fun _ _ _ hc hstep => hc.next hstep.1 hstep.2) hstart
  exact hinv.accounted

instance (env : SmEnv) : Decidable (TakesLater env) :=
  inferInstanceAs (Decidable (_ ∧ _ ∧ _ ∧ _))

instance (s : QCameraStateMachine) (env : SmEnv) (evt : SmEvt) : Decidable (s.Leaves env evt) := by
  unfold Leaves
  split <;> infer_instance

instance (c : ApiRun) : DecidablePred c.Orderly := fun a =>
  decidable_of_iff (hears c.sm.mState a.env a.evt = a.api ∧
      (∀ evt ∈ answersLater c.sm.mState a.env a.evt, 0 < c.pending evt) ∧
      (c.sm.mState = .previewing → a.evt = .takePicture → TakesLater a.env → leavesPreview a.env = false) ∧
      (c.sm.mState = .previewPicTaking → c.sm.Leaves a.env a.evt → c.Settled))
    ⟨fun ⟨heard, owed, taken, settled⟩ => ⟨heard, owed, taken, settled⟩,
      fun ⟨heard, owed, taken, settled⟩ => ⟨heard, owed, taken, settled⟩⟩

/-- A retro picture. -/
def retro (internal : InternalEvt) : SmEnv where
  zslMode := true
  retroPicture := true
  internal := internal

/-- A picture is prepared from the preview; a retro picture is prepared while it is taken, and waits. -/
def retroSession : List ApiInput :=
  [⟨true, .startNodisplayPreview, {}⟩, ⟨true, .prepareSnapshot, {}⟩,
    ⟨false, .evtInternal, retro .prepSnapshotDone⟩, ⟨true, .takePicture, retro .focusUpdate⟩,
    ⟨true, .prepareSnapshot, retro .focusUpdate⟩, ⟨false, .evtInternal, retro .prepSnapshotDone⟩]

theorem answered_session : ∃ c, Run (guarded Orderly (fires ApiRun.next)) {} retroSession c ∧
      (c.sm.answered = [.startNodisplayPreview, .prepareSnapshot, .prepareSnapshot] ∧
        c.pending .takePicture = 1) ∧ c.Accounted :=
  (exists_run (by decide +kernel)).imp fun _ h => ⟨h.1, h.2, calls_answered_run h.1⟩

/-- A face image that is registered while a picture is prepared is not answered. -/
theorem ignored_call : ∃ c, Run (fires ApiRun.next) {}
      [⟨true, .startNodisplayPreview, {}⟩, ⟨true, .prepareSnapshot, {}⟩, ⟨true, .regFaceImage, {}⟩] c ∧
      .regFaceImage ∈ c.calls ∧ .regFaceImage ∉ c.sm.answered ∧ ¬ c.Accounted := by
  refine (exists_run_fires (P := fun c => .regFaceImage ∈ c.calls ∧ .regFaceImage ∉ c.sm.answered)
    (by decide +kernel)).imp fun c h => ⟨h.1, h.2.1, h.2.2, fun haccounted => ?_⟩
  have hlt : c.sm.answered.count .regFaceImage < c.calls.count .regFaceImage := by
    rw [count_eq_zero.mpr h.2.2]
    exact count_pos_iff.mpr h.2.1
  rcases (haccounted.waits _ hlt).1 with h | h <;> cases h

end ApiRun

end Marlin
