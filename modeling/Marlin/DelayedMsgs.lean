import Marlin.StateMachine
import Marlin.StepLaws

/-!
# Delayed Message Types

While a ZSL snapshot is taken the state machine delays the preview callback: in the previewing state an application
that enables it has it recorded in `m_DelayedMsgs`, and `applyDelayedMsgs` enables what is recorded, at many places.
Only the previewing state knows what is recorded. In the other states disabling the preview callback reaches the
interface alone, and what is recorded comes back later.

## Conventions

* The message types are the bits of a word of 32. `CAMERA_MSG_PREVIEW_FRAME` is one of them, the bit `k`.
* `enableMsgType` and `disableMsgType` of the interface set and clear bits, and succeed.
* A request that is refused, or given up because the deferred initialisation failed, is answered with an error and
  names nothing.
* What the code does not have: the message types whose last request enabled them (`asked`).

## Main results

* `handle_known`: what an event does to the message types that are enabled or held.
* `transparent_iff`: for all runs, when the message types are those that were asked for.
-/

namespace Marlin

open BitVec

namespace DelayedMsgs

/-- `CAMERA_MSG_PREVIEW_FRAME`, the bit `k`. -/
def previewFrame (k : ℕ) : BitVec 32 := BitVec.twoPow 32 k

/-- The message types: those of the interface, and what the state machine knows of the delayed ones. -/
structure Msgs where
  mMsgEnabled : BitVec 32 := 0
  m_bDelayPreviewMsgs : Bool := false
  m_DelayedMsgs : BitVec 32 := 0
  deriving DecidableEq

namespace Msgs

/-- `m_parent->enableMsgType`. -/
def enableMsgType (m : Msgs) (msg_type : BitVec 32) : Msgs := { m with mMsgEnabled := m.mMsgEnabled ||| msg_type }

/-- `m_parent->disableMsgType`. -/
def disableMsgType (m : Msgs) (msg_type : BitVec 32) : Msgs :=
  { m with mMsgEnabled := m.mMsgEnabled &&& ~~~msg_type }

/-- `applyDelayedMsgs`. -/
def applyDelayedMsgs (m : Msgs) : Msgs :=
  if m.m_bDelayPreviewMsgs ∧ m.m_DelayedMsgs ≠ 0 then
    { m.enableMsgType m.m_DelayedMsgs with m_bDelayPreviewMsgs := false, m_DelayedMsgs := 0 }
  else if m.m_bDelayPreviewMsgs then { m with m_bDelayPreviewMsgs := false }
  else m

/-- `ENABLE_MSG_TYPE` in the previewing state. -/
def enablePreviewing (k : ℕ) (m : Msgs) (enable_msgs : BitVec 32) : Msgs :=
  if m.m_bDelayPreviewMsgs ∧ enable_msgs &&& previewFrame k ≠ 0 then
    { m with m_DelayedMsgs := previewFrame k }.enableMsgType (enable_msgs &&& ~~~previewFrame k)
  else m.enableMsgType enable_msgs

/-- `DISABLE_MSG_TYPE` in the previewing state. -/
def disablePreviewing (m : Msgs) (disable_msgs : BitVec 32) : Msgs :=
  let m :=
    if m.m_bDelayPreviewMsgs ∧ m.m_DelayedMsgs ≠ 0 then
      let delayed := m.m_DelayedMsgs &&& ~~~disable_msgs
      { m with
        m_DelayedMsgs := delayed
        m_bDelayPreviewMsgs := if delayed = 0 then false else m.m_bDelayPreviewMsgs }
    else m
  m.disableMsgType disable_msgs

/-- What is held is the preview callback at most, and it is held while it is delayed. -/
structure Held (k : ℕ) (m : Msgs) : Prop where
  held : m.m_DelayedMsgs &&& ~~~previewFrame k = 0
  delayed : m.m_DelayedMsgs ≠ 0 → m.m_bDelayPreviewMsgs = true

/-- The message types that are enabled or held. -/
def known (m : Msgs) : BitVec 32 := m.mMsgEnabled ||| m.m_DelayedMsgs

end Msgs

/-! ### The events -/

/-- Whether the request `ENABLE_MSG_TYPE` or `DISABLE_MSG_TYPE` is carried out. -/
def carriedOut (s : QCameraStateMachine) (env : SmEnv) : Bool :=
  match s.mState with
  | .previewStopped => decide (env.deferredWork = 0)
  | .prepareSnapshot => false
  | .previewReady | .previewing | .picTaking | .recording | .videoPicTaking | .previewPicTaking => true

/-- Whether the event calls `applyDelayedMsgs`. -/
def applies (s : QCameraStateMachine) (env : SmEnv) (evt : SmEvt) : Bool :=
  match s.mState, evt with
  | .previewStopped, .startPreview =>
    decide (env.deferredWork = 0) && s.previewWindow && decide ((s.preparePreview env 0).1 = 0)
  | .previewStopped, .startNodisplayPreview =>
    decide (env.deferredWork = 0) && decide ((s.preparePreview env 0).1 = 0)
  | .previewReady, .setPreviewWindow => env.window
  | .previewing, .setParamsRestart => decide ((s.preparePreview env 0).1 = 0)
  | .previewing, .startPreview | .previewing, .startNodisplayPreview | .previewing, .stopPreview
  | .previewing, .previewEnabled => true
  | .previewing, .startRecording | .previewing, .prepareSnapshot => decide (env.rc = 0)
  | .previewing, .sendCommand =>
    decide (env.cmd = .longshotOn) && env.arg1Restart && !env.arg2Delayed &&
      decide ((s.stopPreview.preparePreview env 0).1 = 0)
  | .picTaking, .stopCaptureChannel =>
    env.previewRestartEnabled && decide (env.rc = 0) && decide ((s.preparePreview env 0).1 = 0)
  | .picTaking, .snapshotDone =>
    env.previewRestartEnabled && env.manualCapture3 && decide ((s.preparePreview env 0).1 = 0)
  | .previewPicTaking, .setParamsRestart => decide ((s.preparePreview env 0).1 = 0)
  | _, _ => false

/-- Whether the event begins to delay the preview callback. -/
def delays (s : QCameraStateMachine) (env : SmEnv) (evt : SmEvt) : Bool :=
  decide (s.mState = .previewing) && decide (evt = .takePicture) && (env.zslMode || env.longshotEnabled)

/-- What an event does to the message types; the payload of a request is `msgs`. -/
def handle (k : ℕ) (s : QCameraStateMachine) (env : SmEnv) (evt : SmEvt) (msgs : BitVec 32) (m : Msgs) : Msgs :=
  match evt with
  | .enableMsgType =>
    if !carriedOut s env then m
    else if s.mState = .previewing then m.enablePreviewing k msgs
    else m.enableMsgType msgs
  | .disableMsgType =>
    if !carriedOut s env then m
    else if s.mState = .previewing then m.disablePreviewing msgs
    else m.disableMsgType msgs
  | evt =>
    if delays s env evt then { m with m_bDelayPreviewMsgs := true }
    else if applies s env evt then m.applyDelayedMsgs
    else m

/-- The answer to `MSG_TYPE_ENABLED`, but in the state where it is refused. -/
def msgTypeEnabled (s : QCameraStateMachine) (msgs : BitVec 32) (m : Msgs) : BitVec 32 :=
  let enabled := m.mMsgEnabled &&& msgs
  if s.mState = .previewing ∧ m.m_bDelayPreviewMsgs ∧ m.m_DelayedMsgs ≠ 0 then
    enabled ||| (msgs &&& m.m_DelayedMsgs)
  else enabled

/-- The message types that were asked for, after an event. -/
def askedAfter (s : QCameraStateMachine) (env : SmEnv) (evt : SmEvt) (msgs asked : BitVec 32) : BitVec 32 :=
  match evt with
  | .enableMsgType => if carriedOut s env then asked ||| msgs else asked
  | .disableMsgType => if carriedOut s env then asked &&& ~~~msgs else asked
  | _ => asked

/-! ### Runs -/

/-- The state machine, the message types, and what was asked for. -/
structure MsgRun where
  sm : QCameraStateMachine := {}
  msgs : Msgs := {}
  asked : BitVec 32 := 0

/-- An event, with the payload of a request. -/
structure MsgEvent where
  evt : SmEvt
  env : SmEnv := {}
  msgs : BitVec 32 := 0

namespace MsgRun

/-- One event. -/
def step (k : ℕ) (r : MsgRun) (e : MsgEvent) : MsgRun where
  sm := r.sm.stateMachine e.env e.evt
  msgs := handle k r.sm e.env e.evt e.msgs r.msgs
  asked := askedAfter r.sm e.env e.evt e.msgs r.asked

/-- Each message type is enabled or held exactly if it was asked for. -/
def Agrees (r : MsgRun) : Prop := r.msgs.known = r.asked

/-- **The message types are transparent**: they agree with what was asked for after the event, and no message type
that was not asked for is enabled by `applyDelayedMsgs`. -/
structure Transparent (k : ℕ) (r : MsgRun) (e : MsgEvent) : Prop where
  agrees : (r.step k e).Agrees
  applied : applies r.sm e.env e.evt = true →
    (r.msgs.applyDelayedMsgs.mMsgEnabled &&& ~~~r.msgs.mMsgEnabled) &&& ~~~r.asked = 0

/-- A request that disables a message type that is held comes in the previewing state. -/
def KnowsHeld (r : MsgRun) (e : MsgEvent) : Prop :=
  e.evt = .disableMsgType → carriedOut r.sm e.env = true → e.msgs &&& r.msgs.m_DelayedMsgs ≠ 0 →
    r.sm.mState = .previewing

end MsgRun

/-! ### The bits -/

theorem and_previewFrame {k : ℕ} {x : BitVec 32} (h : x &&& previewFrame k ≠ 0) :
    x &&& previewFrame k = previewFrame k := by
  rw [previewFrame, and_twoPow] at h ⊢
  split at h
  · rename_i hbit
    rw [if_pos hbit]
  · exact absurd rfl h

theorem or_masked {e d x p : BitVec 32} (hx : x &&& p = p) (hd : d &&& ~~~p = 0) :
    e ||| x &&& ~~~p ||| p = e ||| d ||| x := by
  ext i hi
  have hxi : (x &&& p)[i] = p[i] := by rw [hx]
  have hdi : (d &&& ~~~p)[i] = (0 : BitVec 32)[i] := by rw [hd]
  simp only [getElem_and, getElem_or, getElem_not, ofNat_eq_ofNat, getElem_zero] at *
  grind

theorem clear_or_iff {e d x : BitVec 32} : e &&& ~~~x ||| d = (e ||| d) &&& ~~~x ↔ x &&& d = 0 := by
  constructor
  · intro h
    ext i hi
    have hi' : (e &&& ~~~x ||| d)[i] = ((e ||| d) &&& ~~~x)[i] := by rw [h]
    simp only [getElem_and, getElem_or, getElem_not, ofNat_eq_ofNat, getElem_zero] at *
    grind
  · intro h
    ext i hi
    have hi' : (x &&& d)[i] = (0 : BitVec 32)[i] := by rw [h]
    simp only [getElem_and, getElem_or, getElem_not, ofNat_eq_ofNat, getElem_zero] at *
    grind

theorem clear_clear {e d x : BitVec 32} : e &&& ~~~x ||| d &&& ~~~x = (e ||| d) &&& ~~~x := by
  grind

theorem and_not_self {x : BitVec 32} : x &&& ~~~x = 0 := by
  ext i hi
  simp

/-! ### The operations -/

namespace Msgs

variable {k : ℕ} {m : Msgs} {x : BitVec 32}

theorem Held.enableMsgType (h : m.Held k) : (m.enableMsgType x).Held k := ⟨h.held, h.delayed⟩

theorem Held.disableMsgType (h : m.Held k) : (m.disableMsgType x).Held k := ⟨h.held, h.delayed⟩

theorem known_enableMsgType : (m.enableMsgType x).known = m.known ||| x := by
  simp only [known, enableMsgType]
  grind

theorem known_disableMsgType_iff : (m.disableMsgType x).known = m.known &&& ~~~x ↔ x &&& m.m_DelayedMsgs = 0 :=
  clear_or_iff

theorem Held.applyDelayedMsgs_eq (h : m.Held k) :
    m.applyDelayedMsgs = { mMsgEnabled := m.known, m_bDelayPreviewMsgs := false, m_DelayedMsgs := 0 } := by
  unfold applyDelayedMsgs known
  by_cases hd : m.m_DelayedMsgs = 0
  · have hor : m.mMsgEnabled ||| m.m_DelayedMsgs = m.mMsgEnabled := by simp [hd]
    rw [if_neg fun hb => hb.2 hd, hor, ← hd]
    cases hb : m.m_bDelayPreviewMsgs with
    | true => rfl
    | false => rw [if_neg Bool.false_ne_true, ← hb]
  · rw [if_pos ⟨h.delayed hd, hd⟩]
    rfl

theorem Held.applyDelayedMsgs (h : m.Held k) : m.applyDelayedMsgs.Held k := by
  rw [h.applyDelayedMsgs_eq]
  exact ⟨by simp, fun hd => absurd rfl hd⟩

theorem Held.known_applyDelayedMsgs (h : m.Held k) : m.applyDelayedMsgs.known = m.known := by
  rw [h.applyDelayedMsgs_eq]
  simp [known]

theorem Held.enablePreviewing (h : m.Held k) : (m.enablePreviewing k x).Held k := by
  unfold Msgs.enablePreviewing
  split
  · rename_i hb
    exact ⟨and_not_self, fun _ => hb.1⟩
  · exact h.enableMsgType

theorem Held.known_enablePreviewing (h : m.Held k) : (m.enablePreviewing k x).known = m.known ||| x := by
  unfold Msgs.enablePreviewing
  split
  · rename_i hb
    exact or_masked (and_previewFrame hb.2) h.held
  · exact known_enableMsgType

theorem Held.disablePreviewing (h : m.Held k) : (m.disablePreviewing x).Held k := by
  unfold Msgs.disablePreviewing
  split
  · refine Held.disableMsgType ⟨?_, fun hd => ?_⟩
    · have hheld := h.held
      calc m.m_DelayedMsgs &&& ~~~x &&& ~~~previewFrame k = (m.m_DelayedMsgs &&& ~~~previewFrame k) &&& ~~~x := by grind
        _ = 0 := by rw [hheld]; simp
    · rename_i hb
      exact (if_neg hd).trans hb.1
  · exact h.disableMsgType

theorem Held.known_disablePreviewing (h : m.Held k) : (m.disablePreviewing x).known = m.known &&& ~~~x := by
  unfold Msgs.disablePreviewing
  split
  · exact clear_clear
  · rename_i hb
    have hd : m.m_DelayedMsgs = 0 := by
      by_contra hd
      exact hb ⟨h.delayed hd, hd⟩
    exact known_disableMsgType_iff.2 (by simp [hd])

end Msgs

/-! ### One event -/

section Event

variable {k : ℕ} {s : QCameraStateMachine} {env : SmEnv} {evt : SmEvt} {msgs asked : BitVec 32} {m : Msgs}

theorem handle_held (h : m.Held k) : (handle k s env evt msgs m).Held k := by
  unfold handle
  split
  · split
    · exact h
    · split
      · exact h.enablePreviewing
      · exact h.enableMsgType
  · split
    · exact h
    · split
      · exact h.disablePreviewing
      · exact h.disableMsgType
  · split
    · exact ⟨h.held, fun _ => rfl⟩
    · split
      · exact h.applyDelayedMsgs
      · exact h

/-- **What one event does**: the message types follow what is asked for, exactly if the event does not disable at the
interface what is held. -/
theorem handle_known (h : m.Held k) : (handle k s env evt msgs m).known = askedAfter s env evt msgs m.known ↔
      (evt = .disableMsgType → carriedOut s env = true → msgs &&& m.m_DelayedMsgs ≠ 0 → s.mState = .previewing) := by
  unfold handle askedAfter
  split
  · refine iff_of_true ?_ (fun he => by cases he)
    cases hc : carriedOut s env with
    | false => rfl
    | true =>
      simp only [Bool.not_true, Bool.false_eq_true, if_false, if_true]
      split
      · exact h.known_enablePreviewing
      · exact Msgs.known_enableMsgType
  · cases hc : carriedOut s env with
    | false => exact iff_of_true rfl (fun _ hf => by cases hf)
    | true =>
      simp only [Bool.not_true, Bool.false_eq_true, if_false, if_true]
      split
      · rename_i hp
        exact iff_of_true h.known_disablePreviewing (fun _ _ _ => hp)
      · rename_i hp
        rw [Msgs.known_disableMsgType_iff]
        constructor
        · intro hn _ _ hne
          exact absurd hn hne
        · intro hk
          by_contra hne
          exact hp (hk trivial trivial hne)
  · rename_i hne hnd
    refine iff_of_true ?_ (fun he => absurd he hnd)
    split
    · rfl
    · split
      · exact h.known_applyDelayedMsgs
      · rfl

end Event

/-! ### Runs -/

namespace MsgRun

variable {k : ℕ} {r : MsgRun} {e : MsgEvent}

/-- **The invariant**: the message types agree, and only the preview callback is held. -/
structure Inv (k : ℕ) (r : MsgRun) : Prop where
  agrees : r.Agrees
  held : r.msgs.Held k

theorem Inv.applied (h : r.Inv k) :
    (r.msgs.applyDelayedMsgs.mMsgEnabled &&& ~~~r.msgs.mMsgEnabled) &&& ~~~r.asked = 0 := by
  rw [h.held.applyDelayedMsgs_eq, ← h.agrees]
  unfold Msgs.known
  ext i hi
  simp only [getElem_and, getElem_or, getElem_not, ofNat_eq_ofNat, getElem_zero]
  grind

theorem Inv.transparent_step (h : r.Inv k) : r.Transparent k e ↔ r.KnowsHeld e := by
  have hk : (r.step k e).msgs.known = askedAfter r.sm e.env e.evt e.msgs r.msgs.known ↔ r.KnowsHeld e :=
    handle_known h.held
  rw [show r.msgs.known = r.asked from h.agrees] at hk
  constructor
  · intro ht
    exact hk.1 ht.agrees
  · intro hc
    exact ⟨hk.2 hc, fun _ => h.applied⟩

theorem Inv.step (h : r.Inv k) (hc : r.KnowsHeld e) : (r.step k e).Inv k := by
  have hheld : (r.step k e).msgs.Held k := handle_held h.held
  exact ⟨(h.transparent_step.2 hc).agrees, hheld⟩

theorem inv_init : Inv k {} := ⟨by simp [Agrees, Msgs.known], by simp, fun hd => absurd rfl hd⟩

/-- **Delayed message types are transparent** in a run exactly if no request disables, outside the previewing state,
a message type that is held. -/
theorem transparent_iff (k : ℕ) (es : List MsgEvent) :
    StepLaws.Along (step k) (Transparent k) {} es ↔ StepLaws.Along (step k) KnowsHeld {} es :=
  StepLaws.along_iff (fun _ _ h => h.transparent_step) (fun _ _ h hc => h.step hc) inv_init es

/-- The preview callback is enabled during a snapshot and held, and disabled during the next one, in the state of a
picture taken with preview. When the snapshot is done it is enabled. -/
def disabledWhileHeld : List MsgEvent :=
  [{ evt := .setPreviewWindow, env := { window := true } }, { evt := .startPreview },
    { evt := .takePicture, env := { zslMode := true } }, { evt := .snapshotDone },
    { evt := .enableMsgType, msgs := 16 }, { evt := .takePicture, env := { zslMode := true } },
    { evt := .disableMsgType, msgs := 16 }, { evt := .snapshotDone }, { evt := .previewEnabled }]

/-- The message types are not always those that were asked for. -/
theorem not_transparent_disabledWhileHeld : ¬ StepLaws.Along (step 4) (Transparent 4) {} disabledWhileHeld := by
  rw [transparent_iff]
  rintro ⟨-, -, -, -, -, -, hk, -⟩
  have hp := hk rfl (by decide) (by decide)
  exact absurd hp (by decide)

end MsgRun

end DelayedMsgs

end Marlin
