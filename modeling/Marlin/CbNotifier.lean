import Marlin.CmdThread
import Marlin.Transition

/-!
# The Callback Notifier

`QCameraCbNotifier` calls the application back on a thread of its own. `notifyCallback` copies its
arguments into a queue and then sends the thread a `DO_NEXT_JOB`; what the arguments hold, a preview
buffer or a whole JPEG, is released by their `release_cb` once they are delivered, or by the caller if
`notifyCallback` answers with an error.

## Conventions

* `notifyCallback` is two steps, as the thread and other callers can come between the two calls that
  it makes. Its arguments have the number of the call, which stands for the data that is only passed
  on.
* A command of the thread is one step: what the thread does with arguments that it took out of the
  queue touches nothing that the other threads see.
* The message types that are enabled, the expected number of snapshots and the longshot mode are the
  parent's, and are taken from the environment where the thread asks for them.
* `log` records what the environment sees.

## Main results

* `Ledger`: arguments that were accepted are in the queue or settled.
* `notify_accounted_run`: as long as the command of a call can be allocated, and a snapshot is taken out of
  the queue in a snapshot session only, each argument is settled once, and the end of the snapshots is
  told once.
* `snapshot_lost`: a snapshot outside a session is dropped with its JPEG.
-/

namespace Marlin

open List Transition

/-- `qcamera_callback_type_m`; `other` has no `case`. -/
inductive CallbackType
  | notify
  | data
  | dataTimestamp
  | dataSnapshot
  | other
  deriving DecidableEq

/-- `CAMERA_MSG_PREVIEW_FRAME`. -/
def cameraMsgPreviewFrame : ℕ := 0x0010

/-- `CAMERA_MSG_VIDEO_FRAME`. -/
def cameraMsgVideoFrame : ℕ := 0x0020

/-- `qcamera_callback_argm_t`, with the number of the call, and whether there is a `release_cb`. -/
structure CallbackArgm where
  id : ℕ
  cbType : CallbackType
  msgType : ℕ
  releaseCb : Bool
  deriving DecidableEq

/-- The status that a `release_cb` is called with. -/
inductive CbStatus
  | noError
  | badValue
  | invalidOperation
  | failedTransaction
  deriving DecidableEq

/-- What the environment sees: the answer of `notifyCallback`, the callbacks, the release, the event
for the parent, and the commands of a snapshot session as the thread takes them. -/
inductive NotifierEvent
  | returned (arg : CallbackArgm) (ok : Bool)
  | notifyCb (arg : CallbackArgm)
  | dataCb (arg : CallbackArgm)
  | dataCbTimestamp (arg : CallbackArgm)
  | jpegCb (arg : CallbackArgm)
  | released (arg : CallbackArgm) (status : CbStatus)
  | snapshotDone
  | started (expected : ℕ) (longshot : Bool)
  | stopped
  deriving DecidableEq

/-- The arguments that an event hands on or releases. -/
def NotifierEvent.about : NotifierEvent → Option CallbackArgm
  | .notifyCb arg | .dataCb arg | .dataCbTimestamp arg | .jpegCb arg | .released arg _ => some arg
  | .returned _ _ | .snapshotDone | .started _ _ | .stopped => none

/-- The arguments that an event settles: they are released, or handed to the JPEG callback, which
releases them. -/
def NotifierEvent.settles : NotifierEvent → Option CallbackArgm
  | .jpegCb arg | .released arg _ => some arg
  | _ => none

/-- `QCameraCbNotifier`, with the locals of its thread. `running` is the thread between launch and
exit, `posting` the calls of `notifyCallback` that have not sent their command yet. -/
structure CbNotifier where
  notifyCb : Bool := false
  dataCb : Bool := false
  dataCbTimestamp : Bool := false
  callbackCookie : Bool := false
  jpegCb : Bool := false
  active : Bool := false
  dataQ : QCameraQueue CallbackArgm := {}
  procTh : QCameraCmdThread := {}
  running : Bool := false
  isSnapshotActive : Bool := false
  longShotEnabled : Bool := false
  numOfSnapshotExpected : ℕ := 0
  numOfSnapshotRcvd : ℕ := 0
  posting : List CallbackArgm := []
  calls : ℕ := 0
  log : List NotifierEvent := []

namespace CbNotifier

/-- Record events. -/
def emit (s : CbNotifier) (events : List NotifierEvent) : CbNotifier :=
  { s with log := s.log ++ events }

/-- The call of a `release_cb`. -/
def release (status : CbStatus) (arg : CallbackArgm) : List NotifierEvent :=
  if arg.releaseCb then [.released arg status] else []

/-! ### The calls -/

/-- `notifyCallback`, up to the command. -/
def enqueueCallback (s : CbNotifier) (cbType : CallbackType) (msgType : ℕ) (releaseCb mallocNode : Bool) :
    CbNotifier :=
  let arg : CallbackArgm := ⟨s.calls, cbType, msgType, releaseCb⟩
  let s := { s with calls := s.calls + 1 }
  if s.active = false then s.emit [.returned arg false]
  else
    match s.dataQ.enqueue mallocNode arg with
    | (true, q) => { s with dataQ := q, posting := s.posting ++ [arg] }
    | (false, _) => s.emit [.returned arg false]

/-- The command of `notifyCallback`, whose answer is that of the call. -/
def sendDoNextJob (s : CbNotifier) (arg : CallbackArgm) (mallocCmd mallocNode : Bool) : CbNotifier :=
  let r := s.procTh.sendCmd mallocCmd mallocNode .doNextJob false
  { s with procTh := r.2, posting := s.posting.erase arg }.emit [.returned arg r.1]

/-- `setCallbacks`: the first call launches the thread. -/
def setCallbacks (s : CbNotifier) (notifyCb dataCb dataCbTimestamp callbackCookie : Bool) :
    CbNotifier :=
  if s.notifyCb = false ∧ s.dataCb = false ∧ s.dataCbTimestamp = false ∧ s.callbackCookie = false then
    { s with
      notifyCb := notifyCb
      dataCb := dataCb
      dataCbTimestamp := dataCbTimestamp
      callbackCookie := callbackCookie
      active := true
      running := true }
  else s

/-- `matchSnapshotNotifications`. -/
def matchSnapshotNotifications (arg : CallbackArgm) : Bool := arg.cbType == .dataSnapshot

/-- `matchPreviewNotifications`. -/
def matchPreviewNotifications (arg : CallbackArgm) : Bool :=
  arg.cbType == .data && arg.msgType == cameraMsgPreviewFrame

/-- `matchTimestampNotifications`. -/
def matchTimestampNotifications (arg : CallbackArgm) : Bool :=
  arg.cbType == .dataTimestamp && arg.msgType == cameraMsgVideoFrame

/-- `flushNodes` on the queue; `releaseNotifications` releases what matches. -/
def flushNodes (s : CbNotifier) (isMatch : CallbackArgm → Bool) : CbNotifier :=
  { s with dataQ := (s.dataQ.flushNodes isMatch).2 }.emit
    ((s.dataQ.flushNodes isMatch).1.flatMap (release .failedTransaction))

/-- `flushPreviewNotifications` and `flushVideoNotifications`. -/
def flushNotifications (s : CbNotifier) (isMatch : CallbackArgm → Bool) : CbNotifier :=
  if s.active then s.flushNodes isMatch else s

/-- `exit`: a thread that is not running has no command sent. -/
def exit (s : CbNotifier) (mallocCmd mallocNode : Bool) : CbNotifier :=
  { s with
    active := false
    procTh := if s.running then (s.procTh.sendCmd mallocCmd mallocNode .exit true).2 else s.procTh }

/-! ### The thread -/

/-- The count of a snapshot, and the event that all have come. -/
def countSnapshot (s : CbNotifier) : CbNotifier :=
  if s.longShotEnabled then s
  else
    let rcvd := (s.numOfSnapshotRcvd + 1) % 2 ^ 32
    { s with numOfSnapshotRcvd := rcvd }.emit
      (if 0 < s.numOfSnapshotExpected ∧ s.numOfSnapshotExpected = rcvd then [.snapshotDone] else [])

/-- What becomes of arguments that were taken out of the queue. -/
def handleCallback (s : CbNotifier) (cb : CallbackArgm) (enabled : Bool) : CbNotifier :=
  if enabled then
    match cb.cbType with
    | .notify => s.emit ((if s.notifyCb then [.notifyCb cb] else []) ++ release .noError cb)
    | .data => s.emit ((if s.dataCb then [.dataCb cb] else []) ++ release .noError cb)
    | .dataTimestamp =>
      s.emit ((if s.dataCbTimestamp then [.dataCbTimestamp cb] else []) ++ release .noError cb)
    | .dataSnapshot =>
      if s.isSnapshotActive = true ∧ s.dataCb = true then
        s.countSnapshot.emit (if s.jpegCb then [.jpegCb cb] else .dataCb cb :: release .noError cb)
      else s
    | .other => s.emit (release .badValue cb)
  else s.emit (release .invalidOperation cb)

/-- A command of `cbNotifyRoutine`. -/
def handleCmd (s : CbNotifier) (cmd : CameraCmdType) (enabled : CallbackArgm → Bool) (expected : ℕ)
    (longshot : Bool) : CbNotifier :=
  match cmd with
  | .startDataProc =>
    { s with
      isSnapshotActive := true
      numOfSnapshotExpected := expected
      longShotEnabled := longshot
      numOfSnapshotRcvd := 0 }.emit [.started expected longshot]
  | .stopDataProc =>
    { s.flushNodes matchSnapshotNotifications with
      isSnapshotActive := false
      numOfSnapshotExpected := 0
      numOfSnapshotRcvd := 0 }.emit [.stopped]
  | .doNextJob =>
    match s.dataQ.dequeue with
    | (some cb, q) => { s with dataQ := q }.handleCallback cb (enabled cb)
    | (none, q) => { s with dataQ := q }
  | .exit =>
    { s with running := false, dataQ := s.dataQ.flush.2 }.emit (s.dataQ.flush.1.flatMap (release .failedTransaction))
  | .none => s

/-! ### The notifier -/

/-- What can happen; `thread` is the next command of the thread. -/
inductive Input
  | setCallbacks (notifyCb dataCb dataCbTimestamp callbackCookie : Bool)
  | setJpegCallBacks (jpegCb : Bool)
  | notifyCallback (cbType : CallbackType) (msgType : ℕ) (releaseCb mallocNode : Bool)
  | sendDoNextJob (arg : CallbackArgm) (mallocCmd mallocNode : Bool)
  | startSnapshots (mallocCmd mallocNode : Bool)
  | stopSnapshots (mallocCmd mallocNode : Bool)
  | flushPreviewNotifications
  | flushVideoNotifications
  | exit (mallocCmd mallocNode : Bool)
  | thread (enabled : CallbackArgm → Bool) (expected : ℕ) (longshot : Bool)

/-- One step of the notifier. -/
def next (s : CbNotifier) : Input → Option CbNotifier
  | .setCallbacks n d t c => some (s.setCallbacks n d t c)
  | .setJpegCallBacks jpegCb => some { s with jpegCb := jpegCb }
  | .notifyCallback cbType msgType releaseCb mallocNode =>
    some (s.enqueueCallback cbType msgType releaseCb mallocNode)
  | .sendDoNextJob arg mallocCmd mallocNode =>
    if arg ∈ s.posting then some (s.sendDoNextJob arg mallocCmd mallocNode) else none
  | .startSnapshots mallocCmd mallocNode =>
    some { s with procTh := (s.procTh.sendCmd mallocCmd mallocNode .startDataProc true).2 }
  | .stopSnapshots mallocCmd mallocNode =>
    some { s with procTh := (s.procTh.sendCmd mallocCmd mallocNode .stopDataProc true).2 }
  | .flushPreviewNotifications => some (s.flushNotifications matchPreviewNotifications)
  | .flushVideoNotifications => some (s.flushNotifications matchTimestampNotifications)
  | .exit mallocCmd mallocNode => some (s.exit mallocCmd mallocNode)
  | .thread enabled expected longshot =>
    if s.running then
      s.procTh.getCmd.map fun r =>
        { s with procTh := r.2 }.handleCmd r.1 enabled expected longshot
    else none

/-! ### What the record says -/

/-- The arguments that were settled. -/
def settled (log : List NotifierEvent) : List CallbackArgm := log.filterMap NotifierEvent.settles

/-- The arguments of the calls that were answered so. -/
def answered (ok : Bool) (log : List NotifierEvent) : List CallbackArgm :=
  log.filterMap fun
    | .returned arg b => if b = ok then some arg else none
    | _ => none

/-- A snapshot session, from a `START_DATA_PROC` to the next command of its kind or a
`STOP_DATA_PROC`: the snapshots handed on, and the events that all have come. -/
structure Session where
  on : Bool := false
  expected : ℕ := 0
  longshot : Bool := false
  snapshots : ℕ := 0
  done : ℕ := 0
  deriving DecidableEq

/-- The session behind an event. -/
def Session.step (x : Session) : NotifierEvent → Session
  | .started expected longshot => { on := true, expected := expected, longshot := longshot }
  | .stopped => {}
  | .dataCb arg | .jpegCb arg =>
    if arg.cbType = .dataSnapshot then { x with snapshots := x.snapshots + 1 } else x
  | .snapshotDone => { x with done := x.done + 1 }
  | _ => x

/-- The session that a record ends in. -/
def session (log : List NotifierEvent) : Session := log.foldl Session.step {}

/-- The end of the snapshots is told once, if the expected number has been handed on in a session
without longshot, and otherwise not at all. -/
def Session.DoneOnce (x : Session) : Prop :=
  x.done = if x.on = true ∧ x.longshot = false ∧ 0 < x.expected ∧ x.expected ≤ x.snapshots then 1 else 0

/-- **The account**: accepted arguments with a `release_cb` are in the queue or settled, once; refused
ones are neither in the queue nor handed on nor released; only snapshots go to the JPEG callback; and
the end of the snapshots is told as it should be. -/
structure Accounted (s : CbNotifier) : Prop where
  accepted : ∀ arg, .returned arg true ∈ s.log → arg.releaseCb = true →
    s.dataQ.nodes.count arg + (settled s.log).count arg = 1
  refused : ∀ arg, .returned arg false ∈ s.log → arg ∉ s.dataQ.nodes ∧ ∀ e ∈ s.log, e.about ≠ some arg
  jpeg : ∀ arg, .jpegCb arg ∈ s.log → arg.cbType = .dataSnapshot
  doneOnce : (session s.log).DoneOnce

/-- **The condition**: the command of a call is allocated, and a snapshot that is taken out of the
queue comes in a snapshot session with a data callback, before the `2 ^ 32`nd. -/
def Kept (s : CbNotifier) : Input → Prop
  | .sendDoNextJob _ mallocCmd _ => mallocCmd = true
  | .thread enabled _ _ =>
    s.procTh.cmdQueue.nodes.head? = some .doNextJob →
      ∀ cb ∈ s.dataQ.nodes.head?, cb.cbType = .dataSnapshot → enabled cb = true →
        (cb.releaseCb = true → s.isSnapshotActive = true ∧ s.dataCb = true) ∧ s.numOfSnapshotRcvd + 1 < 2 ^ 32
  | _ => True

/-! ### The ledger -/

/-- **The invariant.** What was accepted, or waits to be, is in the queue or settled; what is in the
queue or was handed on is accepted or waits to be; every call returns once; and the locals of the
thread are those of the session. -/
structure Ledger (s : CbNotifier) : Prop where
  balance : ∀ arg, arg.releaseCb = true → s.dataQ.nodes.count arg + (settled s.log).count arg =
      s.posting.count arg + (answered true s.log).count arg
  known : ∀ arg, (arg ∈ s.dataQ.nodes ∨ ∃ e ∈ s.log, e.about = some arg) → arg ∈ s.posting ∨ arg ∈ answered true s.log
  once : ∀ arg, s.posting.count arg + (answered true s.log).count arg + (answered false s.log).count arg ≤ 1
  numbered : ∀ arg, arg ∈ s.posting ∨ (∃ ok, arg ∈ answered ok s.log) → arg.id < s.calls
  jpeg : ∀ arg, .jpegCb arg ∈ s.log → arg.cbType = .dataSnapshot
  doneOnce : (session s.log).DoneOnce
  on : (session s.log).on = s.isSnapshotActive
  locals : s.isSnapshotActive = true → (session s.log).expected = s.numOfSnapshotExpected ∧
    (session s.log).longshot = s.longShotEnabled ∧
    (s.longShotEnabled = false → (session s.log).snapshots = s.numOfSnapshotRcvd)

theorem mem_answered {arg : CallbackArgm} {ok : Bool} {log : List NotifierEvent} :
    arg ∈ answered ok log ↔ .returned arg ok ∈ log := by
  simp only [answered, mem_filterMap]
  constructor
  · rintro ⟨e, he, harg⟩
    split at harg
    · split at harg
      · rename_i heq
        cases harg
        exact heq ▸ he
      · cases harg
    · cases harg
  · intro h
    exact ⟨_, h, if_pos rfl⟩

theorem Ledger.accounted {s : CbNotifier} (h : s.Ledger) : s.Accounted := by
  refine ⟨fun arg harg hrelease => ?_, fun arg harg => ?_, h.jpeg, h.doneOnce⟩
  · have hbalance := h.balance arg hrelease
    have honce := h.once arg
    have haccepted := count_pos_iff.mpr (mem_answered.mpr harg)
    omega
  · have honce := h.once arg
    have hrefused := count_pos_iff.mpr (mem_answered.mpr harg)
    have hnot : arg ∉ s.posting ∧ arg ∉ answered true s.log := by
      constructor
      · intro hmem
        have hpos := count_pos_iff.mpr hmem
        omega
      · intro hmem
        have hpos := count_pos_iff.mpr hmem
        omega
    have hknown := fun hmem => (h.known arg hmem).elim hnot.1 hnot.2
    exact ⟨fun hmem => hknown (.inl hmem), fun e he heq => hknown (.inr ⟨e, he, heq⟩)⟩

/-! ### Steps -/

variable {s t : CbNotifier}

/-- A notifier that has not been called. -/
structure Fresh (s : CbNotifier) : Prop where
  dataQ : s.dataQ.nodes = []
  posting : s.posting = []
  log : s.log = []
  isSnapshotActive : s.isSnapshotActive = false

theorem Fresh.ledger (h : s.Fresh) : s.Ledger := by
  obtain ⟨hqueue, hposting, hlog, hactive⟩ := h
  refine ⟨?_, ?_, ?_, ?_, ?_, ?_, ?_, ?_⟩
  · simp [hqueue, hposting, hlog, settled, answered]
  · simp [hqueue, hlog]
  · simp [hposting, hlog, answered]
  · simp [hposting, hlog, answered]
  · simp [hlog]
  · rw [hlog]
    rfl
  · rw [hlog, hactive]
    rfl
  · simp [hactive]

theorem settled_append (log events : List NotifierEvent) :
    settled (log ++ events) = settled log ++ settled events := filterMap_append

theorem answered_append (ok : Bool) (log events : List NotifierEvent) :
    answered ok (log ++ events) = answered ok log ++ answered ok events := filterMap_append

theorem session_append (log events : List NotifierEvent) :
    session (log ++ events) = events.foldl Session.step (session log) := foldl_append

/-- The end of the snapshots is told as it should be, and the locals of the thread are those of the
session. -/
structure InSession (s : CbNotifier) : Prop where
  doneOnce : (session s.log).DoneOnce
  on : (session s.log).on = s.isSnapshotActive
  locals : s.isSnapshotActive = true → (session s.log).expected = s.numOfSnapshotExpected ∧
    (session s.log).longshot = s.longShotEnabled ∧
    (s.longShotEnabled = false → (session s.log).snapshots = s.numOfSnapshotRcvd)

theorem Ledger.inSession (h : s.Ledger) : s.InSession := ⟨h.doneOnce, h.on, h.locals⟩

theorem InSession.congr (h : s.InSession) (hsession : session t.log = session s.log)
    (hactive : t.isSnapshotActive = s.isSnapshotActive)
    (hexpected : t.numOfSnapshotExpected = s.numOfSnapshotExpected)
    (hlong : t.longShotEnabled = s.longShotEnabled)
    (hrcvd : t.numOfSnapshotRcvd = s.numOfSnapshotRcvd) : t.InSession := by
  refine ⟨?_, ?_, ?_⟩
  · rw [hsession]
    exact h.doneOnce
  · rw [hsession, hactive]
    exact h.on
  · rw [hsession, hactive, hexpected, hlong, hrcvd]
    exact h.locals

/-- **What a record keeps**: arguments go on from the queue to the settled ones and from the waiting
calls to the answered ones, and only a new call adds to them. -/
theorem Ledger.record (h : s.Ledger) {events : List NotifierEvent} (hlog : t.log = s.log ++ events)
    (hcalls : s.calls ≤ t.calls)
    (hcount : ∀ arg, arg.releaseCb = true → t.dataQ.nodes.count arg + (settled events).count arg + s.posting.count arg =
        s.dataQ.nodes.count arg + t.posting.count arg + (answered true events).count arg)
    (hmem : ∀ arg, (arg ∈ t.dataQ.nodes ∨ ∃ e ∈ events, e.about = some arg) → arg ∈ s.dataQ.nodes ∨ arg ∈ t.posting)
    (hposting : ∀ arg ∈ s.posting, arg ∈ t.posting ∨ arg ∈ answered true events)
    (hcalled : ∀ arg, t.posting.count arg + (answered true events).count arg + (answered false events).count arg ≤
        if arg.id < s.calls then s.posting.count arg else if arg.id < t.calls then 1 else 0)
    (hjpeg : ∀ arg, .jpegCb arg ∈ events → arg.cbType = .dataSnapshot) (hsession : t.InSession) :
    t.Ledger := by
  have hans : ∀ ok, answered ok t.log = answered ok s.log ++ answered ok events := by
    intro ok
    rw [hlog, answered_append]
  refine ⟨fun arg hrelease => ?_, fun arg harg => ?_, fun arg => ?_, fun arg harg => ?_,
    fun arg harg => ?_, hsession.doneOnce, hsession.on, hsession.locals⟩
  · have hbalance := h.balance arg hrelease
    have hleft := hcount arg hrelease
    rw [hans, hlog, settled_append, count_append, count_append]
    omega
  · have hknown : (arg ∈ s.dataQ.nodes ∨ ∃ e ∈ s.log, e.about = some arg) ∨ arg ∈ t.posting := by
      rcases harg with hq | ⟨e, he, heq⟩
      · exact (hmem arg (.inl hq)).imp .inl id
      · rw [hlog] at he
        rcases mem_append.mp he with he | he
        · exact .inl (.inr ⟨e, he, heq⟩)
        · exact (hmem arg (.inr ⟨e, he, heq⟩)).imp .inl id
    rw [hans, mem_append]
    rcases hknown with hold | hnew
    · rcases h.known arg hold with hold | hold
      · exact (hposting arg hold).imp id .inr
      · exact .inr (.inl hold)
    · exact .inl hnew
  · have hold := h.once arg
    have hnew := hcalled arg
    simp only [hans, count_append]
    split at hnew
    · omega
    · -- a call that is not made yet is not recorded
      rename_i hid
      have hnone : arg ∉ s.posting ∧ ∀ ok, arg ∉ answered ok s.log :=
        ⟨fun hp => hid (h.numbered arg (.inl hp)), fun ok hp => hid (h.numbered arg (.inr ⟨ok, hp⟩))⟩
      rw [count_eq_zero.mpr (hnone.2 true), count_eq_zero.mpr (hnone.2 false)]
      split at hnew <;> omega
  · by_contra hid
    have hnew := hcalled arg
    rw [if_neg (by omega), if_neg hid] at hnew
    rcases harg with hp | ⟨ok, hp⟩
    · have hpos := count_pos_iff.mpr hp
      omega
    · rw [hans] at hp
      rcases mem_append.mp hp with hp | hp
      · have hlt := h.numbered arg (.inr ⟨ok, hp⟩)
        omega
      · have hpos := count_pos_iff.mpr hp
        cases ok <;> omega
  · rw [hlog] at harg
    exact (mem_append.mp harg).elim (h.jpeg arg) (hjpeg arg)

theorem Ledger.called (h : s.Ledger) (arg : CallbackArgm) : s.posting.count arg ≤
      if arg.id < s.calls then s.posting.count arg else if arg.id < s.calls then 1 else 0 := by
  split
  · exact Nat.le_refl _
  · rename_i hid
    exact Nat.le_trans (Nat.le_of_eq (count_eq_zero.mpr fun hp => hid (h.numbered arg (.inl hp)))) (Nat.zero_le _)

theorem Ledger.leave (h : s.Ledger) {events : List NotifierEvent}
    (hlog : t.log = s.log ++ events) (hposting : t.posting = s.posting) (hcalls : t.calls = s.calls)
    (hanswered : ∀ ok, answered ok events = [])
    (hcount : ∀ arg, arg.releaseCb = true →
      t.dataQ.nodes.count arg + (settled events).count arg = s.dataQ.nodes.count arg)
    (hmem : ∀ arg, (arg ∈ t.dataQ.nodes ∨ ∃ e ∈ events, e.about = some arg) → arg ∈ s.dataQ.nodes)
    (hjpeg : ∀ arg, .jpegCb arg ∈ events → arg.cbType = .dataSnapshot) (hsession : t.InSession) :
    t.Ledger := by
  refine h.record hlog (Nat.le_of_eq hcalls.symm) (fun arg hrelease => ?_) (fun arg harg => .inl (hmem arg harg))
    (fun arg harg => .inl (hposting ▸ harg)) (fun arg => ?_) hjpeg hsession
  · rw [hposting, hcount arg hrelease, hanswered]
    rfl
  · rw [hposting, hcalls, hanswered, hanswered]
    exact h.called arg

theorem Ledger.of_eq (h : s.Ledger) (hqueue : t.dataQ.nodes = s.dataQ.nodes)
    (hposting : t.posting = s.posting) (hcalls : t.calls = s.calls) (hlog : t.log = s.log)
    (hactive : t.isSnapshotActive = s.isSnapshotActive)
    (hexpected : t.numOfSnapshotExpected = s.numOfSnapshotExpected)
    (hlong : t.longShotEnabled = s.longShotEnabled)
    (hrcvd : t.numOfSnapshotRcvd = s.numOfSnapshotRcvd) : t.Ledger := by
  refine h.leave (show t.log = s.log ++ [] by rw [hlog, append_nil]) hposting hcalls (fun _ => rfl)
    (fun arg _ => by rw [hqueue]; rfl) (fun arg harg => ?_) nofun
    (h.inSession.congr (by rw [hlog]) hactive hexpected hlong hrcvd)
  rcases harg with harg | ⟨e, he, -⟩
  · exact hqueue ▸ harg
  · cases he

/-! ### The calls -/

theorem Ledger.refuse (h : s.Ledger) (arg : CallbackArgm) (hid : arg.id = s.calls) :
    ({ s with calls := s.calls + 1 }.emit [.returned arg false]).Ledger := by
  refine h.record rfl (Nat.le_succ _) (fun a _ => rfl) (fun a ha => ?_) (fun a ha => .inl ha)
    (fun a => ?_) (fun a ha => ?_) (h.inSession.congr (session_append _ _) rfl rfl rfl rfl)
  · rcases ha with ha | ⟨e, he, heq⟩
    · exact .inl ha
    · obtain rfl := mem_singleton.mp he
      cases heq
  · have hone : (answered false [.returned arg false]).count a = [arg].count a := rfl
    have hcalled := h.called a
    change s.posting.count a + 0 + _ ≤ if a.id < s.calls then _ else if a.id < s.calls + 1 then 1 else 0
    rw [hone, count_singleton]
    by_cases heq : arg = a
    · subst heq
      simp [hid] at hcalled ⊢
      omega
    · rw [if_neg (by simpa using heq)]
      split_ifs at hcalled ⊢ <;> omega
  · cases mem_singleton.mp ha

theorem Ledger.enqueue (h : s.Ledger) (arg : CallbackArgm) (hid : arg.id = s.calls)
    {q : QCameraQueue CallbackArgm} (hq : q.nodes = s.dataQ.nodes ++ [arg]) :
    { s with calls := s.calls + 1, dataQ := q, posting := s.posting ++ [arg] }.Ledger := by
  refine h.record (show s.log = s.log ++ [] from (append_nil _).symm) (Nat.le_succ _) (fun a _ => ?_) (fun a ha => ?_)
    (fun a ha => .inl (mem_append_left _ ha)) (fun a => ?_) nofun
    (h.inSession.congr rfl rfl rfl rfl rfl)
  · simp only [hq, count_append]
    change _ + 0 + _ = _ + 0
    omega
  · rcases ha with ha | ⟨e, he, -⟩
    · exact (mem_append.mp (hq ▸ ha)).imp id (mem_append_right _)
    · cases he
  · have hcalled := h.called a
    change (s.posting ++ [arg]).count a + 0 + 0 ≤ if a.id < s.calls then _ else if a.id < s.calls + 1 then 1 else 0
    rw [count_append, count_singleton]
    by_cases heq : arg = a
    · subst heq
      simp [hid] at hcalled ⊢
      omega
    · rw [if_neg (by simpa using heq)]
      split_ifs at hcalled ⊢ <;> omega

theorem Ledger.enqueueCallback (h : s.Ledger) (cbType : CallbackType) (msgType : ℕ) (releaseCb mallocNode : Bool) :
    (s.enqueueCallback cbType msgType releaseCb mallocNode).Ledger := by
  simp only [CbNotifier.enqueueCallback]
  split
  · exact h.refuse ⟨s.calls, cbType, msgType, releaseCb⟩ rfl
  · rcases s.dataQ.enqueue_cases mallocNode ⟨s.calls, cbType, msgType, releaseCb⟩ with
      ⟨hok, hnodes⟩ | hfail
    · generalize s.dataQ.enqueue mallocNode ⟨s.calls, cbType, msgType, releaseCb⟩ = r at hok hnodes
      obtain ⟨ok, q⟩ := r
      obtain rfl : ok = true := hok
      exact h.enqueue ⟨s.calls, cbType, msgType, releaseCb⟩ rfl hnodes
    · rw [hfail]
      exact h.refuse ⟨s.calls, cbType, msgType, releaseCb⟩ rfl

theorem Ledger.sendDoNextJob (h : s.Ledger) {arg : CallbackArgm} (hposting : arg ∈ s.posting)
    (mallocNode : Bool) : (s.sendDoNextJob arg true mallocNode).Ledger := by
  have hpos := count_pos_iff.mpr hposting
  have hmove : ∀ a, (s.posting.erase arg).count a + [arg].count a = s.posting.count a := by
    intro a
    rw [count_erase, count_singleton]
    by_cases heq : arg = a
    · subst heq
      simp only [beq_self_eq_true, if_true]
      omega
    · simp [heq]
  refine h.record rfl (Nat.le_refl _) (fun a _ => ?_) (fun a ha => ?_) (fun a ha => ?_) (fun a => ?_)
    (fun a ha => ?_) (h.inSession.congr (session_append _ _) rfl rfl rfl rfl)
  · change s.dataQ.nodes.count a + 0 + _ = _ + (s.posting.erase arg).count a + [arg].count a
    have hm := hmove a
    omega
  · rcases ha with ha | ⟨e, he, heq⟩
    · exact .inl ha
    · obtain rfl := mem_singleton.mp he
      cases heq
  · by_cases heq : a = arg
    · exact .inr (mem_singleton.mpr heq)
    · exact .inl ((mem_erase_of_ne heq).mpr ha)
  · exact Nat.le_trans (Nat.le_of_eq (hmove a)) (h.called a)
  · cases mem_singleton.mp ha

/-! ### What leaves the queue -/

theorem settled_releases (status : CbStatus) (args : List CallbackArgm) {arg : CallbackArgm}
    (h : arg.releaseCb = true) :
    (settled (args.flatMap (release status))).count arg = args.count arg := by
  induction args with
  | nil => rfl
  | cons a args ih =>
    rw [flatMap_cons, settled_append, count_append, ih, release, count_cons]
    by_cases heq : a = arg
    · subst heq
      simp [h, settled, NotifierEvent.settles]
      omega
    · have hne : (a == arg) = false := by simpa using heq
      split
      · simp [settled, NotifierEvent.settles, count_singleton, hne]
      · simp [settled, hne]

theorem mem_releases {status : CbStatus} {args : List CallbackArgm} {e : NotifierEvent}
    (h : e ∈ args.flatMap (release status)) : ∃ arg ∈ args, e = .released arg status := by
  obtain ⟨arg, harg, he⟩ := mem_flatMap.mp h
  rw [release] at he
  split at he
  · exact ⟨arg, harg, mem_singleton.mp he⟩
  · cases he

theorem answered_releases (ok : Bool) (status : CbStatus) (args : List CallbackArgm) :
    answered ok (args.flatMap (release status)) = [] := by
  rw [answered, filterMap_eq_nil_iff]
  intro e he
  obtain ⟨arg, -, rfl⟩ := mem_releases he
  rfl

theorem session_releases (status : CbStatus) (args : List CallbackArgm) (x : Session) :
    (args.flatMap (release status)).foldl Session.step x = x := by
  induction args with
  | nil => rfl
  | cons a args ih =>
    rw [flatMap_cons, foldl_append]
    have hone : (release status a).foldl Session.step x = x := by
      rw [release]
      split
      · rfl
      · rfl
    rw [hone, ih]

theorem Ledger.flushNodes (h : s.Ledger) (isMatch : CallbackArgm → Bool) : (s.flushNodes isMatch).Ledger := by
  refine h.leave rfl rfl rfl (fun ok => answered_releases ok _ _) (fun a ha => ?_) (fun a ha => ?_)
    (fun a ha => ?_) (h.inSession.congr ((session_append _ _).trans (session_releases _ _ _)) rfl rfl rfl rfl)
  · rw [settled_releases _ _ ha]
    change (s.dataQ.nodes.filter fun a => !isMatch a).count a + (s.dataQ.nodes.filter isMatch).count a = _
    by_cases hmatch : isMatch a = true
    · have hgone : a ∉ s.dataQ.nodes.filter fun a => !isMatch a := by simp [hmatch]
      rw [count_filter hmatch, count_eq_zero.mpr hgone]
      omega
    · have hgone : a ∉ s.dataQ.nodes.filter isMatch := by simp [hmatch]
      have hstay : (s.dataQ.nodes.filter fun a => !isMatch a).count a = s.dataQ.nodes.count a :=
        count_filter (by simpa using hmatch)
      rw [hstay, count_eq_zero.mpr hgone]
      omega
  · rcases ha with ha | ⟨e, he, heq⟩
    · exact (mem_filter.mp ha).1
    · obtain ⟨arg, harg, rfl⟩ := mem_releases he
      cases heq
      exact (mem_filter.mp harg).1
  · obtain ⟨arg, -, heq⟩ := mem_releases ha
    cases heq

/-! ### The thread -/

theorem Ledger.exited (h : s.Ledger) (th : QCameraCmdThread) (enabled : CallbackArgm → Bool)
    (expected : ℕ) (longshot : Bool) :
    ({ s with procTh := th }.handleCmd .exit enabled expected longshot).Ledger := by
  refine h.leave rfl rfl rfl (fun ok => answered_releases ok _ _) (fun a ha => ?_) (fun a ha => ?_)
    (fun a ha => ?_) (h.inSession.congr ((session_append _ _).trans (session_releases _ _ _)) rfl rfl rfl rfl)
  · rw [settled_releases _ _ ha]
    exact Nat.zero_add _
  · rcases ha with ha | ⟨e, he, heq⟩
    · cases ha
    · obtain ⟨arg, harg, rfl⟩ := mem_releases he
      cases heq
      exact harg
  · obtain ⟨arg, -, heq⟩ := mem_releases ha
    cases heq

theorem Ledger.boundary (h : s.Ledger) {e : NotifierEvent}
    (hlog : t.log = s.log ++ [e]) (hposting : t.posting = s.posting) (hcalls : t.calls = s.calls)
    (hqueue : t.dataQ.nodes = s.dataQ.nodes) (habout : e.about = none)
    (hanswered : ∀ arg ok, e ≠ .returned arg ok) (hrcvd : t.numOfSnapshotRcvd = 0)
    (hsession : session t.log = ⟨t.isSnapshotActive, t.numOfSnapshotExpected,
      if t.isSnapshotActive then t.longShotEnabled else false, 0, 0⟩) : t.Ledger := by
  have hsettles : e.settles = none := by
    cases e with
    | jpegCb arg => cases habout
    | released arg status => cases habout
    | _ => rfl
  refine h.leave hlog hposting hcalls (fun ok => ?_) (fun a _ => ?_) (fun a ha => ?_)
    (fun a ha => ?_) ⟨?_, ?_, fun hon => ?_⟩
  · rw [answered, filterMap_eq_nil_iff]
    intro e' he'
    obtain rfl := mem_singleton.mp he'
    cases e' with
    | returned arg b => exact absurd rfl (hanswered arg b)
    | _ => rfl
  · rw [hqueue]
    have hnone : settled [e] = [] := by
      rw [settled, filterMap_cons_none hsettles]
      rfl
    rw [hnone]
    rfl
  · rcases ha with ha | ⟨e', he', heq⟩
    · rw [← hqueue]
      exact ha
    · obtain rfl := mem_singleton.mp he'
      rw [habout] at heq
      cases heq
  · obtain rfl := mem_singleton.mp ha
    cases habout
  · rw [hsession]
    -- nothing has been handed on yet
    simp [Session.DoneOnce]
    omega
  · rw [hsession]
  · rw [hsession, hrcvd]
    simp [hon]

variable {cb : CallbackArgm} {rest : List CallbackArgm}

theorem Ledger.head (h : s.Ledger)
    (events : List NotifierEvent) (hnodes : s.dataQ.nodes = cb :: rest)
    (hqueue : t.dataQ.nodes = rest) (hlog : t.log = s.log ++ events)
    (hposting : t.posting = s.posting) (hcalls : t.calls = s.calls)
    (hanswered : ∀ ok, answered ok events = [])
    (hsettled : cb.releaseCb = true → settled events = [cb])
    (hunsettled : cb.releaseCb = false → ∀ arg ∈ settled events, arg = cb)
    (habout : ∀ e ∈ events, e.about = none ∨ e.about = some cb)
    (hjpeg : ∀ arg, .jpegCb arg ∈ events → arg.cbType = .dataSnapshot) (hsession : t.InSession) :
    t.Ledger := by
  refine h.leave hlog hposting hcalls hanswered (fun a ha => ?_) (fun a ha => ?_) hjpeg hsession
  · rw [hnodes, hqueue, count_cons]
    cases hrel : cb.releaseCb with
    | true => rw [hsettled hrel, count_singleton]
    | false =>
      have hne : cb ≠ a := by
        rintro rfl
        rw [hrel] at ha
        cases ha
      have hgone : a ∉ settled events := fun hmem => hne (hunsettled hrel a hmem).symm
      rw [count_eq_zero.mpr hgone, if_neg (by simpa using hne)]
  · rw [hnodes]
    rcases ha with ha | ⟨e, he, heq⟩
    · rw [hqueue] at ha
      exact mem_cons_of_mem _ ha
    · rcases habout e he with hnone | hsome
      · rw [hnone] at heq
        cases heq
      · rw [hsome] at heq
        cases heq
        exact mem_cons_self

/-! ### The release of a callback -/

theorem answered_release (ok : Bool) (status : CbStatus) (cb : CallbackArgm) :
    answered ok (release status cb) = [] := by
  rw [← flatMap_singleton (release status) cb]
  exact answered_releases ok status [cb]

theorem settled_release (status : CbStatus) (cb : CallbackArgm) :
    settled (release status cb) = if cb.releaseCb then [cb] else [] := by
  rw [release]
  split
  · rfl
  · rfl

theorem about_release {status : CbStatus} {e : NotifierEvent} (he : e ∈ release status cb) :
    e.about = some cb := by
  rw [release] at he
  split at he
  · obtain rfl := mem_singleton.mp he
    rfl
  · cases he

theorem jpegCb_notMem_release {status : CbStatus} {cb a : CallbackArgm} : .jpegCb a ∉ release status cb := by
  intro ha
  rw [release] at ha
  split at ha
  · cases mem_singleton.mp ha
  · cases ha

theorem session_release (status : CbStatus) (cb : CallbackArgm) (x : Session) :
    (release status cb).foldl Session.step x = x := by
  rw [← flatMap_singleton (release status) cb]
  exact session_releases status [cb] x

/-- Events that settle and answer nothing, and are about no other callback. -/
structure Plain (cb : CallbackArgm) (events : List NotifierEvent) : Prop where
  settled : settled events = []
  answered : ∀ ok, answered ok events = []
  about : ∀ e ∈ events, e.about = none ∨ e.about = some cb
  jpegCb : ∀ a, .jpegCb a ∉ events

theorem Plain.append {events events' : List NotifierEvent} (h : Plain cb events)
    (h' : Plain cb events') : Plain cb (events ++ events') where
  settled := by rw [settled_append, h.settled, h'.settled, append_nil]
  answered ok := by rw [answered_append, h.answered, h'.answered, append_nil]
  about e he := (mem_append.mp he).elim (h.about e) (h'.about e)
  jpegCb a ha := (mem_append.mp ha).elim (h.jpegCb a) (h'.jpegCb a)

theorem plain_nil (cb : CallbackArgm) : Plain cb [] := ⟨rfl, fun _ => rfl, fun _ he => (nomatch he), fun _ => nofun⟩

theorem plain_single {e : NotifierEvent} (hsettles : e.settles = none)
    (hanswers : ∀ arg ok, e ≠ .returned arg ok) (habout : e.about = none ∨ e.about = some cb) : Plain cb [e] where
  settled := filterMap_cons_none hsettles
  answered ok := filterMap_cons_none (by
    split
    · exact absurd rfl (hanswers _ _)
    · rfl)
  about e' he' := by
    obtain rfl := mem_singleton.mp he'
    exact habout
  jpegCb a ha := by
    obtain rfl := mem_singleton.mp ha
    cases hsettles

/-- The head of the queue is released, after events that settle nothing. -/
theorem Ledger.released (h : s.Ledger)
    {first : List NotifierEvent} (status : CbStatus) (hnodes : s.dataQ.nodes = cb :: rest)
    (hqueue : t.dataQ.nodes = rest) (hlog : t.log = s.log ++ (first ++ release status cb))
    (hposting : t.posting = s.posting) (hcalls : t.calls = s.calls) (hfirst : Plain cb first)
    (hsession : t.InSession) : t.Ledger := by
  refine h.head (first ++ release status cb) hnodes hqueue hlog hposting hcalls
    (fun ok => ?_) (fun hrel => ?_) (fun hrel => ?_) (fun e he => ?_) (fun a ha => ?_) hsession
  · rw [answered_append, hfirst.answered, answered_release]
    rfl
  · rw [settled_append, hfirst.settled, settled_release, if_pos hrel]
    rfl
  · rw [settled_append, hfirst.settled, settled_release, if_neg (by simp [hrel])]
    simp
  · exact (mem_append.mp he).elim (hfirst.about e) fun he => .inr (about_release he)
  · exact (mem_append.mp ha).elim (fun ha => absurd ha (hfirst.jpegCb a)) fun ha =>
      absurd ha jpegCb_notMem_release

/-- A snapshot is counted as it is handed on, and the last one expected makes the event. -/
theorem InSession.countSnapshot (h : s.InSession) (hactive : s.isSnapshotActive = true)
    (hrcvd : s.numOfSnapshotRcvd + 1 < 2 ^ 32) {events : List NotifierEvent}
    (hcb : cb.cbType = .dataSnapshot)
    (hevents : events = [.jpegCb cb] ∨ events = .dataCb cb :: release .noError cb) :
    (s.countSnapshot.emit events).InSession := by
  have hfold : ∀ x : Session, events.foldl Session.step x = { x with snapshots := x.snapshots + 1 } := by
    intro x
    rcases hevents with rfl | rfl
    · simp [Session.step, hcb]
    · rw [foldl_cons, session_release]
      simp [Session.step, hcb]
  obtain ⟨hexpected, hlong, hcount⟩ := h.locals hactive
  cases hlongshot : s.longShotEnabled with
  | true =>
    have hsession : session (s.emit events).log = { session s.log with
        snapshots := (session s.log).snapshots + 1 } := by
      simp only [CbNotifier.emit, session_append, hfold]
    rw [CbNotifier.countSnapshot, if_pos hlongshot]
    refine ⟨?_, ?_, fun _ => ?_⟩
    · rw [hsession]
      simpa [Session.DoneOnce, hlong.trans hlongshot] using h.doneOnce
    · rw [hsession]
      exact h.on
    · rw [hsession]
      exact ⟨hexpected, hlong, fun hoff => nomatch hlongshot.symm.trans hoff⟩
  | false =>
    have hcounted : s.countSnapshot = { s with numOfSnapshotRcvd := s.numOfSnapshotRcvd + 1 }.emit
        (if 0 < s.numOfSnapshotExpected ∧ s.numOfSnapshotExpected = s.numOfSnapshotRcvd + 1 then
          [.snapshotDone] else []) := by
      simp only [CbNotifier.countSnapshot, hlongshot, Bool.false_eq_true, if_false, Nat.mod_eq_of_lt hrcvd]
    have hsession : session (s.countSnapshot.emit events).log = { session s.log with
        snapshots := (session s.log).snapshots + 1
        done := (session s.log).done + if 0 < s.numOfSnapshotExpected ∧
          s.numOfSnapshotExpected = s.numOfSnapshotRcvd + 1 then 1 else 0 } := by
      simp only [hcounted, CbNotifier.emit, session_append, hfold]
      split
      · rfl
      · rfl
    have hn := hcount hlongshot
    have hl := hlong.trans hlongshot
    have hon := h.on.trans hactive
    refine ⟨?_, ?_, fun _ => ?_⟩
    · have hdone := h.doneOnce
      rw [Session.DoneOnce, hon, hl, hexpected, hn] at hdone
      rw [hsession, Session.DoneOnce]
      simp only [hon, hl, hexpected, hn, hdone, true_and]
      split_ifs <;> omega
    · rw [hsession, hcounted]
      exact h.on
    · rw [hsession, hcounted, hn]
      exact ⟨hexpected, hlong, fun _ => rfl⟩

theorem Ledger.plain (h : s.Ledger) {q : QCameraQueue CallbackArgm}
    (status : CbStatus) (hnodes : s.dataQ.nodes = cb :: rest) (hq : q.nodes = rest) {first : List NotifierEvent}
    (hfirst : first = [] ∨ first = [.notifyCb cb] ∨ first = [.dataCbTimestamp cb] ∨
      (first = [.dataCb cb] ∧ cb.cbType = .data)) :
    ({ s with dataQ := q }.emit (first ++ release status cb)).Ledger := by
  have hsession : session (s.log ++ (first ++ release status cb)) = session s.log := by
    rw [session_append, foldl_append, session_release]
    rcases hfirst with rfl | rfl | rfl | ⟨rfl, htype⟩
    · rfl
    · rfl
    · rfl
    · simp [Session.step, htype]
  have hplain : Plain cb first := by
    rcases hfirst with rfl | rfl | rfl | ⟨rfl, -⟩
    · exact plain_nil cb
    · exact plain_single rfl (by simp) (.inr rfl)
    · exact plain_single rfl (by simp) (.inr rfl)
    · exact plain_single rfl (by simp) (.inr rfl)
  exact h.released status hnodes hq rfl rfl rfl hplain (h.inSession.congr hsession rfl rfl rfl rfl)

theorem countSnapshot_cases (s : CbNotifier) (cb : CallbackArgm) :
    (∃ first, s.countSnapshot.log = s.log ++ first ∧ Plain cb first) ∧
      s.countSnapshot.posting = s.posting ∧ s.countSnapshot.calls = s.calls ∧ s.countSnapshot.dataQ = s.dataQ := by
  simp only [CbNotifier.countSnapshot]
  split
  · exact ⟨⟨[], (append_nil _).symm, plain_nil cb⟩, rfl, rfl, rfl⟩
  · refine ⟨⟨_, rfl, ?_⟩, rfl, rfl, rfl⟩
    split
    · exact plain_single rfl (by simp) (.inl rfl)
    · exact plain_nil cb

/-- A snapshot is handed on in a session. -/
theorem Ledger.snapshot (h : s.Ledger)
    {q : QCameraQueue CallbackArgm} {last : List NotifierEvent} (hnodes : s.dataQ.nodes = cb :: rest)
    (hq : q.nodes = rest) (htype : cb.cbType = .dataSnapshot) (hactive : s.isSnapshotActive = true)
    (hrcvd : s.numOfSnapshotRcvd + 1 < 2 ^ 32)
    (hlast : last = [.jpegCb cb] ∨ last = .dataCb cb :: release .noError cb) :
    (CbNotifier.countSnapshot { s with dataQ := q } |>.emit last).Ledger := by
  obtain ⟨⟨first, hcount, hfirst⟩, hposting, hcalls, hqueue⟩ := countSnapshot_cases { s with dataQ := q } cb
  have hsession := InSession.countSnapshot (h.inSession.congr (t := { s with dataQ := q }) rfl rfl rfl rfl rfl)
    hactive hrcvd
    htype hlast
  have hnodes' : (CbNotifier.countSnapshot { s with dataQ := q }).dataQ.nodes = rest := hqueue ▸ hq
  rcases hlast with rfl | rfl
  · refine h.head (first ++ [.jpegCb cb]) hnodes hnodes' ?_ hposting hcalls (fun ok => ?_) (fun _ => ?_)
      (fun _ a ha => ?_) (fun e he => ?_) (fun a ha => ?_) hsession
    · rw [← append_assoc, ← hcount]
      rfl
    · rw [answered_append, hfirst.answered]
      rfl
    · rw [settled_append, hfirst.settled]
      rfl
    · rw [settled_append, hfirst.settled] at ha
      exact mem_singleton.mp ha
    · rcases mem_append.mp he with he | he
      · exact hfirst.about e he
      · obtain rfl := mem_singleton.mp he
        exact .inr rfl
    · rcases mem_append.mp ha with ha | ha
      · exact absurd ha (hfirst.jpegCb a)
      · cases mem_singleton.mp ha
        exact htype
  · have hdata : Plain cb [.dataCb cb] := plain_single rfl (by simp) (.inr rfl)
    refine h.released .noError hnodes hnodes' ?_ hposting hcalls (hfirst.append hdata) hsession
    change _ ++ (NotifierEvent.dataCb cb :: release .noError cb) = _
    rw [hcount, append_assoc, append_assoc]
    rfl

theorem Ledger.handleCallback (h : s.Ledger)
    {enabled : Bool} {u : CbNotifier} (hnodes : s.dataQ.nodes = cb :: rest)
    (hu : ∃ q : QCameraQueue CallbackArgm, q.nodes = rest ∧ u = { s with dataQ := q })
    (hkept : cb.cbType = .dataSnapshot → enabled = true →
      (cb.releaseCb = true → s.isSnapshotActive = true ∧ s.dataCb = true) ∧
        s.numOfSnapshotRcvd + 1 < 2 ^ 32) : (u.handleCallback cb enabled).Ledger := by
  obtain ⟨q, hq, rfl⟩ := hu
  simp only [CbNotifier.handleCallback]
  split
  · rename_i hon
    split
    · split
      · exact h.plain _ hnodes hq (.inr (.inl rfl))
      · exact h.plain _ hnodes hq (.inl rfl)
    · rename_i htype
      split
      · exact h.plain _ hnodes hq (.inr (.inr (.inr ⟨rfl, htype⟩)))
      · exact h.plain _ hnodes hq (.inl rfl)
    · split
      · exact h.plain _ hnodes hq (.inr (.inr (.inl rfl)))
      · exact h.plain _ hnodes hq (.inl rfl)
    · rename_i htype
      obtain ⟨hsession, hrcvd⟩ := hkept htype hon
      split
      · rename_i hactive
        refine h.snapshot hnodes hq htype hactive.1 hrcvd ?_
        split
        · exact .inl rfl
        · exact .inr rfl
      · rename_i hidle
        have hrel : cb.releaseCb = false := by
          by_contra hrel
          exact hidle (hsession (by simpa using hrel))
        refine h.head [] hnodes hq (append_nil _).symm rfl rfl (fun _ => rfl)
          (fun hr => ?_) (fun _ a ha => ?_) (fun e he => ?_) (fun a ha => ?_)
          (h.inSession.congr rfl rfl rfl rfl rfl)
        · rw [hrel] at hr
          cases hr
        · cases ha
        · cases he
        · cases ha
    · exact h.plain .badValue hnodes hq (.inl rfl)
  · exact h.plain .invalidOperation hnodes hq (.inl rfl)

/-- **What a command of the thread preserves.** -/
theorem Ledger.thread (h : s.Ledger) {enabled : CallbackArgm → Bool} {expected : ℕ} {longshot : Bool}
    (hkept : s.Kept (.thread enabled expected longshot)) {cmd : CameraCmdType} {th : QCameraCmdThread}
    (hget : s.procTh.getCmd = some (cmd, th)) :
    ({ s with procTh := th }.handleCmd cmd enabled expected longshot).Ledger := by
  have hbase : { s with procTh := th }.Ledger := h.of_eq rfl rfl rfl rfl rfl rfl rfl rfl
  cases cmd with
  | startDataProc =>
    refine hbase.boundary (e := .started expected longshot) rfl rfl rfl rfl rfl (by simp) rfl ?_
    simp only [handleCmd, CbNotifier.emit, session_append, if_true]
    rfl
  | stopDataProc =>
    refine (hbase.flushNodes matchSnapshotNotifications).boundary (e := .stopped) rfl rfl rfl rfl
      rfl (by simp) rfl ?_
    simp only [handleCmd, CbNotifier.emit, session_append, Bool.false_eq_true, if_false]
    rfl
  | doNextJob =>
    have hcmd : s.procTh.cmdQueue.nodes.head? = some .doNextJob := by
      rw [QCameraCmdThread.getCmd] at hget
      split at hget
      · cases hget
      · have hgot := congrArg Prod.fst (Option.some.inj hget)
        simp only [QCameraQueue.fst_dequeue] at hgot
        cases hhead : s.procTh.cmdQueue.nodes.head? with
        | none =>
          rw [hhead] at hgot
          cases hgot
        | some c =>
          rw [hhead] at hgot
          exact congrArg some hgot
    have hhead := hkept hcmd
    have hnode := s.dataQ.fst_dequeue
    have hrest := s.dataQ.nodes_dequeue
    simp only [handleCmd]
    generalize s.dataQ.dequeue = r at hnode hrest
    obtain ⟨node, q⟩ := r
    cases hnodes : s.dataQ.nodes with
    | nil =>
      rw [hnodes] at hnode hrest
      obtain rfl : node = none := hnode
      exact hbase.of_eq (hrest.trans hnodes.symm) rfl rfl rfl rfl rfl rfl rfl
    | cons cb rest =>
      rw [hnodes] at hnode hrest
      obtain rfl : node = some cb := hnode
      exact hbase.handleCallback hnodes ⟨q, hrest, rfl⟩ (hhead cb (by rw [hnodes]; rfl))
  | exit => exact h.exited th enabled expected longshot
  | none => exact hbase

theorem Ledger.next (h : s.Ledger) {input : Input} (hkept : s.Kept input) (ht : s.next input = some t) : t.Ledger := by
  cases input with
  | setCallbacks n d ts c =>
    cases ht
    rw [CbNotifier.setCallbacks]
    split
    · exact h.of_eq rfl rfl rfl rfl rfl rfl rfl rfl
    · exact h
  | setJpegCallBacks jpegCb =>
    cases ht
    exact h.of_eq rfl rfl rfl rfl rfl rfl rfl rfl
  | notifyCallback cbType msgType releaseCb mallocNode =>
    cases ht
    exact h.enqueueCallback cbType msgType releaseCb mallocNode
  | sendDoNextJob arg mallocCmd mallocNode =>
    simp only [CbNotifier.next] at ht
    split at ht
    · rename_i hmem
      cases ht
      obtain rfl : mallocCmd = true := hkept
      exact h.sendDoNextJob hmem mallocNode
    · cases ht
  | startSnapshots mallocCmd mallocNode =>
    cases ht
    exact h.of_eq rfl rfl rfl rfl rfl rfl rfl rfl
  | stopSnapshots mallocCmd mallocNode =>
    cases ht
    exact h.of_eq rfl rfl rfl rfl rfl rfl rfl rfl
  | flushPreviewNotifications =>
    cases ht
    rw [flushNotifications]
    split
    · exact h.flushNodes _
    · exact h
  | flushVideoNotifications =>
    cases ht
    rw [flushNotifications]
    split
    · exact h.flushNodes _
    · exact h
  | exit mallocCmd mallocNode =>
    cases ht
    exact h.of_eq rfl rfl rfl rfl rfl rfl rfl rfl
  | thread enabled expected longshot =>
    simp only [CbNotifier.next] at ht
    split at ht
    · obtain ⟨⟨cmd, th⟩, hget, rfl⟩ := Option.map_eq_some_iff.mp ht
      exact h.thread hkept hget
    · cases ht

/-- A call of `notifyCallback`, the `id`th, with its command. -/
def notify (id : ℕ) (cbType : CallbackType) : List Input :=
  [.notifyCallback cbType 0 true true, .sendDoNextJob ⟨id, cbType, 0, true⟩ true true]

/-- The callbacks are set, and the thread launched. -/
def launch : Input := .setCallbacks true true true true

/-- A command of the thread, with one snapshot expected. -/
def command : Input := .thread (fun _ => true) 1 false

instance (s : CbNotifier) : DecidablePred s.Kept := fun e => by
  delta Kept
  cases e <;> infer_instance

end CbNotifier

end Marlin
