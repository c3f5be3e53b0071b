import Mathlib.Data.List.Nodup
import Marlin.CmdThread
import Marlin.Transition

/-!
# Pairing the Pictures of Two Cameras

`QCameraMuxer` puts the JPEGs of a main and an auxiliary camera in two queues, and its compose thread
makes one multi-picture file of a JPEG of each. The thread takes what is at the heads of the queues:
it never looks at the frame indices, though each node has its own, and though `matchFrameId` and
`findPreviousJpegs` are there to find a node by it.

## Conventions

* The callbacks of the two cameras, the compose thread and the calls of the framework run side by
  side. A step is what is done under one lock: a callback puts its JPEG in the queue and then sends
  the command; the compose thread looks at one queue, or takes a node.
* Allocations, and what becomes of a composition, are taken from the environment.
* `log` records what the environment sees.

## Main results

* `Paired`: the queues are aligned, and every JPEG since the last flush is waiting or composed.
* `composed_once_run`: as long as each JPEG has the frame index of the one at its place in the other
  queue, the pairs agree, and each frame is composed once.
* `composed_shifted`: one JPEG is lost, and the next is composed with its neighbour.
-/

namespace Marlin

open List Option Bool Transition

/-- `cam_sync_type_t`. -/
inductive CamSyncType
  | main
  | aux
  deriving DecidableEq

/-- `cam_compose_jpeg_info_t`: the frame index, and whether there are a `release_cb` and `release_data`. -/
structure ComposeJpegInfo where
  frameIdx : ℕ
  releaseCb : Bool := true
  releaseData : Bool := true
  deriving DecidableEq

/-- The other camera. -/
def CamSyncType.other : CamSyncType → CamSyncType
  | .main => .aux
  | .aux => .main

/-- What the environment sees. -/
inductive MuxerEvent
  | delivered (cam : CamSyncType) (frameIdx : ℕ)
  | dataCb (frameIdx : ℕ)
  | released (cam : CamSyncType) (frameIdx : ℕ)
  | evtError
  | flushed (cam : CamSyncType)
  | composed (main aux : ℕ)
  deriving DecidableEq

/-- A flush of a queue. -/
def MuxerEvent.isFlush : MuxerEvent → Bool
  | .flushed _ => true
  | _ => false

/-- Where the compose thread is: it waits for a command, looks at a queue, takes a node, or composes. -/
inductive ComposePc
  | wait
  | checkMain
  | checkAux
  | takeMain
  | takeAux (main : ComposeJpegInfo)
  | compose (main aux : ComposeJpegInfo)
  | exited
  deriving DecidableEq

/-- `QCameraMuxer`, with the local `is_active` of the compose thread. `storing` is a callback of the
camera between `enqueue` and `sendCmd`. -/
structure QCameraMuxer where
  mpoEnabled : Bool := true
  mainJpegQ : QCameraQueue ComposeJpegInfo := {}
  auxJpegQ : QCameraQueue ComposeJpegInfo := {}
  composeMpoTh : QCameraCmdThread := {}
  isActive : Bool := false
  pc : ComposePc := .wait
  storingMain : Bool := false
  storingAux : Bool := false
  log : List MuxerEvent := []

namespace QCameraMuxer

/-! ### The callbacks of the cameras -/

/-- Record events. -/
def emit (s : QCameraMuxer) (events : List MuxerEvent) : QCameraMuxer :=
  { s with log := s.log ++ events }

/-- The call of a `release_cb`. -/
def release (cam : CamSyncType) (jpeg : ComposeJpegInfo) : List MuxerEvent :=
  if jpeg.releaseCb then [.released cam jpeg.frameIdx] else []

/-- `releaseJpegInfo`, for a node of a queue that is flushed. -/
def releaseJpegInfo (cam : CamSyncType) (jpeg : ComposeJpegInfo) : List MuxerEvent :=
  if jpeg.releaseData then release cam jpeg else []

/-- `storeJpeg` up to the command, and the error that `jpeg_data_callback` reports when it fails. -/
def storeJpeg (s : QCameraMuxer) (cam : CamSyncType) (jpeg : ComposeJpegInfo)
    (mallocFrame mallocNode : Bool) : QCameraMuxer :=
  if s.mpoEnabled = false then
    s.emit ((if cam = .main then [.dataCb jpeg.frameIdx] else []) ++ release cam jpeg)
  else if mallocFrame = false then s.emit [.evtError]
  else
    match cam with
    | .main =>
      match s.mainJpegQ.enqueue mallocNode jpeg with
      | (true, q) => { s with mainJpegQ := q, storingMain := true }
      | (false, _) => s.emit (release cam jpeg ++ [.evtError])
    | .aux =>
      match s.auxJpegQ.enqueue mallocNode jpeg with
      | (true, q) => { s with auxJpegQ := q, storingAux := true }
      | (false, _) => s.emit (release cam jpeg ++ [.evtError])

/-- `jpeg_data_callback`, up to the command. -/
def jpegDataCallback (s : QCameraMuxer) (cam : CamSyncType) (data : Option ComposeJpegInfo)
    (mallocFrame mallocNode : Bool) : QCameraMuxer :=
  match data with
  | none => s.emit [.evtError]
  | some jpeg =>
    (s.emit [.delivered cam jpeg.frameIdx]).storeJpeg cam jpeg mallocFrame mallocNode

/-- The end of `storeJpeg`: a command is sent if there is a JPEG in the queue still. -/
def triggerCompose (s : QCameraMuxer) (cam : CamSyncType) (mallocCmd mallocNode : Bool) :
    QCameraMuxer :=
  let th := (s.composeMpoTh.sendCmd mallocCmd mallocNode .doNextJob false).2
  match cam with
  | .main => { s with
      storingMain := false
      composeMpoTh := if s.mainJpegQ.isEmpty then s.composeMpoTh else th }
  | .aux => { s with
      storingAux := false
      composeMpoTh := if s.auxJpegQ.isEmpty then s.composeMpoTh else th }

/-! ### The compose thread -/

/-- The end of `composeMpo` and the release of the two nodes. -/
def composeMpo (s : QCameraMuxer) (main aux : ComposeJpegInfo) (getMemory composeOk : Bool) :
    QCameraMuxer :=
  s.emit ((if getMemory ∧ composeOk then [.composed main.frameIdx aux.frameIdx] else [.evtError]) ++
    release .main main ++ release .aux aux)

/-- A command of the compose thread. -/
def takeCmd (s : QCameraMuxer) : CameraCmdType → QCameraMuxer
  | .startDataProc => { s with isActive := true }
  | .stopDataProc => { s with isActive := false }
  | .doNextJob => if s.isActive then { s with pc := .checkMain } else s
  | .exit => { s with pc := .exited }
  | .none => s

/-- The next step of `composeMpoRoutine`, if the thread does not wait. -/
def composeMpoRoutine (s : QCameraMuxer) (getMemory composeOk : Bool) : Option QCameraMuxer :=
  match s.pc with
  | .wait => s.composeMpoTh.getCmd.map fun r => { s with composeMpoTh := r.2 }.takeCmd r.1
  | .checkMain => some { s with pc := if s.mainJpegQ.isEmpty then .wait else .checkAux }
  | .checkAux => some { s with pc := if s.auxJpegQ.isEmpty then .wait else .takeMain }
  | .takeMain =>
    match s.mainJpegQ.dequeue with
    | (some main, q) => some { s with mainJpegQ := q, pc := .takeAux main }
    | (none, q) => some { s with mainJpegQ := q, pc := .checkMain }
  | .takeAux main =>
    match s.auxJpegQ.dequeue with
    | (some aux, q) => some { s with auxJpegQ := q, pc := .compose main aux }
    | (none, q) => some ({ s with auxJpegQ := q, pc := .checkMain }.emit (release .main main))
  | .compose main aux => some ({ s with pc := .checkMain }.composeMpo main aux getMemory composeOk)
  | .exited => none

/-! ### The muxer -/

/-- What can happen: a callback puts a JPEG in its queue; it sends its command; a queue is switched on
or flushed; a command is sent; the thread is told to exit; the next picture is taken with or without
composition; and the compose thread takes a step. -/
inductive Input
  | jpeg (cam : CamSyncType) (data : Option ComposeJpegInfo) (mallocFrame mallocNode : Bool)
  | trigger (cam : CamSyncType) (mallocCmd mallocNode : Bool)
  | init (cam : CamSyncType)
  | flush (cam : CamSyncType)
  | sendCmd (cmd : CameraCmdType) (mallocCmd mallocNode : Bool)
  | exit (mallocCmd mallocNode : Bool)
  | setMpoEnabled (on : Bool)
  | thread (getMemory composeOk : Bool)

/-- A callback of the camera has not sent its command yet. -/
def storing (s : QCameraMuxer) : CamSyncType → Bool
  | .main => s.storingMain
  | .aux => s.storingAux

/-- A queue is switched on. -/
def initJpegQ (s : QCameraMuxer) : CamSyncType → QCameraMuxer
  | .main => { s with mainJpegQ := s.mainJpegQ.init }
  | .aux => { s with auxJpegQ := s.auxJpegQ.init }

/-- A queue is flushed; `releaseJpegInfo` releases its nodes. -/
def flushJpegQ (s : QCameraMuxer) : CamSyncType → QCameraMuxer
  | .main => { s with mainJpegQ := s.mainJpegQ.flush.2 }.emit
      (s.mainJpegQ.flush.1.flatMap (releaseJpegInfo .main) ++ [MuxerEvent.flushed .main])
  | .aux => { s with auxJpegQ := s.auxJpegQ.flush.2 }.emit
      (s.auxJpegQ.flush.1.flatMap (releaseJpegInfo .aux) ++ [MuxerEvent.flushed .aux])

/-- One step of the muxer. -/
def next (s : QCameraMuxer) : Input → Option QCameraMuxer
  | .jpeg cam data mallocFrame mallocNode =>
    if s.storing cam then none else some (s.jpegDataCallback cam data mallocFrame mallocNode)
  | .trigger cam mallocCmd mallocNode =>
    if s.storing cam then some (s.triggerCompose cam mallocCmd mallocNode) else none
  | .init cam => some (s.initJpegQ cam)
  | .flush cam => some (s.flushJpegQ cam)
  | .sendCmd cmd mallocCmd mallocNode => some { s with
      composeMpoTh := (s.composeMpoTh.sendCmd mallocCmd mallocNode cmd false).2 }
  | .exit mallocCmd mallocNode => some { s with
      composeMpoTh := (s.composeMpoTh.sendCmd mallocCmd mallocNode .exit true).2 }
  | .setMpoEnabled on => some { s with mpoEnabled := on }
  | .thread getMemory composeOk => s.composeMpoRoutine getMemory composeOk

/-! ### What the record says -/

/-- The frame indices of the composed pairs. -/
def composedPairs (log : List MuxerEvent) : List (ℕ × ℕ) :=
  log.filterMap fun
    | .composed main aux => some (main, aux)
    | _ => none

/-- The frame indices that a camera has delivered. -/
def deliveredBy (cam : CamSyncType) (log : List MuxerEvent) : List ℕ :=
  log.filterMap fun
    | .delivered c frameIdx => if c = cam then some frameIdx else none
    | _ => none

/-- The record since the last flush of a queue, the last event first. -/
def sinceFlush (log : List MuxerEvent) : List MuxerEvent :=
  log.reverse.takeWhile fun e => !e.isFlush

/-- The frames that a camera has delivered since the last flush of a queue. -/
def recent (cam : CamSyncType) (log : List MuxerEvent) : List ℕ := deliveredBy cam (sinceFlush log)

/-- An event that is no delivery, no flush and no composition. -/
def Quiet (e : MuxerEvent) : Prop :=
  (∀ cam i, e ≠ .delivered cam i) ∧ e.isFlush = false ∧ ∀ i j, e ≠ .composed i j

theorem quiet_release (cam : CamSyncType) (jpeg : ComposeJpegInfo) : ∀ e ∈ release cam jpeg, Quiet e := by
  intro e he
  rw [release] at he
  split at he
  · obtain rfl := mem_singleton.mp he
    exact ⟨by simp, rfl, by simp⟩
  · cases he

theorem composedPairs_append (log events : List MuxerEvent) :
    composedPairs (log ++ events) = composedPairs log ++ composedPairs events :=
  filterMap_append

theorem deliveredBy_append (cam : CamSyncType) (log events : List MuxerEvent) :
    deliveredBy cam (log ++ events) = deliveredBy cam log ++ deliveredBy cam events :=
  filterMap_append

variable {events : List MuxerEvent}

theorem sinceFlush_append {log : List MuxerEvent} (h : ∀ e ∈ events, e.isFlush = false) :
    sinceFlush (log ++ events) = events.reverse ++ sinceFlush log := by
  rw [sinceFlush, reverse_append, takeWhile_append_of_pos]
  · rfl
  · intro e he
    rw [h e (mem_reverse.mp he)]
    rfl

theorem sinceFlush_flushed (log : List MuxerEvent) (cam : CamSyncType) : sinceFlush (log ++ [.flushed cam]) = [] := by
  simp [sinceFlush, MuxerEvent.isFlush]

theorem composedPairs_quiet (h : ∀ e ∈ events, Quiet e) : composedPairs events = [] := by
  rw [composedPairs, filterMap_eq_nil_iff]
  intro e he
  have hquiet := (h e he).2.2
  cases e with
  | composed i j => exact absurd rfl (hquiet i j)
  | _ => rfl

variable {cam : CamSyncType}

theorem deliveredBy_quiet (h : ∀ e ∈ events, Quiet e) : deliveredBy cam events = [] := by
  rw [deliveredBy, filterMap_eq_nil_iff]
  intro e he
  have hquiet := (h e he).1
  cases e with
  | delivered c i => exact absurd rfl (hquiet c i)
  | _ => rfl

theorem recent_quiet {log : List MuxerEvent} (h : ∀ e ∈ events, Quiet e) :
    recent cam (log ++ events) = recent cam log := by
  have hrev : ∀ e ∈ events.reverse, Quiet e := fun e he => h e (mem_reverse.mp he)
  rw [recent, sinceFlush_append fun e he => (h e he).2.1, deliveredBy_append,
    deliveredBy_quiet hrev, nil_append, recent]

/-! ### Two lists in step -/

/-- One of the two lists goes on where the other ends. -/
def Aligned (xs ys : List ℕ) : Prop := xs <+: ys ∨ ys <+: xs

variable {xs ys : List ℕ}

theorem Aligned.symm (h : Aligned xs ys) : Aligned ys xs := Or.symm h

variable {i : ℕ}

theorem Aligned.append (h : Aligned xs ys) (hi : ∀ j, ys[xs.length]? = some j → j = i) : Aligned (xs ++ [i]) ys := by
  rcases h with ⟨rest, rfl⟩ | hpre
  · cases rest with
    | nil => exact .inr ⟨[i], by simp⟩
    | cons j rest =>
      obtain rfl := hi j (by simp)
      exact .inl ⟨rest, by simp⟩
  · exact .inr (hpre.trans (prefix_append xs [i]))

theorem Aligned.cons {j : ℕ} (h : Aligned (i :: xs) (j :: ys)) : i = j ∧ Aligned xs ys := by
  rcases h with h | h
  · obtain ⟨rfl, hpre⟩ := cons_prefix_cons.mp h
    exact ⟨rfl, .inl hpre⟩
  · obtain ⟨rfl, hpre⟩ := cons_prefix_cons.mp h
    exact ⟨rfl, .inr hpre⟩

theorem Aligned.left {xs' : List ℕ} (h : Aligned xs ys) (hpre : xs' <+: xs) : Aligned xs' ys := by
  rcases h with h | h
  · exact .inl (hpre.trans h)
  · exact prefix_or_prefix_of_prefix hpre h

theorem aligned_nil (xs : List ℕ) : Aligned xs [] := .inr nil_prefix

/-! ### The condition -/

/-- The frame index of the main JPEG that the compose thread holds. -/
def heldMain : ComposePc → List ℕ
  | .takeAux main | .compose main _ => [main.frameIdx]
  | _ => []

/-- The frame index of the auxiliary JPEG that the compose thread holds. -/
def heldAux : ComposePc → List ℕ
  | .compose _ aux => [aux.frameIdx]
  | _ => []

/-- The JPEGs of a camera that are held or queued. -/
def waiting (s : QCameraMuxer) : CamSyncType → List ℕ
  | .main => heldMain s.pc ++ s.mainJpegQ.nodes.map (·.frameIdx)
  | .aux => heldAux s.pc ++ s.auxJpegQ.nodes.map (·.frameIdx)

/-- The queue of a camera. -/
def jpegQ (s : QCameraMuxer) : CamSyncType → QCameraQueue ComposeJpegInfo
  | .main => s.mainJpegQ
  | .aux => s.auxJpegQ

/-- Whether the compose thread is active behind a list of commands. -/
def activeAfter (isActive : Bool) (cmds : List CameraCmdType) : Bool :=
  cmds.foldl (fun a cmd => match cmd with
    | .startDataProc => true
    | .stopDataProc => false
    | _ => a) isActive

/-- **The JPEG fits**: it is later than those before it, it is put in its queue, the JPEG at its place
in the other queue has the same frame index, and a main JPEG does not get in a round of the compose
thread whose auxiliary queue was flushed meanwhile. -/
def Fits (s : QCameraMuxer) (cam : CamSyncType) (jpeg : ComposeJpegInfo) (mallocFrame mallocNode : Bool) : Prop :=
  (∀ i ∈ deliveredBy cam s.log, i < jpeg.frameIdx) ∧
  (s.mpoEnabled = true ∧ mallocFrame = true ∧ mallocNode = true ∧ (s.jpegQ cam).active = true) ∧
  (∀ j ∈ (s.waiting cam.other)[(s.waiting cam).length]?, j = jpeg.frameIdx) ∧
  (cam = .main → s.pc = .takeMain → s.auxJpegQ.nodes ≠ [])

/-- **The condition**: JPEGs fit, their commands reach a thread that is started, and a composition
succeeds. -/
def InStep (s : QCameraMuxer) : Input → Prop
  | .jpeg cam (some jpeg) mallocFrame mallocNode => s.Fits cam jpeg mallocFrame mallocNode
  | .trigger cam mallocCmd mallocNode =>
    (s.jpegQ cam).nodes ≠ [] → mallocCmd = true ∧ mallocNode = true ∧ s.composeMpoTh.cmdQueue.active = true ∧
        activeAfter s.isActive s.composeMpoTh.cmdQueue.nodes = true
  | .thread getMemory composeOk =>
    heldAux s.pc ≠ [] → getMemory = true ∧ composeOk = true
  | _ => True

instance (s : QCameraMuxer) (cam : CamSyncType) (jpeg : ComposeJpegInfo)
    (mallocFrame mallocNode : Bool) : Decidable (s.Fits cam jpeg mallocFrame mallocNode) :=
  inferInstanceAs (Decidable (_ ∧ _ ∧ _ ∧ _))

instance (s : QCameraMuxer) : DecidablePred s.InStep := fun e => by
  delta InStep
  cases e with
  | jpeg cam data => cases data <;> infer_instance
  | _ => infer_instance

/-! ### The invariant -/

/-- A `DO_NEXT_JOB` comes while the thread is active. -/
def JobAhead : Bool → List CameraCmdType → Prop
  | _, [] => False
  | _, .startDataProc :: cmds => JobAhead true cmds
  | _, .stopDataProc :: cmds => JobAhead false cmds
  | isActive, .doNextJob :: cmds => isActive = true ∨ JobAhead isActive cmds
  | isActive, _ :: cmds => JobAhead isActive cmds

/-- The main frames of the composed pairs. -/
def composedMain (log : List MuxerEvent) : List ℕ := (composedPairs log).map Prod.fst

/-- **The invariant.** The pairs agree, and what waits is in step; main frames are composed in order,
each once; a frame delivered since the last flush waits or is composed; and where both queues have
JPEGs, the compose thread is at work or will be. -/
structure Paired (s : QCameraMuxer) : Prop where
  pairs : ∀ p ∈ composedPairs s.log, p.1 = p.2
  aligned : Aligned (s.waiting .main) (s.waiting .aux)
  order : (composedMain s.log ++ s.waiting .main).Pairwise (· < ·)
  known : ∀ i ∈ composedMain s.log ++ s.waiting .main, i ∈ deliveredBy .main s.log
  kept : ∀ cam, ∀ i ∈ recent cam s.log, i ∈ s.waiting cam ∨ i ∈ composedMain s.log
  flushedTake : s.pc = .takeMain → s.auxJpegQ.nodes = [] → recent .main s.log = []
  flushedHeld : ∀ main, s.pc = .takeAux main → s.auxJpegQ.nodes = [] → main.frameIdx ∉ recent .main s.log
  awake : s.pc = .wait → s.mainJpegQ.nodes ≠ [] → s.auxJpegQ.nodes ≠ [] →
    s.storingMain = true ∨ s.storingAux = true ∨ JobAhead s.isActive s.composeMpoTh.cmdQueue.nodes

/-- A muxer whose cameras have delivered nothing. -/
structure Fresh (s : QCameraMuxer) : Prop where
  pc : s.pc = .wait
  mainEmpty : s.mainJpegQ.nodes = []
  auxEmpty : s.auxJpegQ.nodes = []
  log : s.log = []

theorem Fresh.paired {s : QCameraMuxer} (h : s.Fresh) : s.Paired := by
  have hwait : ∀ cam, s.waiting cam = [] := by
    intro cam
    cases cam with
    | main => simp [waiting, h.pc, heldMain, h.mainEmpty]
    | aux => simp [waiting, h.pc, heldAux, h.auxEmpty]
  have hcomposed : composedMain s.log = [] := by
    rw [h.log]
    rfl
  refine ⟨?_, ?_, ?_, ?_, ?_, ?_, ?_, ?_⟩
  · rw [h.log]
    simp [composedPairs]
  · rw [hwait, hwait]
    exact aligned_nil _
  · rw [hwait, hcomposed]
    exact .nil
  · rw [hwait, hcomposed]
    simp
  · intro cam i hi
    rw [h.log] at hi
    cases hi
  · intro hpc
    rw [h.pc] at hpc
    cases hpc
  · intro main hpc
    rw [h.pc] at hpc
    cases hpc
  · intro _ hmain
    exact absurd h.mainEmpty hmain

variable {isActive : Bool}

theorem JobAhead.append {cmds : List CameraCmdType} (cmd : CameraCmdType)
    (h : JobAhead isActive cmds) : JobAhead isActive (cmds ++ [cmd]) := by
  induction cmds generalizing isActive with
  | nil => exact absurd h id
  | cons c cmds ih =>
    cases c with
    | startDataProc => exact @ih true h
    | stopDataProc => exact @ih false h
    | doNextJob => exact h.imp id ih
    | exit => exact @ih isActive h
    | none => exact @ih isActive h

theorem jobAhead_snoc {cmds : List CameraCmdType}
    (h : activeAfter isActive cmds = true) : JobAhead isActive (cmds ++ [.doNextJob]) := by
  induction cmds generalizing isActive with
  | nil => exact .inl h
  | cons c cmds ih =>
    cases c with
    | startDataProc => exact @ih true h
    | stopDataProc => exact @ih false h
    | doNextJob => exact .inr (ih h)
    | exit => exact @ih isActive h
    | none => exact @ih isActive h

variable {s t : QCameraMuxer}

theorem Paired.of_eq (h : s.Paired) (hlog : t.log = s.log) (hpc : t.pc = s.pc)
    (hmain : t.mainJpegQ.nodes = s.mainJpegQ.nodes) (haux : t.auxJpegQ.nodes = s.auxJpegQ.nodes)
    (hawake : t.pc = .wait → t.mainJpegQ.nodes ≠ [] → t.auxJpegQ.nodes ≠ [] →
      t.storingMain = true ∨ t.storingAux = true ∨ JobAhead t.isActive t.composeMpoTh.cmdQueue.nodes) : t.Paired := by
  have hwait : ∀ cam, t.waiting cam = s.waiting cam := by
    intro cam
    cases cam with
    | main => simp only [waiting, hpc, hmain]
    | aux => simp only [waiting, hpc, haux]
  refine ⟨?_, ?_, ?_, ?_, ?_, ?_, ?_, hawake⟩
  · rw [hlog]
    exact h.pairs
  · rw [hwait, hwait]
    exact h.aligned
  · rw [hlog, hwait]
    exact h.order
  · rw [hlog, hwait]
    exact h.known
  · rw [hlog]
    intro cam
    rw [hwait]
    exact h.kept cam
  · rw [hlog, hpc, haux]
    exact h.flushedTake
  · rw [hlog, hpc, haux]
    exact h.flushedHeld

theorem jobAhead_sendCmd {th : QCameraCmdThread} (mallocCmd mallocNode : Bool)
    (cmd : CameraCmdType) (priority : Bool) (hexit : priority = true → cmd = .exit)
    (h : JobAhead isActive th.cmdQueue.nodes) :
    JobAhead isActive (th.sendCmd mallocCmd mallocNode cmd priority).2.cmdQueue.nodes := by
  rw [QCameraCmdThread.sendCmd]
  split
  · cases priority with
    | true =>
      obtain rfl := hexit rfl
      rcases th.cmdQueue.enqueueWithPriority_cases mallocNode .exit with ⟨-, hq⟩ | hq
      · simp only [if_true, hq]
        exact h
      · simp only [if_true, hq]
        exact h
    | false =>
      rcases th.cmdQueue.enqueue_cases mallocNode cmd with ⟨-, hq⟩ | hq
      · simp only [false_eq_true, if_false, hq]
        exact h.append cmd
      · simp only [false_eq_true, if_false, hq]
        exact h
  · exact h

theorem Paired.sendCmd (h : s.Paired) (mallocCmd mallocNode : Bool) (cmd : CameraCmdType)
    (priority : Bool) (hexit : priority = true → cmd = .exit) :
    { s with composeMpoTh :=
        (s.composeMpoTh.sendCmd mallocCmd mallocNode cmd priority).2 }.Paired := by
  refine h.of_eq rfl rfl rfl rfl fun hpc hmain haux => ?_
  rcases h.awake hpc hmain haux with hs | hs | hjob
  · exact .inl hs
  · exact .inr (.inl hs)
  · exact .inr (.inr (jobAhead_sendCmd mallocCmd mallocNode cmd priority hexit hjob))

variable {mallocNode : Bool}

theorem Paired.triggerCompose (h : s.Paired) {mallocCmd : Bool} (hstep : s.InStep (.trigger cam mallocCmd mallocNode)) :
    (s.triggerCompose cam mallocCmd mallocNode).Paired := by
  have hjob : (s.jpegQ cam).nodes ≠ [] →
      JobAhead s.isActive (s.composeMpoTh.sendCmd mallocCmd mallocNode .doNextJob false).2.cmdQueue.nodes := by
    intro hne
    obtain ⟨rfl, rfl, hqueue, hactive⟩ := hstep hne
    obtain ⟨-, hnodes⟩ := s.composeMpoTh.cmdQueue.enqueue_of_active hqueue .doNextJob
    simp only [QCameraCmdThread.sendCmd, if_true, false_eq_true, if_false, hnodes]
    exact jobAhead_snoc hactive
  cases cam with
  | main =>
    refine h.of_eq rfl rfl rfl rfl fun _ hmain _ => .inr (.inr ?_)
    have hne : ¬ s.mainJpegQ.isEmpty = true := fun he => hmain ((s.mainJpegQ.isEmpty_iff).mp he)
    simp only [QCameraMuxer.triggerCompose, if_neg hne]
    exact hjob hmain
  | aux =>
    refine h.of_eq rfl rfl rfl rfl fun _ _ haux => .inr (.inr ?_)
    have hne : ¬ s.auxJpegQ.isEmpty = true := fun he => haux ((s.auxJpegQ.isEmpty_iff).mp he)
    simp only [QCameraMuxer.triggerCompose, if_neg hne]
    exact hjob haux

theorem Paired.initJpegQ (h : s.Paired) (cam : CamSyncType) : (s.initJpegQ cam).Paired := by
  cases cam with
  | main => exact h.of_eq rfl rfl rfl rfl h.awake
  | aux => exact h.of_eq rfl rfl rfl rfl h.awake

theorem Paired.emit (h : s.Paired) (hquiet : ∀ e ∈ events, Quiet e) : (s.emit events).Paired := by
  have hpairs : composedPairs (s.log ++ events) = composedPairs s.log := by
    rw [composedPairs_append, composedPairs_quiet hquiet, append_nil]
  have hmain : composedMain (s.log ++ events) = composedMain s.log := by
    rw [composedMain, hpairs, composedMain]
  have hdelivered : ∀ cam, deliveredBy cam (s.log ++ events) = deliveredBy cam s.log := by
    intro cam
    rw [deliveredBy_append, deliveredBy_quiet hquiet, append_nil]
  have hrecent : ∀ cam, recent cam (s.log ++ events) = recent cam s.log := fun _ =>
    recent_quiet hquiet
  refine ⟨?_, h.aligned, ?_, ?_, ?_, ?_, ?_, h.awake⟩
  · simp only [QCameraMuxer.emit, hpairs]
    exact h.pairs
  · simp only [QCameraMuxer.emit, hmain]
    exact h.order
  · simp only [QCameraMuxer.emit, hmain, hdelivered]
    exact h.known
  · simp only [QCameraMuxer.emit, hmain, hrecent]
    exact h.kept
  · simp only [QCameraMuxer.emit, hrecent]
    exact h.flushedTake
  · simp only [QCameraMuxer.emit, hrecent]
    exact h.flushedHeld

/-! ### A JPEG comes in -/

theorem recent_delivered (cam c : CamSyncType) (log : List MuxerEvent) (i : ℕ) :
    recent cam (log ++ [.delivered c i]) = (if c = cam then [i] else []) ++ recent cam log := by
  rw [recent, sinceFlush_append, reverse_singleton, deliveredBy_append, recent]
  · congr 1
    rw [deliveredBy]
    split
    · simp [*]
    · simp [*]
  · intro e he
    obtain rfl := mem_singleton.mp he
    rfl

theorem composedPairs_delivered (cam : CamSyncType) (log : List MuxerEvent) (i : ℕ) :
    composedPairs (log ++ [.delivered cam i]) = composedPairs log := by
  rw [composedPairs_append]
  exact append_nil _

theorem composedMain_delivered (cam : CamSyncType) (log : List MuxerEvent) (i : ℕ) :
    composedMain (log ++ [.delivered cam i]) = composedMain log := by
  rw [composedMain, composedPairs_delivered, composedMain]

theorem Paired.kept_delivered (h : s.Paired) (hlog : t.log = s.log ++ [.delivered cam i])
    (hwait : ∀ c, t.waiting c = s.waiting c ++ if cam = c then [i] else []) :
    ∀ c, ∀ j ∈ recent c t.log, j ∈ t.waiting c ∨ j ∈ composedMain t.log := by
  intro c j hj
  rw [hlog, recent_delivered] at hj
  rw [hwait, hlog, composedMain_delivered]
  rcases mem_append.mp hj with hj | hj
  · exact .inl (mem_append_right _ hj)
  · exact (h.kept c j hj).imp (mem_append_left _) id

variable {mallocFrame : Bool}

theorem Paired.storeMain (h : s.Paired) {jpeg : ComposeJpegInfo} (hfits : s.Fits .main jpeg mallocFrame mallocNode)
    (hlog : t.log = s.log ++ [.delivered .main jpeg.frameIdx]) (hpc : t.pc = s.pc)
    (hmain : t.mainJpegQ.nodes = s.mainJpegQ.nodes ++ [jpeg]) (haux : t.auxJpegQ = s.auxJpegQ)
    (hstoring : t.storingMain = true) : t.Paired := by
  obtain ⟨hlater, -, hplace, hround⟩ := hfits
  have hwaitMain : t.waiting .main = s.waiting .main ++ [jpeg.frameIdx] := by
    simp [waiting, hpc, hmain]
  have hwaitAux : t.waiting .aux = s.waiting .aux := by
    simp only [waiting, hpc, haux]
  have hpairs : composedPairs t.log = composedPairs s.log := hlog ▸ composedPairs_delivered ..
  have hcomposed : composedMain t.log = composedMain s.log := hlog ▸ composedMain_delivered ..
  have hdelivered : deliveredBy .main t.log = deliveredBy .main s.log ++ [jpeg.frameIdx] := by
    rw [hlog, deliveredBy_append]
    rfl
  have hrecent : recent .main t.log = jpeg.frameIdx :: recent .main s.log := by
    rw [hlog, recent_delivered]
    rfl
  refine ⟨?_, ?_, ?_, ?_, ?_, ?_, ?_, fun _ _ _ => .inl hstoring⟩
  · rw [hpairs]
    exact h.pairs
  · rw [hwaitMain, hwaitAux]
    exact h.aligned.append fun j hj => hplace j hj
  · rw [hcomposed, hwaitMain, ← append_assoc]
    refine pairwise_append.mpr ⟨h.order, pairwise_singleton _ _, fun i hi j hj => ?_⟩
    obtain rfl := mem_singleton.mp hj
    exact hlater i (h.known i hi)
  · rw [hcomposed, hwaitMain, hdelivered, ← append_assoc]
    intro i hi
    rcases mem_append.mp hi with hi | hi
    · exact mem_append_left _ (h.known i hi)
    · exact mem_append_right _ hi
  · refine h.kept_delivered hlog fun c => ?_
    cases c with
    | main => exact hwaitMain
    | aux => exact hwaitAux.trans (append_nil _).symm
  · rw [hpc, haux]
    intro htake hempty
    exact absurd hempty (hround rfl htake)
  · rw [hpc, haux, hrecent]
    intro main hheld hempty hmem
    rcases mem_cons.mp hmem with heq | hmem
    · -- the JPEG that is held was delivered before
      have hknown := h.known main.frameIdx (mem_append_right _ (by simp [waiting, hheld, heldMain]))
      have hlt := hlater _ hknown
      omega
    · exact h.flushedHeld main hheld hempty hmem

theorem Paired.storeAux (h : s.Paired) {jpeg : ComposeJpegInfo} (hfits : s.Fits .aux jpeg mallocFrame mallocNode)
    (hlog : t.log = s.log ++ [.delivered .aux jpeg.frameIdx]) (hpc : t.pc = s.pc)
    (hmain : t.mainJpegQ = s.mainJpegQ) (haux : t.auxJpegQ.nodes = s.auxJpegQ.nodes ++ [jpeg])
    (hstoring : t.storingAux = true) : t.Paired := by
  obtain ⟨-, -, hplace, -⟩ := hfits
  have hwaitMain : t.waiting .main = s.waiting .main := by
    simp only [waiting, hpc, hmain]
  have hwaitAux : t.waiting .aux = s.waiting .aux ++ [jpeg.frameIdx] := by
    simp [waiting, hpc, haux]
  have hpairs : composedPairs t.log = composedPairs s.log := hlog ▸ composedPairs_delivered ..
  have hcomposed : composedMain t.log = composedMain s.log := hlog ▸ composedMain_delivered ..
  have hdelivered : deliveredBy .main t.log = deliveredBy .main s.log := by
    rw [hlog, deliveredBy_append]
    exact append_nil _
  have hne : t.auxJpegQ.nodes ≠ [] := by simp [haux]
  refine ⟨?_, ?_, ?_, ?_, ?_, fun _ hempty => absurd hempty hne,
    fun _ _ hempty => absurd hempty hne, fun _ _ _ => .inr (.inl hstoring)⟩
  · rw [hpairs]
    exact h.pairs
  · rw [hwaitMain, hwaitAux]
    exact (h.aligned.symm.append fun j hj => hplace j hj).symm
  · rw [hcomposed, hwaitMain]
    exact h.order
  · rw [hcomposed, hwaitMain, hdelivered]
    exact h.known
  · refine h.kept_delivered hlog fun c => ?_
    cases c with
    | main => exact hwaitMain.trans (append_nil _).symm
    | aux => exact hwaitAux

theorem Paired.jpegDataCallback (h : s.Paired) {data : Option ComposeJpegInfo}
    (hstep : s.InStep (.jpeg cam data mallocFrame mallocNode)) :
    (s.jpegDataCallback cam data mallocFrame mallocNode).Paired := by
  cases data with
  | none =>
    refine h.emit fun e he => ?_
    obtain rfl := mem_singleton.mp he
    exact ⟨by simp, rfl, by simp⟩
  | some jpeg =>
    have hfits : s.Fits cam jpeg mallocFrame mallocNode := hstep
    obtain ⟨-, ⟨hon, rfl, rfl, hactive⟩, -, -⟩ := hstep
    cases cam with
    | main =>
      obtain ⟨hok, hnodes⟩ := s.mainJpegQ.enqueue_of_active hactive jpeg
      generalize hq : s.mainJpegQ.enqueue true jpeg = q at hok hnodes
      obtain ⟨ok, q⟩ := q
      obtain rfl : ok = true := hok
      have hstore : s.jpegDataCallback .main (some jpeg) true true = { s.emit [.delivered .main jpeg.frameIdx] with
            mainJpegQ := q, storingMain := true } := by
        simp [QCameraMuxer.jpegDataCallback, storeJpeg, QCameraMuxer.emit, hon, hq]
      rw [hstore]
      exact h.storeMain hfits rfl rfl hnodes rfl rfl
    | aux =>
      obtain ⟨hok, hnodes⟩ := s.auxJpegQ.enqueue_of_active hactive jpeg
      generalize hq : s.auxJpegQ.enqueue true jpeg = q at hok hnodes
      obtain ⟨ok, q⟩ := q
      obtain rfl : ok = true := hok
      have hstore : s.jpegDataCallback .aux (some jpeg) true true = { s.emit [.delivered .aux jpeg.frameIdx] with
            auxJpegQ := q, storingAux := true } := by
        simp [QCameraMuxer.jpegDataCallback, storeJpeg, QCameraMuxer.emit, hon, hq]
      rw [hstore]
      exact h.storeAux hfits rfl rfl rfl hnodes rfl

/-! ### A queue is flushed -/

theorem Paired.flushed (h : s.Paired)
    (hquiet : ∀ e ∈ events, Quiet e) (hlog : t.log = s.log ++ (events ++ [.flushed cam]))
    (hmain : t.waiting .main <+: s.waiting .main) (haux : t.waiting .aux <+: s.waiting .aux)
    (hempty : t.mainJpegQ.nodes = [] ∨ t.auxJpegQ.nodes = []) : t.Paired := by
  have hpairs : composedPairs t.log = composedPairs s.log := by
    rw [hlog, composedPairs_append, composedPairs_append, composedPairs_quiet hquiet]
    exact append_nil _
  have hcomposed : composedMain t.log = composedMain s.log := by
    rw [composedMain, hpairs, composedMain]
  have hdelivered : deliveredBy .main t.log = deliveredBy .main s.log := by
    rw [hlog, deliveredBy_append, deliveredBy_append, deliveredBy_quiet hquiet]
    exact append_nil _
  have hrecent : ∀ c, recent c t.log = [] := by
    intro c
    rw [hlog, ← append_assoc, recent, sinceFlush_flushed]
    rfl
  have hsub : (composedMain s.log ++ t.waiting .main).Sublist (composedMain s.log ++ s.waiting .main) :=
    (List.Sublist.refl _).append hmain.sublist
  refine ⟨?_, ?_, ?_, ?_, ?_, ?_, ?_, fun _ hm ha => ?_⟩
  · rw [hpairs]
    exact h.pairs
  · exact ((h.aligned.left hmain).symm.left haux).symm
  · rw [hcomposed]
    exact h.order.sublist hsub
  · rw [hcomposed, hdelivered]
    exact fun i hi => h.known i (hsub.subset hi)
  · intro c i hi
    rw [hrecent] at hi
    cases hi
  · intro _ _
    exact hrecent .main
  · intro main _ _ hmem
    rw [hrecent] at hmem
    cases hmem
  · rcases hempty with he | he
    · exact absurd he hm
    · exact absurd he ha

theorem Paired.flushJpegQ (h : s.Paired) (cam : CamSyncType) : (s.flushJpegQ cam).Paired := by
  have hquiet : ∀ c (jpegs : List ComposeJpegInfo), ∀ e ∈ jpegs.flatMap (releaseJpegInfo c), Quiet e := by
    intro c jpegs e he
    obtain ⟨jpeg, -, he⟩ := mem_flatMap.mp he
    rw [releaseJpegInfo] at he
    split at he
    · exact quiet_release c jpeg e he
    · cases he
  cases cam with
  | main =>
    refine h.flushed (hquiet .main _) rfl ?_ (prefix_refl _) (.inl rfl)
    exact ⟨s.mainJpegQ.nodes.map (·.frameIdx), by
      simp [waiting, QCameraMuxer.flushJpegQ, QCameraMuxer.emit]⟩
  | aux =>
    refine h.flushed (hquiet .aux _) rfl (prefix_refl _) ?_ (.inr rfl)
    exact ⟨s.auxJpegQ.nodes.map (·.frameIdx), by
      simp [waiting, QCameraMuxer.flushJpegQ, QCameraMuxer.emit]⟩

/-! ### The compose thread -/

theorem Paired.move (h : s.Paired) (hlog : t.log = s.log) (hwait : ∀ cam, t.waiting cam = s.waiting cam)
    (htake : t.pc = .takeMain → t.auxJpegQ.nodes = [] → recent .main s.log = [])
    (hheld : ∀ main, t.pc = .takeAux main → t.auxJpegQ.nodes = [] → main.frameIdx ∉ recent .main s.log)
    (hawake : t.pc = .wait → t.mainJpegQ.nodes ≠ [] → t.auxJpegQ.nodes ≠ [] →
      t.storingMain = true ∨ t.storingAux = true ∨ JobAhead t.isActive t.composeMpoTh.cmdQueue.nodes) : t.Paired := by
  refine ⟨?_, ?_, ?_, ?_, ?_, ?_, ?_, hawake⟩
  · rw [hlog]
    exact h.pairs
  · rw [hwait, hwait]
    exact h.aligned
  · rw [hlog, hwait]
    exact h.order
  · rw [hlog, hwait]
    exact h.known
  · rw [hlog]
    intro cam
    rw [hwait]
    exact h.kept cam
  · rw [hlog]
    exact htake
  · rw [hlog]
    exact hheld

theorem Paired.takeCmd (h : s.Paired) (hpc : s.pc = .wait) {cmd : CameraCmdType}
    {th : QCameraCmdThread} (hget : s.composeMpoTh.getCmd = some (cmd, th)) :
    ({ s with composeMpoTh := th }.takeCmd cmd).Paired := by
  have hcmds : s.composeMpoTh.cmdQueue.nodes = [] ∧ cmd = .none ∧ th.cmdQueue.nodes = [] ∨
      s.composeMpoTh.cmdQueue.nodes = cmd :: th.cmdQueue.nodes := by
    rw [QCameraCmdThread.getCmd] at hget
    split at hget
    · cases hget
    · cases some.inj hget
      cases hnodes : s.composeMpoTh.cmdQueue.nodes with
      | nil => exact .inl ⟨rfl, by simp [hnodes], by simp [hnodes]⟩
      | cons c cmds => exact .inr (by simp [hnodes])
  have hjob : JobAhead s.isActive s.composeMpoTh.cmdQueue.nodes → JobAhead s.isActive (cmd :: th.cmdQueue.nodes) := by
    rcases hcmds with ⟨hnil, rfl, hth⟩ | hcons
    · rw [hnil, hth]
      exact id
    · rw [hcons]
      exact id
  have hleft : ∀ on, (JobAhead s.isActive (cmd :: th.cmdQueue.nodes) → JobAhead on th.cmdQueue.nodes) →
      { s with composeMpoTh := th, isActive := on }.Paired := by
    intro on hon
    refine h.of_eq rfl rfl rfl rfl fun _ hmain haux => ?_
    rcases h.awake hpc hmain haux with hs | hs | hj
    · exact .inl hs
    · exact .inr (.inl hs)
    · exact .inr (.inr (hon (hjob hj)))
  have hnext : ∀ pc, pc = .checkMain ∨ pc = .exited → { s with composeMpoTh := th, pc := pc }.Paired := by
    intro pc hnew
    refine h.move rfl (fun cam => ?_) (fun he => ?_) (fun main he => ?_) (fun he => ?_)
    · cases cam with
      | main => rcases hnew with rfl | rfl <;> simp [waiting, hpc, heldMain]
      | aux => rcases hnew with rfl | rfl <;> simp [waiting, hpc, heldAux]
    · rcases hnew with rfl | rfl <;> cases he
    · rcases hnew with rfl | rfl <;> cases he
    · rcases hnew with rfl | rfl <;> cases he
  cases cmd with
  | startDataProc => exact hleft true id
  | stopDataProc => exact hleft false id
  | doNextJob =>
    simp only [QCameraMuxer.takeCmd]
    split
    · exact hnext .checkMain (.inl rfl)
    · rename_i hoff
      exact hleft s.isActive fun hj => hj.resolve_left hoff
  | exit => exact hnext .exited (.inr rfl)
  | none => exact hleft s.isActive id

theorem Paired.composeMpo (h : s.Paired) {main aux : ComposeJpegInfo} (hpc : s.pc = .compose main aux) :
    ({ s with pc := .checkMain }.composeMpo main aux true true).Paired := by
  have hmain : s.waiting .main = main.frameIdx :: s.mainJpegQ.nodes.map (·.frameIdx) := by
    simp [waiting, hpc, heldMain]
  have haux : s.waiting .aux = aux.frameIdx :: s.auxJpegQ.nodes.map (·.frameIdx) := by
    simp [waiting, hpc, heldAux]
  have haligned := h.aligned
  rw [hmain, haux] at haligned
  obtain ⟨heq, haligned⟩ := haligned.cons
  have horder := h.order
  have hknown := h.known
  have hkept := h.kept
  rw [hmain] at horder hknown
  -- the release of the nodes is quiet
  let u : QCameraMuxer := { s with
    pc := .checkMain, log := s.log ++ [.composed main.frameIdx aux.frameIdx] }
  have hpairs : composedPairs u.log = composedPairs s.log ++ [(main.frameIdx, aux.frameIdx)] :=
    composedPairs_append _ _
  have hcomposed : composedMain u.log = composedMain s.log ++ [main.frameIdx] := by
    rw [composedMain, hpairs, map_append]
    rfl
  have hdelivered : deliveredBy .main u.log = deliveredBy .main s.log := by
    rw [deliveredBy_append]
    exact append_nil _
  have hrecent : ∀ cam, recent cam u.log = recent cam s.log := by
    intro cam
    rw [recent, sinceFlush_append (by simp [MuxerEvent.isFlush]), deliveredBy_append]
    rfl
  have hwaitMain : u.waiting .main = s.mainJpegQ.nodes.map (·.frameIdx) := rfl
  have hwaitAux : u.waiting .aux = s.auxJpegQ.nodes.map (·.frameIdx) := rfl
  have hu : u.Paired := by
    refine ⟨?_, haligned, ?_, ?_, ?_, ?_, ?_, ?_⟩
    · rw [hpairs]
      intro p hp
      rcases mem_append.mp hp with hp | hp
      · exact h.pairs p hp
      · obtain rfl := mem_singleton.mp hp
        exact heq
    · rw [hcomposed, hwaitMain, append_assoc]
      exact horder
    · rw [hcomposed, hwaitMain, hdelivered, append_assoc]
      exact hknown
    · intro cam i hi
      rw [hrecent] at hi
      rw [hcomposed]
      rcases hkept cam i hi with hw | hc
      · cases cam with
        | main =>
          rw [hmain] at hw
          rcases mem_cons.mp hw with rfl | hw
          · exact .inr (mem_append_right _ (mem_singleton_self _))
          · exact .inl hw
        | aux =>
          rw [haux] at hw
          rcases mem_cons.mp hw with rfl | hw
          · exact .inr (mem_append_right _ (heq ▸ mem_singleton_self _))
          · exact .inl hw
      · exact .inr (mem_append_left _ hc)
    · intro he
      cases he
    · intro m he
      cases he
    · intro he
      cases he
  have hquiet : ∀ e ∈ release .main main ++ release .aux aux, Quiet e := by
    intro e he
    rcases mem_append.mp he with he | he
    · exact quiet_release _ _ e he
    · exact quiet_release _ _ e he
  have hstep : { s with pc := .checkMain }.composeMpo main aux true true =
      u.emit (release .main main ++ release .aux aux) := by
    simp [QCameraMuxer.composeMpo, QCameraMuxer.emit, u]
  rw [hstep]
  exact hu.emit hquiet

theorem Paired.takeMain (h : s.Paired) (hpc : s.pc = .takeMain)
    (ht : s.composeMpoRoutine true true = some t) : t.Paired := by
  simp only [QCameraMuxer.composeMpoRoutine, hpc, QCameraQueue.dequeue] at ht
  cases hnodes : s.mainJpegQ.nodes with
  | nil =>
    simp only [hnodes, head?_nil, some.injEq] at ht
    subst ht
    refine h.move rfl (fun cam => ?_) (fun he => ?_) (fun main he => ?_) fun he => ?_
    · cases cam with
      | main => simp [waiting, hpc, heldMain, hnodes]
      | aux => simp [waiting, hpc, heldAux]
    · cases he
    · cases he
    · cases he
  | cons main rest =>
    simp only [hnodes, head?_cons, some.injEq] at ht
    subst ht
    refine h.move rfl (fun cam => ?_) (fun he => ?_) (fun m _ hempty hmem => ?_) fun he => ?_
    · cases cam with
      | main => simp [waiting, hpc, heldMain, hnodes]
      | aux => simp [waiting, hpc, heldAux]
    · cases he
    · rw [h.flushedTake hpc hempty] at hmem
      cases hmem
    · cases he

theorem Paired.takeAux (h : s.Paired) {main : ComposeJpegInfo} (hpc : s.pc = .takeAux main)
    (ht : s.composeMpoRoutine true true = some t) : t.Paired := by
  simp only [QCameraMuxer.composeMpoRoutine, hpc, QCameraQueue.dequeue] at ht
  have hwait : s.waiting .main = main.frameIdx :: s.mainJpegQ.nodes.map (·.frameIdx) := by
    simp [waiting, hpc, heldMain]
  cases hnodes : s.auxJpegQ.nodes with
  | nil =>
    simp only [hnodes, head?_nil, some.injEq] at ht
    subst ht
    refine Paired.emit (s := { s with auxJpegQ := _, pc := .checkMain }) ?_ (quiet_release _ _)
    have hsub : (composedMain s.log ++ s.mainJpegQ.nodes.map (·.frameIdx)).Sublist
        (composedMain s.log ++ s.waiting .main) := by
      rw [hwait]
      exact (List.Sublist.refl _).append (sublist_cons_self _ _)
    refine ⟨h.pairs, ?_, h.order.sublist hsub, fun i hi => h.known i (hsub.subset hi), ?_,
      fun he => ?_, fun m he => ?_, fun he => ?_⟩
    · simp only [waiting, heldAux, tail_nil, map_nil, append_nil]
      exact aligned_nil _
    · intro cam i hi
      rcases h.kept cam i hi with hw | hc
      · cases cam with
        | main =>
          rw [hwait] at hw
          rcases mem_cons.mp hw with rfl | hw
          · -- it was delivered before the auxiliary queue was flushed
            exact absurd hi (h.flushedHeld main hpc hnodes)
          · exact .inl hw
        | aux => simp [waiting, hpc, heldAux, hnodes] at hw
      · exact .inr hc
    · cases he
    · cases he
    · cases he
  | cons aux rest =>
    simp only [hnodes, head?_cons, some.injEq] at ht
    subst ht
    refine h.move rfl (fun cam => ?_) (fun he => ?_) (fun m he => ?_) fun he => ?_
    · cases cam with
      | main => simp [waiting, hpc, heldMain]
      | aux => simp [waiting, hpc, heldAux, hnodes]
    · cases he
    · cases he
    · cases he

theorem Paired.composeMpoRoutine (h : s.Paired) {getMemory composeOk : Bool}
    (hstep : s.InStep (.thread getMemory composeOk))
    (ht : s.composeMpoRoutine getMemory composeOk = some t) : t.Paired := by
  unfold QCameraMuxer.composeMpoRoutine at ht
  split at ht
  · rename_i hpc
    obtain ⟨⟨cmd, th⟩, hget, rfl⟩ := map_eq_some_iff.mp ht
    exact h.takeCmd hpc hget
  · rename_i hpc
    cases ht
    refine h.move rfl (fun cam => ?_) (fun he => ?_) (fun main he => ?_) fun he hmain _ => ?_
    · cases cam with
      | main => simp only [waiting, hpc]; split <;> rfl
      | aux => simp only [waiting, hpc]; split <;> rfl
    · simp only at he
      split at he <;> cases he
    · simp only at he
      split at he <;> cases he
    · simp only at he
      split at he
      · rename_i hempty
        exact absurd ((s.mainJpegQ.isEmpty_iff).mp hempty) hmain
      · cases he
  · rename_i hpc
    cases ht
    refine h.move rfl (fun cam => ?_) (fun he hempty => ?_) (fun main he => ?_) fun he _ haux => ?_
    · cases cam with
      | main => simp only [waiting, hpc]; split <;> rfl
      | aux => simp only [waiting, hpc]; split <;> rfl
    · simp only at he
      split at he
      · cases he
      · rename_i hne
        exact absurd ((s.auxJpegQ.isEmpty_iff).mpr hempty) hne
    · simp only at he
      split at he <;> cases he
    · simp only at he
      split at he
      · rename_i hempty
        exact absurd ((s.auxJpegQ.isEmpty_iff).mp hempty) haux
      · cases he
  · rename_i hpc
    refine h.takeMain hpc ?_
    rw [← ht]
    simp only [QCameraMuxer.composeMpoRoutine, hpc]
  · rename_i main hpc
    refine h.takeAux hpc ?_
    rw [← ht]
    simp only [QCameraMuxer.composeMpoRoutine, hpc]
  · rename_i main aux hpc
    cases ht
    obtain ⟨rfl, rfl⟩ := hstep (by simp [hpc, heldAux])
    exact h.composeMpo hpc
  · cases ht

/-- **What a step preserves.** -/
theorem Paired.next (h : s.Paired) {input : Input} (hstep : s.InStep input)
    (ht : s.next input = some t) : t.Paired := by
  cases input with
  | jpeg cam data mallocFrame mallocNode =>
    simp only [QCameraMuxer.next] at ht
    split at ht
    · cases ht
    · cases ht
      exact h.jpegDataCallback hstep
  | trigger cam mallocCmd mallocNode =>
    simp only [QCameraMuxer.next] at ht
    split at ht
    · cases ht
      exact h.triggerCompose hstep
    · cases ht
  | init cam =>
    cases ht
    exact h.initJpegQ cam
  | flush cam =>
    cases ht
    exact h.flushJpegQ cam
  | sendCmd cmd mallocCmd mallocNode =>
    cases ht
    exact h.sendCmd mallocCmd mallocNode cmd false (by simp)
  | exit mallocCmd mallocNode =>
    cases ht
    exact h.sendCmd mallocCmd mallocNode .exit true fun _ => rfl
  | setMpoEnabled on =>
    cases ht
    exact h.of_eq rfl rfl rfl rfl h.awake
  | thread getMemory composeOk => exact h.composeMpoRoutine hstep ht

/-! ### Runs -/

/-- Nothing is going on: the compose thread waits with no command, and no callback has yet to send
one. -/
def Settled (s : QCameraMuxer) : Prop :=
  s.pc = .wait ∧ s.composeMpoTh.cmdQueue.nodes = [] ∧ s.storingMain = false ∧ s.storingAux = false
deriving Decidable

/-- **Pairing**: the JPEGs of every composed file have the same frame index, and a frame that both
cameras have delivered since the last flush of a queue is composed at most once, and once when nothing
is going on. -/
structure ComposedOnce (s : QCameraMuxer) : Prop where
  pairs : ∀ p ∈ composedPairs s.log, p.1 = p.2
  atMostOnce : ∀ i, (composedPairs s.log).count (i, i) ≤ 1
  once : s.Settled → ∀ i, i ∈ recent .main s.log → i ∈ recent .aux s.log → (composedPairs s.log).count (i, i) = 1

theorem Paired.composedOnce (h : s.Paired) : s.ComposedOnce := by
  have hnodup : (composedPairs s.log).Nodup := by
    have hsorted : ((composedPairs s.log).map Prod.fst).Pairwise (· < ·) :=
      (pairwise_append.mp h.order).1
    exact List.Nodup.of_map Prod.fst (hsorted.imp fun hlt => Nat.ne_of_lt hlt)
  refine ⟨h.pairs, fun i => nodup_iff_count_le_one.mp hnodup _, fun hs i hmain haux => ?_⟩
  obtain ⟨hpc, hcmds, hstoring, hstoring'⟩ := hs
  refine count_eq_one_of_mem hnodup ?_
  have hcomposed : i ∈ composedMain s.log := by
    -- one of the queues is empty, or the thread would have a command
    rcases h.kept .main i hmain with hw | hc
    · rcases h.kept .aux i haux with hw' | hc
      · have hm : s.mainJpegQ.nodes ≠ [] := by
          intro he
          simp [waiting, hpc, heldMain, he] at hw
        have ha : s.auxJpegQ.nodes ≠ [] := by
          intro he
          simp [waiting, hpc, heldAux, he] at hw'
        rcases h.awake hpc hm ha with hst | hst | hjob
        · simp [hstoring] at hst
        · simp [hstoring'] at hst
        · rw [hcmds] at hjob
          exact absurd hjob id
      · exact hc
    · exact hc
  obtain ⟨p, hp, rfl⟩ := mem_map.mp hcomposed
  have heq := h.pairs p hp
  have hpair : (p.1, p.1) = p := Prod.ext rfl heq
  rw [hpair]
  exact hp

/-- **In every run whose JPEGs fit** the pictures of the two cameras are paired by their frames. -/
theorem composed_once_run {s t : QCameraMuxer} {inputs : List Input} (h₀ : s.Fresh)
    (hrun : Run (guarded InStep (fires next)) s inputs t) : t.ComposedOnce := by
  have hpaired : t.Paired := hrun.invariant (I := Paired) (fun s input t hs hstep => hs.next hstep.1 hstep.2) h₀.paired
  exact hpaired.composedOnce

/-- A JPEG is delivered and its command sent. -/
def deliver (cam : CamSyncType) (frameIdx : ℕ) : List Input :=
  [.jpeg cam (some { frameIdx := frameIdx }) true true, .trigger cam true true]

/-- The thread is started, and takes some steps behind the JPEGs. -/
def session (jpegs : List Input) (steps : ℕ) : List Input :=
  [.sendCmd .startDataProc true true, .thread true true] ++ jpegs ++ List.replicate steps (.thread true true)

/-- Both cameras deliver frame 1, and the main camera frame 2. -/
theorem composed_once_session : ∃ t, Run (guarded InStep (fires next)) {}
      (session (deliver .main 1 ++ deliver .aux 1 ++ deliver .main 2) 14) t ∧
      (t.Settled ∧ composedPairs t.log = [(1, 1)]) ∧ t.ComposedOnce :=
  (exists_run (by decide +kernel)).imp fun _ h =>
    ⟨h.1, h.2, composed_once_run ⟨rfl, rfl, rfl, rfl⟩ h.1⟩

/-- The auxiliary camera loses frame 1: its frame 2 is composed with frame 1 of the main camera, and
frame 2, which both have delivered, never with itself. -/
theorem composed_shifted : ∃ t,
    Run (fires next) {} (session (deliver .main 1 ++ deliver .main 2 ++ deliver .aux 2) 14) t ∧
      t.Settled ∧ composedPairs t.log = [(1, 2)] ∧ 2 ∈ recent .main t.log ∧ 2 ∈ recent .aux t.log :=
  exists_run_fires (by decide +kernel)

end QCameraMuxer

end Marlin
