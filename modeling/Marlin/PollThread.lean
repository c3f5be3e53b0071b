import Mathlib.Data.Int.Basic
import Marlin.Transition

/-!
# The Poll Thread of a Channel

`mm_camera_poll_fn` waits for the data of the channel's streams and for commands in its pipe.
The streams are entered in `poll_entries`: `mm_stream_qbuf` adds a stream with its first
buffer, `mm_stream_read_msm_frame` removes it with its last one, both without waiting for the
poll thread, and `mm_stream_streamoff` removes it and waits until the thread has seen its
command.

A step is a critical section on `buf_lock`, an access to an entry or a write to the pipe.
The commands of the updates that nobody waits for may be written at any time after the entry
was changed. `pthread_cond_wait` returns when it is signalled.

The removal waits only if it finds the stream's entry. When the last buffer was just dequeued
the entry is gone, and the removal returns while the poll thread is still in
`mm_stream_data_notify`.

## Main results

* `step_unregistered`: only a first buffer enters a stream again.
* `returns_quiet`: the removal returns when the poll thread is not with the stream, unless
  it finds no entry while the thread is.
* `streamoff_barrier`: in the runs without that, the poll thread does not come back to the
  stream before its next buffer is queued.
* `streamoff_in_callback`: the run that returns too early.
-/

namespace Marlin

open Function Transition

namespace PollThread

/-- `MAX_STREAM_NUM_IN_BUNDLE`, the length of `poll_entries`. -/
def pollEntryNum : ℕ := 8

/-- `mm_camera_util_get_index_by_handler`: the low byte. -/
def mmCameraUtilGetIndexByHandler (handler : ℕ) : ℕ := handler % 256

/-- `mm_camera_poll_entry_t`. The callback of an entry is `mm_stream_data_notify` or `NULL`;
`userData` is the stream, given by its handle. -/
structure PollEntry where
  fd : ℤ := -1
  handler : ℕ := 0
  notifyCb : Bool := false
  userData : ℕ := 0
  deriving DecidableEq

/-- `mm_camera_pipe_cmd_type_t`, but for the command that ends the thread. -/
inductive PipeCmd
  | pollEntriesUpdated | pollEntriesUpdatedAsync | commit
  deriving DecidableEq

/-- Where the poll thread is: at `poll`; in the loop over the entries with data; or in
`mm_stream_data_notify` of a stream, before or after its read. -/
inductive PollFn
  | poll
  | dispatch (ready : List ℕ)
  | dataNotify (hdl : ℕ) (isRead : Bool) (ready : List ℕ)
  deriving DecidableEq

/-- The removal step of `mm_stream_streamoff`: before it; about to write its command; waiting
for the poll thread; over. -/
inductive Removal
  | idle
  | signalling (cmd : PipeCmd)
  | waiting
  | returned
  deriving DecidableEq

/-- The poll thread, its pipe and the threads that use it. `hdl` is the stream that is
stopped, `streamFd` the descriptors of the streams. `unsent` counts the updates whose command
is still to be written, and `queueing` are the streams whose `VIDIOC_QBUF` is under way. -/
structure Parties where
  hdl : ℕ
  streamFd : ℕ → ℤ
  pollEntries : ℕ → PollEntry := fun _ => {}
  pollFds : List ℤ := []
  pipe : List PipeCmd := []
  unsent : ℕ := 0
  pollFn : PollFn := .poll
  queuedBufferCount : ℕ → ℤ := fun _ => 0
  queueing : List ℕ := []
  removal : Removal := .idle

/-- The steps of the parties: a buffer is queued, and `VIDIOC_QBUF` returns; a command is
written; the poll thread's steps; and those of the removal. -/
inductive Action
  | qbuf (hdl : ℕ)
  | qbufDone (k : ℕ) (ok : Bool)
  | sendAsync (ok : Bool)
  | poll (ready : List ℕ)
  | procPipe
  | notify
  | readMsmFrame (ok : Bool)
  | leave
  | delPollFd
  | signal (ok : Bool)
  deriving DecidableEq

namespace Parties

/-- `mm_camera_poll_thread_add_poll_fd`, asynchronous, up to its command. -/
def addPollFd (s : Parties) (hdl : ℕ) : Parties :=
  let idx := mmCameraUtilGetIndexByHandler hdl
  if idx < pollEntryNum then
    { s with
      pollEntries := Function.update s.pollEntries idx ⟨s.streamFd hdl, hdl, true, hdl⟩
      unsent := s.unsent + 1 }
  else s

/-- `mm_camera_poll_thread_del_poll_fd` resets the entry. -/
def resetEntry (s : Parties) (idx : ℕ) : Parties :=
  let entry := { s.pollEntries idx with fd := -1, handler := 0, notifyCb := false }
  { s with pollEntries := Function.update s.pollEntries idx entry }

/-- `mm_camera_poll_thread_del_poll_fd` finds the stream in the entry. -/
def findsEntry (s : Parties) (hdl : ℕ) : Bool :=
  let idx := mmCameraUtilGetIndexByHandler hdl
  idx < pollEntryNum && hdl == (s.pollEntries idx).handler

/-- `mm_camera_poll_thread_del_poll_fd`, asynchronous, up to its command. -/
def delPollFdAsync (s : Parties) (hdl : ℕ) : Parties :=
  if s.findsEntry hdl then
    { s.resetEntry (mmCameraUtilGetIndexByHandler hdl) with unsent := s.unsent + 1 }
  else s

/-- The removal step up to its command: the entry is reset; or another stream's entry is
found, and `mm_camera_poll_thread_commit_updates` is called; or there is no entry. -/
def delPollFdSync (s : Parties) : Parties :=
  let idx := mmCameraUtilGetIndexByHandler s.hdl
  if s.findsEntry s.hdl then
    { s.resetEntry idx with removal := .signalling .pollEntriesUpdated }
  else if pollEntryNum ≤ idx ∨ (s.pollEntries idx).handler ≠ 0 then
    { s with removal := .signalling .commit }
  else { s with removal := .returned }

/-- One buffer less is queued; with the last one the stream is removed. -/
def dropQueued (s : Parties) (hdl : ℕ) : Parties :=
  let count := s.queuedBufferCount hdl - 1
  let s := { s with queuedBufferCount := Function.update s.queuedBufferCount hdl count }
  if count = 0 then s.delPollFdAsync hdl else s

/-- `mm_camera_poll_proc_pipe` takes the descriptors of the entries. -/
def collectFds (s : Parties) : List ℤ :=
  (List.range pollEntryNum).map fun i =>
    if 0 ≤ (s.pollEntries i).fd then (s.pollEntries i).fd else -1

/-- `mm_camera_poll_sig_done`. -/
def sigDone (s : Parties) : Parties :=
  { s with removal := if s.removal = .waiting then .returned else s.removal }

/-- `mm_camera_poll_proc_pipe`. -/
def pollProcPipe (s : Parties) : PipeCmd → Parties
  | .pollEntriesUpdated => { s with pollFds := s.collectFds }.sigDone
  | .pollEntriesUpdatedAsync => { s with pollFds := s.collectFds }
  | .commit => s.sigDone

/-- `poll` may report these entries: no command is in the pipe, and their descriptors are
polled. -/
def mayReport (s : Parties) (ready : List ℕ) : Prop :=
  s.pollFn = .poll ∧ s.pipe = [] ∧ ready ≠ [] ∧ ready.Pairwise (· < ·) ∧ ∀ i ∈ ready, ∃ fd ∈ s.pollFds[i]?, 0 ≤ fd
deriving Decidable

/-- A step of the parties. -/
def step (s : Parties) : Action → Option Parties
  | .qbuf hdl =>
    let count := s.queuedBufferCount hdl + 1
    let s := { s with
      queuedBufferCount := Function.update s.queuedBufferCount hdl count
      queueing := s.queueing ++ [hdl] }
    some (if count = 1 then s.addPollFd hdl else s)
  | .qbufDone k ok =>
    match s.queueing[k]? with
    | some hdl =>
      let s := { s with queueing := s.queueing.eraseIdx k }
      some (if ok then s else s.dropQueued hdl)
    | none => none
  | .sendAsync ok =>
    if 0 < s.unsent then
      some { s with
        unsent := s.unsent - 1
        pipe := if ok then s.pipe ++ [.pollEntriesUpdatedAsync] else s.pipe }
    else none
  | .poll ready => if s.mayReport ready then some { s with pollFn := .dispatch ready } else none
  | .procPipe =>
    match s.pollFn, s.pipe with
    | .poll, cmd :: pipe => some ({ s with pipe := pipe }.pollProcPipe cmd)
    | _, _ => none
  | .notify =>
    match s.pollFn with
    | .dispatch [] => some { s with pollFn := .poll }
    | .dispatch (i :: ready) =>
      if (s.pollEntries i).notifyCb then
        some { s with pollFn := .dataNotify (s.pollEntries i).userData false ready }
      else some { s with pollFn := .dispatch ready }
    | _ => none
  | .readMsmFrame ok =>
    match s.pollFn with
    | .dataNotify hdl false ready =>
      some { if ok then s.dropQueued hdl else s with pollFn := .dataNotify hdl true ready }
    | _ => none
  | .leave =>
    match s.pollFn with
    | .dataNotify _ _ ready => some { s with pollFn := .dispatch ready }
    | _ => none
  | .delPollFd => if s.removal = .idle then some s.delPollFdSync else none
  | .signal ok =>
    match s.removal with
    | .signalling cmd =>
      if ok then some { s with pipe := s.pipe ++ [cmd], removal := .waiting }
      else some { s with removal := .returned }
    | _ => none

/-- The poll thread is in `mm_stream_data_notify` of the stream that is stopped. -/
def notifying (s : Parties) : Bool :=
  match s.pollFn with
  | .dataNotify hdl _ _ => hdl == s.hdl
  | _ => false

/-- The removal step has begun and is not over. -/
def removing (s : Parties) : Bool :=
  match s.removal with
  | .signalling _ | .waiting => true
  | _ => false

/-- The steps that keep the removal a barrier: when it finds no entry, or cannot write its
command, the poll thread is not with the stream, and no first buffer is queued while it is
under way. -/
def keepsBarrier (s : Parties) : Action → Bool
  | .delPollFd =>
    let idx := mmCameraUtilGetIndexByHandler s.hdl
    (pollEntryNum ≤ idx || (s.pollEntries idx).handler != 0) || !s.notifying
  | .signal ok => ok || !s.notifying
  | .qbuf hdl => !(hdl == s.hdl && s.queuedBufferCount hdl == 0 && s.removing)
  | _ => true

/-- The channel before its streams have buffers. -/
structure Initial (s : Parties) : Prop where
  hdl : s.hdl ≠ 0
  pollEntries : ∀ i, s.pollEntries i = {}
  pollFn : s.pollFn = .poll
  removal : s.removal = .idle

/-! ### What the operations leave as it is -/

theorem addPollFd_frame (s : Parties) (hdl : ℕ) : (s.addPollFd hdl).hdl = s.hdl ∧ (s.addPollFd hdl).pollFn = s.pollFn ∧
      (s.addPollFd hdl).removal = s.removal := by
  simp only [addPollFd]
  split <;> exact ⟨rfl, rfl, rfl⟩

theorem delPollFdAsync_frame (s : Parties) (hdl : ℕ) :
    (s.delPollFdAsync hdl).hdl = s.hdl ∧ (s.delPollFdAsync hdl).pollFn = s.pollFn ∧
      (s.delPollFdAsync hdl).removal = s.removal := by
  simp only [delPollFdAsync]
  split <;> exact ⟨rfl, rfl, rfl⟩

theorem dropQueued_frame (s : Parties) (hdl : ℕ) :
    (s.dropQueued hdl).hdl = s.hdl ∧ (s.dropQueued hdl).pollFn = s.pollFn ∧ (s.dropQueued hdl).removal = s.removal := by
  simp only [dropQueued]
  split
  · exact delPollFdAsync_frame _ hdl
  · exact ⟨rfl, rfl, rfl⟩

theorem pollProcPipe_frame (s : Parties) (cmd : PipeCmd) :
    (s.pollProcPipe cmd).hdl = s.hdl ∧ (s.pollProcPipe cmd).pollFn = s.pollFn ∧
      (s.pollProcPipe cmd).pollEntries = s.pollEntries := by
  cases cmd <;> exact ⟨rfl, rfl, rfl⟩

theorem delPollFdSync_frame (s : Parties) : s.delPollFdSync.hdl = s.hdl ∧ s.delPollFdSync.pollFn = s.pollFn := by
  simp only [delPollFdSync]
  split
  · exact ⟨rfl, rfl⟩
  · split <;> exact ⟨rfl, rfl⟩

/-! ### The entries -/

/-- Each entry is the same, or has lost its callback. -/
def Shrinks (s s' : Parties) : Prop :=
  ∀ i, s'.pollEntries i = s.pollEntries i ∨ (s'.pollEntries i).notifyCb = false

theorem resetEntry_shrinks (s : Parties) (idx : ℕ) : s.Shrinks (s.resetEntry idx) := by
  intro i
  by_cases hi : i = idx
  · subst hi
    right
    simp [resetEntry]
  · exact Or.inl (update_of_ne hi _ _)

theorem delPollFdAsync_shrinks (s : Parties) (hdl : ℕ) : s.Shrinks (s.delPollFdAsync hdl) := by
  simp only [delPollFdAsync]
  split
  · exact s.resetEntry_shrinks _
  · exact fun _ => Or.inl rfl

theorem dropQueued_shrinks (s : Parties) (hdl : ℕ) : s.Shrinks (s.dropQueued hdl) := by
  simp only [dropQueued]
  split
  · exact delPollFdAsync_shrinks _ hdl
  · exact fun _ => Or.inl rfl

theorem delPollFdSync_shrinks (s : Parties) : s.Shrinks s.delPollFdSync := by
  simp only [delPollFdSync]
  split
  · exact s.resetEntry_shrinks _
  · split <;> exact fun _ => Or.inl rfl

/-- The action queues the first buffer of a stream, which is entered. -/
def Enters (s s' : Parties) (a : Action) (i : ℕ) : Prop :=
  ∃ hdl, a = .qbuf hdl ∧ s.queuedBufferCount hdl = 0 ∧ i = mmCameraUtilGetIndexByHandler hdl ∧ i < pollEntryNum ∧
    s'.pollEntries i = ⟨s.streamFd hdl, hdl, true, hdl⟩

variable {s s' : Parties}

theorem notifying_congr (hhdl : s'.hdl = s.hdl) (hpoll : s'.pollFn = s.pollFn) : s'.notifying = s.notifying := by
  simp only [notifying, hhdl, hpoll]

/-! ### What a step does -/

/-- What a step does. Only the first buffer of a stream gives an entry a callback, the poll
thread goes to a stream through its entry, and the removal step moves on by its own steps and
when the poll thread, at `poll`, reads its command. -/
structure Effect (s : Parties) (a : Action) (s' : Parties) : Prop where
  hdl : s'.hdl = s.hdl
  entries : ∀ i, s'.pollEntries i = s.pollEntries i ∨ (s'.pollEntries i).notifyCb = false ∨ Enters s s' a i
  inside : s'.notifying = true → s.notifying = true ∨
    ∃ i, (s.pollEntries i).notifyCb = true ∧ (s.pollEntries i).userData = s.hdl
  removal : s'.removal = s.removal ∨ (a = .delPollFd ∧ s' = s.delPollFdSync) ∨
    (∃ ok cmd, a = .signal ok ∧ s.removal = .signalling cmd ∧ s'.removal = if ok then .waiting else .returned) ∨
    (a = .procPipe ∧ s.removal = .waiting ∧ s'.notifying = false)

variable {a : Action}

theorem Effect.of_frame (hhdl : s'.hdl = s.hdl)
    (hentries : s.Shrinks s') (hpoll : s'.pollFn = s.pollFn) (hrem : s'.removal = s.removal) :
    Effect s a s' where
  hdl := hhdl
  entries i := (hentries i).imp_right Or.inl
  inside h := Or.inl (notifying_congr hhdl hpoll ▸ h)
  removal := Or.inl hrem

theorem effect_qbuf {hdl : ℕ} (hstep : s.step (.qbuf hdl) = some s') : Effect s (.qbuf hdl) s' := by
  cases hstep
  by_cases hcount : s.queuedBufferCount hdl + 1 = 1
  · simp only [if_pos hcount]
    obtain ⟨hhdl, hpoll, hrem⟩ := addPollFd_frame { s with
      queuedBufferCount := update s.queuedBufferCount hdl (s.queuedBufferCount hdl + 1)
      queueing := s.queueing ++ [hdl] } hdl
    refine ⟨hhdl, fun i => ?_, fun h => ?_, Or.inl hrem⟩
    · simp only [addPollFd]
      split
      · rename_i hidx
        by_cases hi : i = mmCameraUtilGetIndexByHandler hdl
        · subst hi
          exact Or.inr (Or.inr ⟨hdl, rfl, by omega, rfl, hidx, update_self _ _ _⟩)
        · exact Or.inl (update_of_ne hi _ _)
      · exact Or.inl rfl
    · rw [notifying_congr hhdl hpoll] at h
      exact Or.inl h
  · simp only [if_neg hcount]
    exact Effect.of_frame rfl (fun _ => Or.inl rfl) rfl rfl

theorem effect_notify (hstep : s.step .notify = some s') : Effect s .notify s' := by
  simp only [step] at hstep
  split at hstep
  · cases hstep
    exact ⟨rfl, fun _ => Or.inl rfl, fun h => Bool.noConfusion h, Or.inl rfl⟩
  · rename_i i ready _
    split at hstep
    · rename_i hcb
      cases hstep
      refine ⟨rfl, fun _ => Or.inl rfl, fun h => Or.inr ⟨i, hcb, ?_⟩, Or.inl rfl⟩
      simpa [notifying] using h
    · cases hstep
      exact ⟨rfl, fun _ => Or.inl rfl, fun h => Bool.noConfusion h, Or.inl rfl⟩
  · cases hstep

theorem step_effect (hstep : s.step a = some s') : Effect s a s' := by
  cases a with
  | qbuf hdl => exact effect_qbuf hstep
  | notify => exact effect_notify hstep
  | qbufDone k ok =>
    simp only [step] at hstep
    split at hstep
    · rename_i hdl _
      cases hstep
      cases ok with
      | true => exact Effect.of_frame rfl (fun _ => Or.inl rfl) rfl rfl
      | false =>
        obtain ⟨hhdl, hpoll, hrem⟩ := dropQueued_frame { s with queueing := s.queueing.eraseIdx k } hdl
        exact Effect.of_frame hhdl (dropQueued_shrinks { s with queueing := _ } hdl) hpoll hrem
    · cases hstep
  | sendAsync ok =>
    simp only [step] at hstep
    split at hstep
    · cases hstep
      exact Effect.of_frame rfl (fun _ => Or.inl rfl) rfl rfl
    · cases hstep
  | poll ready =>
    simp only [step] at hstep
    split at hstep
    · cases hstep
      exact ⟨rfl, fun _ => Or.inl rfl, fun h => Bool.noConfusion h, Or.inl rfl⟩
    · cases hstep
  | procPipe =>
    simp only [step] at hstep
    split at hstep
    · rename_i cmd pipe hpoll _
      cases hstep
      obtain ⟨hhdl, hpoll', hentries⟩ := pollProcPipe_frame { s with pipe := pipe } cmd
      have hquiet : Parties.notifying ({ s with pipe := pipe }.pollProcPipe cmd) = false := by
        simp only [notifying, hpoll'.trans hpoll]
      refine ⟨hhdl, fun i => Or.inl (congrFun hentries i), fun h => ?_, ?_⟩
      · rw [hquiet] at h
        cases h
      · by_cases hw : s.removal = .waiting
        · exact Or.inr (Or.inr (Or.inr ⟨rfl, hw, hquiet⟩))
        · left
          cases cmd <;> simp [pollProcPipe, sigDone, hw]
    · cases hstep
  | readMsmFrame ok =>
    simp only [step] at hstep
    split at hstep
    · rename_i hdl ready hpoll
      cases hstep
      obtain ⟨hhdl, -, hrem⟩ := dropQueued_frame s hdl
      have hinside : (hdl == s.hdl) = true → s.notifying = true := by
        simp only [notifying, hpoll, imp_self]
      cases ok with
      | true =>
        refine ⟨hhdl, fun i => (dropQueued_shrinks s hdl i).imp_right Or.inl, fun h => ?_, Or.inl hrem⟩
        simp only [notifying, if_true, hhdl] at h
        exact Or.inl (hinside h)
      | false => exact ⟨rfl, fun _ => Or.inl rfl, fun h => Or.inl (hinside h), Or.inl rfl⟩
    · cases hstep
  | leave =>
    simp only [step] at hstep
    split at hstep
    · cases hstep
      exact ⟨rfl, fun _ => Or.inl rfl, fun h => Bool.noConfusion h, Or.inl rfl⟩
    · cases hstep
  | delPollFd =>
    simp only [step] at hstep
    split at hstep
    · cases hstep
      obtain ⟨hhdl, hpoll⟩ := s.delPollFdSync_frame
      refine ⟨hhdl, fun i => (s.delPollFdSync_shrinks i).imp_right Or.inl, fun h => ?_, Or.inr (Or.inl ⟨rfl, rfl⟩)⟩
      rw [notifying_congr hhdl hpoll] at h
      exact Or.inl h
    · cases hstep
  | signal ok =>
    simp only [step] at hstep
    split at hstep
    · rename_i cmd hrem
      cases ok <;> cases hstep
      · exact ⟨rfl, fun _ => Or.inl rfl, Or.inl, Or.inr (Or.inr (Or.inl ⟨false, cmd, rfl, hrem, rfl⟩))⟩
      · exact ⟨rfl, fun _ => Or.inl rfl, Or.inl, Or.inr (Or.inr (Or.inl ⟨true, cmd, rfl, hrem, rfl⟩))⟩
    · cases hstep

/-! ### The removal as a barrier -/

/-- Each entry with a callback is the one of its stream. -/
def Consistent (s : Parties) : Prop :=
  ∀ i, (s.pollEntries i).notifyCb = true → (s.pollEntries i).handler = (s.pollEntries i).userData ∧
      i = mmCameraUtilGetIndexByHandler (s.pollEntries i).userData ∧ i < pollEntryNum

/-- No entry calls back the stream that is stopped. -/
def Unregistered (s : Parties) : Prop :=
  ∀ i, (s.pollEntries i).notifyCb = true → (s.pollEntries i).userData ≠ s.hdl

/-- The entries stay those of their streams. -/
theorem Consistent.step (h : s.Consistent) (hstep : s.step a = some s') : s'.Consistent := by
  intro i hcb
  rcases (step_effect hstep).entries i with hsame | hnone | ⟨hdl, -, -, hi, hlt, hnew⟩
  · rw [hsame] at hcb ⊢
    exact h i hcb
  · rw [hnone] at hcb
    cases hcb
  · rw [hnew]
    exact ⟨rfl, hi, hlt⟩

/-- **Only a first buffer of the stream enters it again.** -/
theorem step_unregistered (h : s.Unregistered)
    (hstep : s.step a = some s') (ha : a = .qbuf s.hdl → s.queuedBufferCount s.hdl ≠ 0) :
    s'.Unregistered := by
  intro i hcb
  rw [(step_effect hstep).hdl]
  rcases (step_effect hstep).entries i with hsame | hnone | ⟨hdl, rfl, hzero, -, -, hnew⟩
  · rw [hsame] at hcb ⊢
    exact h i hcb
  · rw [hnone] at hcb
    cases hcb
  · rw [hnew]
    rintro rfl
    exact ha rfl hzero

theorem step_quiet (hunreg : s.Unregistered)
    (hquiet : s.notifying = false) (hstep : s.step a = some s') : s'.notifying = false := by
  by_contra hin
  rcases (step_effect hstep).inside (by simpa using hin) with h | ⟨i, hcb, hdl⟩
  · rw [hquiet] at h
    cases h
  · exact hunreg i hcb hdl

theorem delPollFdSync_unregistered (h : s.Consistent) : s.delPollFdSync.Unregistered := by
  have hframe := s.delPollFdSync_frame.1
  have hfind : s.findsEntry s.hdl = false → s.Unregistered := by
    intro hfind i hcb hdata
    obtain ⟨hhandler, hi, hlt⟩ := h i hcb
    rw [hdata] at hi hhandler
    subst hi
    simp [findsEntry, hhandler, hlt] at hfind
  intro i hcb
  rw [hframe]
  by_cases hf : s.findsEntry s.hdl = true
  · rw [delPollFdSync, if_pos hf] at hcb ⊢
    by_cases hi : i = mmCameraUtilGetIndexByHandler s.hdl
    · subst hi
      simp [resetEntry] at hcb
    · have hsame := update_of_ne hi { s.pollEntries
        (mmCameraUtilGetIndexByHandler s.hdl) with fd := -1, handler := 0, notifyCb := false }
        s.pollEntries
      simp only [resetEntry, hsame] at hcb ⊢
      intro hdata
      obtain ⟨-, hidx, -⟩ := h i hcb
      exact hi (hdata ▸ hidx)
  · have hsame : s.delPollFdSync.pollEntries = s.pollEntries := by
      simp only [delPollFdSync, if_neg hf]
      split <;> rfl
    rw [hsame] at hcb ⊢
    exact hfind (by simpa using hf) i hcb

/-- The account of the removal: while it is under way the stream is not entered. -/
structure Accounted (s : Parties) : Prop where
  hdl : s.hdl ≠ 0
  consistent : s.Consistent
  removing : s.removing = true → s.Unregistered

theorem Initial.accounted (h : s.Initial) : s.Accounted := by
  obtain ⟨hhdl, hentries, hpoll, hrem⟩ := h
  refine ⟨hhdl, fun i hcb => ?_, fun h => ?_⟩
  · rw [hentries] at hcb
    cases hcb
  · simp [Parties.removing, hrem] at h

/-- A step that keeps the barrier keeps the account. -/
theorem Accounted.step (h : s.Accounted)
    (hkeep : s.keepsBarrier a = true) (hstep : s.step a = some s') : s'.Accounted := by
  have heff := step_effect hstep
  refine ⟨heff.hdl ▸ h.hdl, h.consistent.step hstep, fun hrem' => ?_⟩
  by_cases hrem : s.removing = true
  · refine step_unregistered (h.removing hrem) hstep ?_
    rintro rfl hzero
    simp [keepsBarrier, hzero, hrem] at hkeep
  rcases heff.removal with hsame | ⟨-, rfl⟩ | ⟨ok, cmd, -, hsig, -⟩ | ⟨-, hw, -⟩
  · simp only [Parties.removing, hsame] at hrem' hrem
    exact absurd hrem' hrem
  · exact delPollFdSync_unregistered h.consistent
  · simp [Parties.removing, hsig] at hrem
  · simp [Parties.removing, hw] at hrem

/-- **The removal step returns when the poll thread is not with the stream.** -/
theorem Accounted.returns_quiet (h : s.Accounted) (hkeep : s.keepsBarrier a = true) (hstep : s.step a = some s')
    (hbefore : s.removal ≠ .returned) (hafter : s'.removal = .returned) :
    s'.Unregistered ∧ s'.notifying = false := by
  have heff := step_effect hstep
  rcases heff.removal with hsame | ⟨rfl, rfl⟩ | ⟨ok, cmd, rfl, hsig, hrem⟩ | ⟨rfl, hw, hquiet⟩
  · exact absurd (hsame.symm.trans hafter) hbefore
  · refine ⟨delPollFdSync_unregistered h.consistent, ?_⟩
    obtain ⟨hhdl, hpoll⟩ := s.delPollFdSync_frame
    rw [notifying_congr hhdl hpoll]
    simp only [delPollFdSync] at hafter
    split at hafter
    · cases hafter
    · split at hafter
      · cases hafter
      · rename_i hnone
        simp only [not_or, not_le, not_not] at hnone
        simp only [keepsBarrier, Bool.or_eq_true, decide_eq_true_eq, bne_iff_ne, ne_eq, Bool.not_eq_true'] at hkeep
        rcases hkeep with (hidx | hhandler) | hquiet
        · omega
        · exact absurd hnone.2 hhandler
        · exact hquiet
  · have hunreg : s.Unregistered := h.removing (by simp [Parties.removing, hsig])
    refine ⟨step_unregistered hunreg hstep (fun h => by cases h), ?_⟩
    cases ok with
    | true => rw [hrem] at hafter; cases hafter
    | false => exact step_quiet hunreg (by simpa [keepsBarrier] using hkeep) hstep
  · have hunreg : s.Unregistered := h.removing (by simp [Parties.removing, hw])
    exact ⟨step_unregistered hunreg hstep (fun h => by cases h), hquiet⟩

end Parties

open Parties

/-- **The removal is a barrier.** In every run in which the removal step, when it finds no
entry or cannot write its command, does so with the poll thread away from the stream, and in
which no first buffer of the stream is queued while it is under way: once it has returned, the
poll thread is not in `mm_stream_data_notify` for the stream and does not enter it before the
next `mm_stream_qbuf`. -/
theorem streamoff_barrier {s₀ s s₁ s₂ : Parties} {as bs : List Action} {a : Action} (h₀ : s₀.Initial)
    (hrun : Run (guarded (fun s a => s.keepsBarrier a = true) (fires Parties.step)) s₀ as s)
    (hkeep : s.keepsBarrier a = true) (hstep : s.step a = some s₁)
    (hbefore : s.removal ≠ .returned) (hreturn : s₁.removal = .returned)
    (hafter : Run (guarded (fun s a => a ≠ .qbuf s.hdl) (fires Parties.step)) s₁ bs s₂) :
    s₂.notifying = false := by
  have hacc : s.Accounted :=
    hrun.invariant (fun _ _ _ hI hstep => Accounted.step hI hstep.1 hstep.2) h₀.accounted
  have hquiet := hacc.returns_quiet hkeep hstep hbefore hreturn
  refine (hafter.invariant (I := fun s => s.Unregistered ∧ s.notifying = false) ?_ hquiet).2
  rintro s a s' ⟨hunreg, hquiet⟩ ⟨ha, hstep⟩
  exact ⟨step_unregistered hunreg hstep fun h => absurd h ha, step_quiet hunreg hquiet hstep⟩

/-- A channel with a stream in its second slot. -/
def sampleStream : Parties := { hdl := 257, streamFd := fun _ => 5 }

/-- The stream is stopped while its callback runs: the removal waits for it, and the second
buffer, which the kernel refuses, changes nothing. -/
theorem streamoff_barrier_sample : ∃ s s₁ s₂, Run (guarded (fun s a => s.keepsBarrier a = true) (fires Parties.step))
        sampleStream [.qbuf 257, .qbufDone 0 true, .sendAsync true, .procPipe, .qbuf 257,
          .poll [1], .notify, .delPollFd, .signal true, .readMsmFrame true, .leave, .notify] s ∧
      s.step .procPipe = some s₁ ∧ s₁.removal = .returned ∧
      Run (guarded (fun s a => a ≠ .qbuf s.hdl) (fires Parties.step)) s₁ [.qbufDone 0 false] s₂ ∧
      s₂.notifying = false := by
  have hret : (exec keepsBarrier Parties.step sampleStream [.qbuf 257, .qbufDone 0 true,
      .sendAsync true, .procPipe, .qbuf 257, .poll [1], .notify, .delPollFd, .signal true,
      .readMsmFrame true, .leave, .notify]).bind (fun s => (s.step .procPipe).map fun s₁ =>
        (s.removal, s₁.removal, s₁.queueing)) = some (.waiting, .returned, [257]) := by decide
  obtain ⟨s, hs, hret⟩ := Option.bind_eq_some_iff.mp hret
  obtain ⟨s₁, hs₁, hret⟩ := Option.map_eq_some_iff.mp hret
  obtain ⟨hbefore, hrest⟩ := Prod.mk.inj hret
  obtain ⟨hreturn, hqueue⟩ := Prod.mk.inj hrest
  have hlast : s₁.step (.qbufDone 0 false) = some ({ s₁ with queueing := s₁.queueing.eraseIdx 0 }.dropQueued 257) := by
    simp [Parties.step, hqueue]
  have hafter : Run (guarded (fun s a => a ≠ .qbuf s.hdl) (fires Parties.step)) s₁ _ _ :=
    Run.single ⟨by simp, hlast⟩
  refine ⟨s, s₁, _, run_of_exec hs, hs₁, hreturn, hafter, ?_⟩
  exact streamoff_barrier ⟨by decide, fun _ => rfl, rfl, rfl⟩ (run_of_exec hs) rfl hs₁
    (by simp [hbefore]) hreturn hafter

/-- The only buffer is dequeued, which removes the stream; the removal step finds no entry and
returns while the poll thread is still in the callback. -/
theorem streamoff_in_callback : ¬ ∀ (s₀ s s₁ s₂ : Parties) (as bs : List Action) (a : Action), s₀.Initial →
      Run (fires Parties.step) s₀ as s → s.step a = some s₁ → s.removal ≠ .returned →
      s₁.removal = .returned →
      Run (guarded (fun s a => a ≠ .qbuf s.hdl) (fires Parties.step)) s₁ bs s₂ →
      s₂.notifying = false := by
  intro hall
  have hret : (exec (fun _ _ => true) Parties.step sampleStream [.qbuf 257, .qbufDone 0 true,
      .sendAsync true, .procPipe, .poll [1], .notify, .readMsmFrame true, .sendAsync true]).bind
      (fun s => (s.step .delPollFd).map fun s₁ => (s.removal, s₁.removal, s₁.notifying)) =
      some (.idle, .returned, true) := by decide
  obtain ⟨s, hs, hret⟩ := Option.bind_eq_some_iff.mp hret
  obtain ⟨s₁, hs₁, hret⟩ := Option.map_eq_some_iff.mp hret
  obtain ⟨hbefore, hrest⟩ := Prod.mk.inj hret
  obtain ⟨hreturn, hin⟩ := Prod.mk.inj hrest
  have hquiet := hall sampleStream s s₁ s₁ _ [] .delPollFd ⟨by decide, fun _ => rfl, rfl, rfl⟩
    (run_of_exec hs).of_guarded hs₁ (by simp [hbefore]) hreturn Run.nil
  rw [hin] at hquiet
  cases hquiet

end PollThread

end Marlin
