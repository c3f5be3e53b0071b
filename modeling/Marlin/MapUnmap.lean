import Marlin.Transition

/-!
# Map and Unmap Answers

A thread that maps or unmaps a buffer sends a message to the daemon and waits until it is told the
outcome: `mm_camera_util_sendmsg` and `mm_camera_util_bundled_sendmsg` hold `msg_lock` over both, since
"sendmsg until response back is deemed as one operation". The daemon answers with an event, which
`mm_camera_event_notify` stores in `evt_rcvd`, the one slot there is, and the wait takes what it
finds in the slot, until it times out.

The event does not say what it answers. When a wait times out the answer is still to come, and the
next request takes it for its own: it is found in the slot when that request is sent, or it arrives
during its wait.

## Conventions

* The daemon answers every message with one event, in order; `inFlight` are the messages whose
  event has not been delivered.
* A wait that is not yet over times out before an event arrives or after; an event that arrives
  while a thread is blocked wakes it, so `expire` is only performed by a blocked thread.
* The two functions differ in the call that writes to the socket.

## Main results

* `Inv.step`: what a step keeps that sends a message only when none is in flight and the slot is
  empty.
* `right_run`: in the runs of such steps every call returns what the daemon answered to its own
  message, unless it timed out before.
-/

namespace Marlin

open List Transition

/-- The status that an event carries. -/
inductive MsmCameraStatus where
  | success
  | fail
  deriving DecidableEq

/-- `mm_camera_util_sendmsg` and `mm_camera_util_bundled_sendmsg`. -/
inductive SendmsgFn where
  | sendmsg
  | bundledSendmsg
  deriving DecidableEq

/-- How far the thread that holds `msg_lock` is. -/
inductive SendmsgPhase where
  /-- The message is to be sent. -/
  | locked
  /-- The slot is to be looked at, for the answer to a message. -/
  | checking (msg : ℕ)
  /-- In `pthread_cond_timedwait`. -/
  | blocked (msg : ℕ)
  /-- The wait has timed out; `answered` is what had been answered to the message by then. -/
  | expired (msg : ℕ) (answered : Option MsmCameraStatus)
  deriving DecidableEq

/-- The thread that holds `msg_lock`. -/
structure SendmsgCall where
  thread : ℕ
  fn : SendmsgFn
  phase : SendmsgPhase
  deriving DecidableEq

/-- A call that has sent its message and returned, with whether it timed out, and what had been
answered to the message when its wait ended. -/
structure SendmsgReturn where
  thread : ℕ
  fn : SendmsgFn
  msg : ℕ
  rc : ℤ
  expired : Bool
  answered : Option MsmCameraStatus
  deriving DecidableEq

/-- The threads, the slot `evt_rcvd` and the daemon, with the answers that were delivered and the
calls that returned. -/
structure MapUnmap where
  call : Option SendmsgCall := none
  evtRcvd : Option MsmCameraStatus := none
  inFlight : List ℕ := []
  nextMsg : ℕ := 0
  answers : List (ℕ × MsmCameraStatus) := []
  returns : List SendmsgReturn := []
  deriving DecidableEq

namespace MapUnmap

/-- The steps of the threads and of the event thread. -/
inductive Action where
  /-- A thread enters one of the functions. -/
  | lock (thread : ℕ) (fn : SendmsgFn)
  /-- The message is written to the socket, or it is not. -/
  | send (ok : Bool)
  /-- The loop of `mm_camera_util_wait_for_event` looks at the slot. -/
  | check
  /-- `pthread_cond_timedwait` returns without an event. -/
  | wake
  | expire
  /-- A wait that timed out resets the slot. -/
  | giveUp
  /-- `mm_camera_event_notify` stores the answer to the first message in flight. -/
  | deliver (status : MsmCameraStatus)
  deriving DecidableEq

/-- What the daemon has answered to a message. -/
def answered (s : MapUnmap) (msg : ℕ) : Option MsmCameraStatus := s.answers.lookup msg

/-- The value of `rc` for a status. -/
def rcOf (status : MsmCameraStatus) : ℤ := if status = .success then 0 else -1

/-- A wait ends: the slot is reset, `msg_lock` is released and the call returns. -/
def finish (s : MapUnmap) (c : SendmsgCall) (msg : ℕ) (status : MsmCameraStatus) (expired : Bool)
    (answered : Option MsmCameraStatus) : MapUnmap :=
  { s with
    call := none
    evtRcvd := none
    returns := s.returns ++ [⟨c.thread, c.fn, msg, rcOf status, expired, answered⟩] }

/-- The loop of `mm_camera_util_wait_for_event`, from its test on. -/
def look (s : MapUnmap) (c : SendmsgCall) (msg : ℕ) : MapUnmap :=
  match s.evtRcvd with
  | some status => s.finish c msg status false (s.answered msg)
  | none => { s with call := some { c with phase := .blocked msg } }

/-- A thread that is woken looks at the slot again. -/
def woken : SendmsgPhase → SendmsgPhase
  | .blocked msg => .checking msg
  | p => p

/-- `mm_camera_event_notify`. -/
def notify (s : MapUnmap) (msg : ℕ) (rest : List ℕ) (status : MsmCameraStatus) : MapUnmap :=
  { s with
    evtRcvd := some status
    inFlight := rest
    answers := s.answers ++ [(msg, status)]
    call := s.call.map fun c => { c with phase := woken c.phase } }

/-- One step. -/
def Step (s : MapUnmap) : Action → MapUnmap → Prop
  | .lock thread fn, t => s.call = none ∧ t = { s with call := some ⟨thread, fn, .locked⟩ }
  | .send ok, t => ∃ c, s.call = some c ∧ c.phase = .locked ∧
      t = if ok then
          { s with
            call := some { c with phase := .checking s.nextMsg }
            inFlight := s.inFlight ++ [s.nextMsg]
            nextMsg := s.nextMsg + 1 }
        else { s with call := none }
  | .check, t => ∃ c msg, s.call = some c ∧ c.phase = .checking msg ∧ t = s.look c msg
  | .wake, t => ∃ c msg, s.call = some c ∧ c.phase = .blocked msg ∧
      t = { s with call := some { c with phase := .checking msg } }
  | .expire, t => ∃ c msg, s.call = some c ∧ c.phase = .blocked msg ∧
      t = { s with call := some { c with phase := .expired msg (s.answered msg) } }
  | .giveUp, t => ∃ c msg answer, s.call = some c ∧ c.phase = .expired msg answer ∧
      t = s.finish c msg .fail true answer
  | .deliver status, t => ∃ msg rest, s.inFlight = msg :: rest ∧ t = s.notify msg rest status

/-- A message is sent only when none is in flight and the slot is empty. -/
def Quiet (s : MapUnmap) : Action → Prop
  | .send ok => ok = true → s.inFlight = [] ∧ s.evtRcvd = none
  | _ => True

instance (s : MapUnmap) : DecidablePred (Quiet s) := fun e => by
  delta Quiet
  cases e <;> infer_instance

/-- A call that returns `0` was answered success, and one that does not was answered failure or
timed out before an answer. -/
def SendmsgReturn.Right (r : SendmsgReturn) : Prop :=
  (r.rc = 0 → r.answered = some .success) ∧ (r.rc ≠ 0 → r.answered = some .fail ∨ r.expired = true ∧ r.answered = none)

/-- The message that the daemon is to answer, or has answered, for a wait. -/
def Asked (s : MapUnmap) (msg : ℕ) : Prop :=
  s.inFlight = [msg] ∧ s.evtRcvd = none ∧ s.answered msg = none ∨
    s.inFlight = [] ∧ ∃ status, s.evtRcvd = some status ∧ s.answered msg = some status

/-- What holds of a phase. -/
def Waits (s : MapUnmap) : SendmsgPhase → Prop
  | .locked => True
  | .checking msg => s.Asked msg
  | .blocked msg => s.inFlight = [msg] ∧ s.evtRcvd = none ∧ s.answered msg = none
  | .expired _ answer => answer = none

/-- The invariant. -/
structure Inv (s : MapUnmap) : Prop where
  waits : ∀ c, s.call = some c → s.Waits c.phase
  fresh : ∀ a ∈ s.answers, a.1 < s.nextMsg
  sent : ∀ msg ∈ s.inFlight, msg < s.nextMsg
  right : ∀ r ∈ s.returns, SendmsgReturn.Right r

variable {s : MapUnmap}

theorem answered_notify {msg : ℕ} {rest : List ℕ} {status : MsmCameraStatus}
    (h : s.answered msg = none) : (s.notify msg rest status).answered msg = some status := by
  simp only [answered] at h
  simp [answered, notify, lookup_append, h]

theorem Inv.answered_nextMsg (h : Inv s) : s.answered s.nextMsg = none := by
  rw [answered, lookup_eq_none_iff]
  intro a ha
  have hne : s.nextMsg ≠ a.1 := Nat.ne_of_gt (h.fresh a ha)
  simpa using hne

theorem Inv.finish (h : Inv s) {c : SendmsgCall} {msg : ℕ} {status : MsmCameraStatus}
    {expired : Bool} {answer : Option MsmCameraStatus}
    (hright : SendmsgReturn.Right ⟨c.thread, c.fn, msg, rcOf status, expired, answer⟩) :
    Inv (s.finish c msg status expired answer) where
  waits _ hc := by cases hc
  fresh := h.fresh
  sent := h.sent
  right r hr := by
    rcases mem_append.mp hr with hr | hr
    · exact h.right r hr
    · exact mem_singleton.mp hr ▸ hright

theorem Inv.setPhase (h : Inv s) {c : SendmsgCall} {p : SendmsgPhase}
    (hp : s.Waits p) : Inv { s with call := some { c with phase := p } } where
  waits c' hc' := by
    cases hc'
    cases p with
    | locked => trivial
    | checking msg => exact hp
    | blocked msg => exact hp
    | expired msg answer => exact hp
  fresh := h.fresh
  sent := h.sent
  right := h.right

theorem Inv.sendMsg (h : Inv s) (c : SendmsgCall) (hnone : s.inFlight = []) (hslot : s.evtRcvd = none) :
    Inv { s with
      call := some { c with phase := .checking s.nextMsg }
      inFlight := s.inFlight ++ [s.nextMsg]
      nextMsg := s.nextMsg + 1 } where
  waits c' hc' := by
    cases hc'
    exact .inl ⟨by rw [hnone]; rfl, hslot, h.answered_nextMsg⟩
  fresh a ha := Nat.lt_succ_of_lt (h.fresh a ha)
  sent msg hmsg := by
    rw [hnone] at hmsg
    obtain rfl := mem_singleton.mp hmsg
    exact Nat.lt_succ_self _
  right := h.right

/-- The first message in flight is answered. -/
theorem Inv.notify (h : Inv s) {msg : ℕ} {rest : List ℕ}
    (hhead : s.inFlight = msg :: rest) (status : MsmCameraStatus) :
    Inv (s.notify msg rest status) where
  waits c hc := by
    obtain ⟨c₀, hc₀, rfl⟩ := Option.map_eq_some_iff.mp hc
    have hwaits := h.waits c₀ hc₀
    -- a thread that waits for an answer has sent the only message in flight
    have hasked {m : ℕ} (hone : s.inFlight = [m]) (hnone : s.answered m = none) :
        (s.notify msg rest status).Asked m := by
      obtain ⟨rfl, rfl⟩ : msg = m ∧ rest = [] := by simpa using hhead.symm.trans hone
      exact .inr ⟨rfl, status, rfl, answered_notify hnone⟩
    cases hphase : c₀.phase with
    | locked => simp only [woken, Waits]
    | checking m =>
      rw [hphase] at hwaits
      rcases hwaits with ⟨hone, -, hnone⟩ | ⟨hempty, -⟩
      · exact hasked hone hnone
      · rw [hhead] at hempty
        cases hempty
    | blocked m =>
      rw [hphase] at hwaits
      exact hasked hwaits.1 hwaits.2.2
    | expired m answer =>
      rw [hphase] at hwaits
      exact hwaits
  fresh a ha := by
    rcases mem_append.mp ha with ha | ha
    · exact h.fresh a ha
    · obtain rfl := mem_singleton.mp ha
      exact h.sent msg (hhead ▸ mem_cons_self)
  sent m hm := h.sent m (hhead ▸ mem_cons_of_mem msg hm)
  right := h.right

/-- **One step.** -/
theorem Inv.step {s t : MapUnmap} {a : Action} (h : Inv s) (hquiet : Quiet s a) (hstep : Step s a t) : Inv t := by
  cases a with
  | lock thread fn =>
    obtain ⟨-, rfl⟩ := hstep
    exact h.setPhase (c := ⟨thread, fn, .locked⟩) (p := .locked) trivial
  | send ok =>
    obtain ⟨c, -, -, rfl⟩ := hstep
    cases ok with
    | false => exact ⟨nofun, h.fresh, h.sent, h.right⟩
    | true =>
      obtain ⟨hnone, hslot⟩ := hquiet rfl
      exact h.sendMsg c hnone hslot
  | check =>
    obtain ⟨c, msg, hc, hphase, rfl⟩ := hstep
    have hasked := h.waits c hc
    rw [hphase] at hasked
    rw [look]
    split
    · rename_i status hslot
      have hanswer : s.answered msg = some status := by
        rcases hasked with ⟨-, hempty, -⟩ | ⟨-, status', hslot', hanswer⟩
        · cases hempty.symm.trans hslot
        · obtain rfl := Option.some.inj (hslot'.symm.trans hslot)
          exact hanswer
      refine h.finish ⟨fun hrc => ?_, fun hrc => .inl ?_⟩
      · cases status with
        | success => exact hanswer
        | fail => cases hrc
      · cases status with
        | success => exact absurd rfl hrc
        | fail => exact hanswer
    · rename_i hslot
      rcases hasked with hblocked | ⟨-, status, hslot', -⟩
      · exact h.setPhase (p := .blocked msg) hblocked
      · cases hslot.symm.trans hslot'
  | wake =>
    obtain ⟨c, msg, hc, hphase, rfl⟩ := hstep
    have hwaits := h.waits c hc
    rw [hphase] at hwaits
    exact h.setPhase (p := .checking msg) (.inl hwaits)
  | expire =>
    obtain ⟨c, msg, hc, hphase, rfl⟩ := hstep
    have hwaits := h.waits c hc
    rw [hphase] at hwaits
    exact h.setPhase (p := .expired msg (s.answered msg)) hwaits.2.2
  | giveUp =>
    obtain ⟨c, msg, answer, hc, hphase, rfl⟩ := hstep
    have hwaits := h.waits c hc
    rw [hphase] at hwaits
    exact h.finish ⟨nofun, fun _ => .inr ⟨rfl, hwaits⟩⟩
  | deliver status =>
    obtain ⟨msg, rest, hhead, rfl⟩ := hstep
    exact h.notify hhead status

theorem inv_init : Inv {} where
  waits _ hc := by cases hc
  fresh _ ha := absurd ha not_mem_nil
  sent _ hm := absurd hm not_mem_nil
  right _ hr := absurd hr not_mem_nil

/-- **Answers.** As long as a message is sent only when all earlier ones have been answered and the
slot is empty, every call returns what the daemon answered to its own message, unless it timed out
before. -/
theorem right_run {as : List Action} {s : MapUnmap} (hrun : Run (guarded Quiet Step) {} as s) :
    ∀ r ∈ s.returns, SendmsgReturn.Right r :=
  (hrun.invariant (fun _ _ _ h hstep => h.step hstep.1 hstep.2) inv_init).right

/-- Two threads send a message each, one after the other. -/
theorem right_run_two : ∃ as s, Run (guarded Quiet Step) {} as s ∧ s.returns.length = 2 ∧
    ∀ r ∈ s.returns, SendmsgReturn.Right r := by
  have hone : Run (guarded Quiet Step) {} [.lock 0 .sendmsg] _ := .single ⟨trivial, rfl, rfl⟩
  have hsent := ((hone.snoc (a := Action.send true) ⟨by decide, _, rfl, rfl, rfl⟩).snoc
    (a := Action.check) ⟨trivial, _, _, rfl, rfl, rfl⟩).snoc (a := Action.deliver .success) ⟨trivial, _, _, rfl, rfl⟩
  have htwo := (hsent.snoc (a := Action.check) ⟨trivial, _, _, rfl, rfl, rfl⟩).snoc
    (a := Action.lock 1 .bundledSendmsg) ⟨trivial, rfl, rfl⟩
  have hrun := ((htwo.snoc (a := Action.send true) ⟨by decide, _, rfl, rfl, rfl⟩).snoc
    (a := Action.deliver .fail) ⟨trivial, _, _, rfl, rfl⟩).snoc (a := Action.check) ⟨trivial, _, _, rfl, rfl, rfl⟩
  exact ⟨_, _, hrun, rfl, right_run hrun⟩

/-- A message times out; the answer to it is taken for the answer to the next one. -/
theorem not_right_run : ¬ ∀ as s, Run Step {} as s → ∀ r ∈ s.returns, SendmsgReturn.Right r := by
  intro hall
  have hone : Run Step {} [.lock 0 .sendmsg] _ := .single ⟨rfl, rfl⟩
  have hlate := ((hone.snoc (a := Action.send true) ⟨_, rfl, rfl, rfl⟩).snoc
    (a := Action.check) ⟨_, _, rfl, rfl, rfl⟩).snoc (a := Action.expire) ⟨_, _, rfl, rfl, rfl⟩
  have hnext := ((hlate.snoc (a := Action.giveUp) ⟨_, _, _, rfl, rfl, rfl⟩).snoc
    (a := Action.lock 1 .sendmsg) ⟨rfl, rfl⟩).snoc (a := Action.send true) ⟨_, rfl, rfl, rfl⟩
  have hrun := (hnext.snoc (a := Action.deliver .success) ⟨_, _, rfl, rfl⟩).snoc
    (a := Action.check) ⟨_, _, rfl, rfl, rfl⟩
  have hright := hall _ _ hrun ⟨1, .sendmsg, 1, 0, false, none⟩ (by decide)
  exact absurd (hright.1 rfl) (by decide)

end MapUnmap

end Marlin
