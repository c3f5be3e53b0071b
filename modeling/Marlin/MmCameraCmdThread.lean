import Marlin.Transition
import Mathlib.Data.List.ReduceOption

/-!
# The Command Threads of the Camera Interface

`mm_camera_cmd_thread` waits on a semaphore, and takes all nodes from its queue for each token; the callers put a node
in the queue and post, under two locks. The queue is a list, as in `Marlin.QueueRefinement`, and the calls of `pthread`
do not fail.

## Main results

* `run_calls`: the callback gets what was sent, once and in order, and no wake-up is lost.
* `run_stops`: after `mm_camera_cmd_thread_stop` has posted, the thread comes to its end by itself.
-/

namespace Marlin.MmCameraCmdThread

open List Transition

/-- Where the thread is. -/
inductive Phase
  /-- Before a test of `val` in `cam_sem_wait`. -/
  | waiting
  /-- In `pthread_cond_wait`. -/
  | asleep
  /-- Before a `cam_queue_deq`. -/
  | taking
  | ended
deriving DecidableEq

/-- `mm_camera_cmd_thread_t` and its thread. A node is what the callback gets, or `none` for `EXIT` and what has no
`case`. -/
structure CmdThread (β : Type*) where
  cmdQueue : List (Option β) := []
  val : ℕ := 0
  running : Bool := true
  phase : Phase := .waiting
  /-- The callers between their `cam_queue_enq` and their `cam_sem_post`. -/
  unposted : ℕ := 0
  /-- All nodes that were put in the queue. -/
  sent : List (Option β) := []
  /-- What the callback has got. -/
  called : List β := []
deriving DecidableEq

inductive Event (β : Type*)
  | enq (node : Option β)
  | post
  /-- The thread goes on. -/
  | work
  /-- `pthread_cond_wait` returns without a signal. -/
  | spurious
deriving DecidableEq

variable {β : Type*}

/-- What the thread does next. -/
def work (t : CmdThread β) : CmdThread β :=
  match t.phase with
  | .waiting => if t.val = 0 then { t with phase := .asleep } else { t with val := t.val - 1, phase := .taking }
  | .taking =>
    match t.cmdQueue with
    | [] => { t with phase := if t.running then .waiting else .ended }
    | some b :: nodes => { t with cmdQueue := nodes, called := t.called ++ [b] }
    | none :: nodes => { t with cmdQueue := nodes, running := false }
  | _ => t

def next (t : CmdThread β) : Event β → Option (CmdThread β)
  | .enq node => some { t with
      cmdQueue := t.cmdQueue ++ [node]
      unposted := t.unposted + 1
      sent := t.sent ++ [node] }
  | .post =>
    if t.unposted = 0 then none
    else some { t with
      val := t.val + 1
      unposted := t.unposted - 1
      phase := if t.phase = .asleep then .waiting else t.phase }
  | .work => some (work t)
  | .spurious => some { t with phase := if t.phase = .asleep then .waiting else t.phase }

/-- What holds in every run. -/
structure Inv (t : CmdThread β) : Prop where
  called : t.called ++ t.cmdQueue.reduceOption = t.sent.reduceOption
  exit : none ∈ t.sent ↔ t.running = false ∨ none ∈ t.cmdQueue
  /-- Each node has a token, or a caller who posts one. -/
  token : t.phase = .waiting ∨ t.phase = .asleep → t.running = true ∧ t.cmdQueue.length ≤ t.val + t.unposted
  asleep : t.phase = .asleep → t.val = 0
  ended : t.phase = .ended → t.running = false

variable {t u : CmdThread β} {a : Event β} {as : List (Event β)}

theorem Inv.work (h : Inv t) : Inv (work t) := by
  rw [MmCameraCmdThread.work]
  split
  · rename_i hphase
    split
    · exact { h with token := fun _ => h.token (.inl hphase), asleep := fun _ => ‹_›, ended := nofun }
    · exact { h with token := nofun, asleep := nofun, ended := nofun }
  · rename_i hphase
    split
    · rename_i hqueue
      split
      · refine { h with token := fun _ => ⟨‹_›, ?_⟩, asleep := nofun, ended := nofun }
        rw [hqueue]
        exact Nat.zero_le _
      · exact { h with token := nofun, asleep := nofun, ended := fun _ => eq_false_of_ne_true ‹_› }
    · rename_i b nodes hqueue
      obtain ⟨hcalled, hexit, -, -, -⟩ := h
      rw [hqueue, reduceOption_cons_of_some] at hcalled
      rw [hqueue, mem_cons, or_iff_right (Option.some_ne_none b).symm] at hexit
      exact ⟨by rwa [append_assoc], hexit, by simp [hphase], by simp [hphase], by simp [hphase]⟩
    · rename_i nodes hqueue
      obtain ⟨hcalled, hexit, -, -, -⟩ := h
      rw [hqueue, reduceOption_cons_of_none] at hcalled
      rw [hqueue] at hexit
      exact ⟨hcalled, iff_of_true (hexit.mpr (.inr mem_cons_self)) (.inl rfl), by simp [hphase], by simp [hphase],
        by simp [hphase]⟩
  · exact h

theorem Inv.wake (h : Inv t) : Inv { t with phase := if t.phase = .asleep then .waiting else t.phase } := by
  split
  · exact { h with token := fun _ => h.token (.inr ‹_›), asleep := nofun, ended := nofun }
  · exact h

/-- **One step.** -/
theorem Inv.next (h : Inv t) (hstep : fires next t a u) : Inv u := by
  cases a with
  | enq node =>
    obtain rfl := Option.some.inj hstep
    obtain ⟨hcalled, hexit, htoken, hasleep, hended⟩ := h
    refine ⟨?_, ?_, fun hphase => ⟨(htoken hphase).1, ?_⟩, hasleep, hended⟩
    · simp only [reduceOption_append, ← hcalled, append_assoc]
    · simp only [mem_append, hexit, or_assoc]
    · have hlen := (htoken hphase).2
      rw [length_append, length_singleton]
      dsimp only
      omega
  | post =>
    rw [fires, MmCameraCmdThread.next] at hstep
    split at hstep
    · cases hstep
    obtain rfl := Option.some.inj hstep
    obtain ⟨hcalled, hexit, htoken, -, hended⟩ := h.wake
    refine ⟨hcalled, hexit, fun hphase => ⟨(htoken hphase).1, ?_⟩, fun hphase => ?_, hended⟩
    · have hlen := (htoken hphase).2
      dsimp only at hlen ⊢
      omega
    · dsimp only at hphase
      split at hphase
      · cases hphase
      · exact absurd hphase ‹_›
  | work =>
    obtain rfl := Option.some.inj hstep
    exact h.work
  | spurious =>
    obtain rfl := Option.some.inj hstep
    exact h.wake

theorem run_inv (hrun : Run (fires next) {} as t) : Inv t :=
  hrun.invariant (fun _ _ _ => Inv.next) ⟨rfl, by simp, fun _ => ⟨rfl, Nat.zero_le _⟩, by rintro ⟨⟩, by rintro ⟨⟩⟩

/-- **The callback gets what is sent**, each node once and in order, and the rest waits in the queue. While the thread
sleeps, each node that waits has a caller who has still to post. -/
theorem run_calls (hrun : Run (fires next) {} as t) :
    t.called ++ t.cmdQueue.reduceOption = t.sent.reduceOption ∧
      (t.phase = .asleep → t.cmdQueue.length ≤ t.unposted) :=
  have h := run_inv hrun
  ⟨h.called, fun hphase => by have := (h.token (.inr hphase)).2; have := h.asleep hphase; omega⟩

/-! ## The end of the thread -/

theorem works (t : CmdThread β) : Reaches (fires next) (· = .work) t (work t) :=
  .single (show next t .work = some (work t) from rfl) rfl

/-- The loop takes all nodes. -/
theorem takes_all (hphase : t.phase = .taking) : ∃ u, Reaches (fires next) (· = .work) t u ∧ u.cmdQueue = [] ∧
    (u.phase = .waiting ∨ u.phase = .ended) := by
  induction hqueue : t.cmdQueue generalizing t with
  | nil =>
    refine ⟨work t, works t, ?_⟩
    simp only [work, hphase, hqueue]
    cases t.running <;> simp
  | cons node nodes ih =>
    have hnode : (work t).phase = .taking ∧ (work t).cmdQueue = nodes := by
      cases node <;> simp only [work, hphase, hqueue, and_self]
    obtain ⟨u, hreach, hdone⟩ := ih hnode.1 hnode.2
    exact ⟨u, (works t).trans hreach, hdone⟩

/-- **The thread comes to its end** by itself, once `EXIT` is in the queue and posted, and the callback has got all that
was sent. -/
theorem run_stops (hrun : Run (fires next) {} as t) (hexit : none ∈ t.sent) (hpost : t.unposted = 0)
    (halive : t.phase ≠ .ended) :
    ∃ u, Reaches (fires next) (· = .work) t u ∧ u.phase = .ended ∧ u.called = t.sent.reduceOption := by
  have h := run_inv hrun
  have htakes {v : CmdThread β} (hinv : Inv v) (hsent : v.sent = t.sent) (hphase : v.phase = .taking)
      (hreach : Reaches (fires next) (· = .work) t v) :
      ∃ u, Reaches (fires next) (· = .work) t u ∧ u.phase = .ended ∧ u.called = t.sent.reduceOption := by
    obtain ⟨u, hu, hdone, hend⟩ := takes_all hphase
    have hkept : Inv u ∧ u.sent = t.sent := hu.invariant (I := fun u => Inv u ∧ u.sent = t.sent)
      (fun s a s' ha hI hs => ⟨hI.1.next hs, by
        subst ha
        obtain rfl := Option.some.inj hs
        rw [← hI.2, work]
        repeat' split
        all_goals rfl⟩) ⟨hinv, hsent⟩
    refine ⟨u, hreach.trans hu, hend.resolve_left fun hwaiting => ?_, ?_⟩
    · have hstopped := (hkept.1.exit.mp (hkept.2 ▸ hexit)).resolve_right (by simp [hdone])
      rw [(hkept.1.token (.inl hwaiting)).1] at hstopped
      cases hstopped
    · rw [← hkept.2, ← hkept.1.called, hdone]
      exact (append_nil _).symm
  have hnode : t.running = true → t.val + t.unposted ≥ t.cmdQueue.length → t.val ≠ 0 := fun hrunning hlen hzero => by
    have hmem := (h.exit.mp hexit).resolve_left (by simp [hrunning])
    have := length_pos_of_mem hmem
    omega
  cases hphase : t.phase with
  | waiting =>
    obtain ⟨hrunning, hlen⟩ := h.token (.inl hphase)
    have hwork : work t = { t with val := t.val - 1, phase := .taking } := by
      rw [work, hphase]
      exact if_neg (hnode hrunning hlen)
    exact htakes h.work (hwork ▸ rfl) (hwork ▸ rfl) (works t)
  | asleep =>
    obtain ⟨hrunning, hlen⟩ := h.token (.inr hphase)
    exact absurd (h.asleep hphase) (hnode hrunning hlen)
  | taking => exact htakes h rfl hphase (.refl t)
  | ended => exact absurd hphase halive

/-- A node that waits while the thread works on another one. -/
theorem run_calls_two : ∃ t : CmdThread ℕ,
    Run (fires next) {} [.work, .enq (some 7), .post, .work, .work, .enq (some 8)] t ∧
      t.called ++ t.cmdQueue.reduceOption = [7, 8] := by
  obtain ⟨t, hrun, hsent⟩ := exists_run_fires (P := fun t : CmdThread ℕ => t.sent.reduceOption = [7, 8])
    (by decide : (exec (fun _ _ => true) next {}
      [.work, .enq (some 7), .post, .work, .work, .enq (some 8)]).any _ = true)
  exact ⟨t, hrun, (run_calls hrun).1.trans hsent⟩

theorem run_stops_two : ∃ t u : CmdThread ℕ, Run (fires next) {} [.enq (some 7), .enq none, .post, .post] t ∧
    Reaches (fires next) (· = .work) t u ∧ u.phase = .ended ∧ u.called = [7] := by
  obtain ⟨t, hrun, hsent, hpost, halive⟩ := exists_run_fires
    (P := fun t : CmdThread ℕ => t.sent = [some 7, none] ∧ t.unposted = 0 ∧ t.phase ≠ .ended)
    (by decide : (exec (fun _ _ => true) next {} [.enq (some 7), .enq none, .post, .post]).any _ = true)
  obtain ⟨u, hreach, hend, hcalled⟩ := run_stops hrun (by simp [hsent]) hpost halive
  exact ⟨t, u, hrun, hreach, hend, hcalled.trans (by rw [hsent]; rfl)⟩

end Marlin.MmCameraCmdThread
