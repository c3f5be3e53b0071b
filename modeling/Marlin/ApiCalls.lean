import Mathlib.Algebra.Order.BigOperators.Group.Finset
import Marlin.ApiResultList
import Marlin.Transition

/-!
# The API Calls of Several Threads

A thread that calls the state machine takes `m_lock`, puts its request in the queue, sleeps in `waitAPIResult` until
it finds a result of its event, and releases the lock. The state machine takes the requests in order and answers each
one with `signalAPIResult`, which wakes up everyone. Results are matched by their event: of two threads that wait for
the same event, each may return with the result of the other.

## Conventions

* A step is taken by one thread at a time; what a thread does while it holds the lock is one step or a few.
* What the code does not have: the requests so far (`made`), and the calls that have returned, each with the result
  it returned with (`returned`).
* A thread may wake up without being woken (`spurious`).
* There are finitely many threads, any number of them, and each calls as often as it wants to.

## Main results

* `Ledger.Balanced.step`, `Ledger.Own.step`: what the steps of a ledger keep.
* `step_inv`: each step keeps the invariant, and is a step of the ledger.
-/

namespace Marlin

namespace ApiCalls

open List Function Option Transition

variable {τ ε : Type*}

/-- Where a thread is. -/
inductive Caller (ε : Type*)
  | idle
  /-- It holds the lock, and has not called yet. -/
  | locked (evt : ε)
  /-- It holds the lock, and comes to `pthread_cond_wait`. -/
  | ready (r : Request ε)
  | asleep (r : Request ε)
  /-- It was woken up, and waits for the lock. -/
  | awake (r : Request ε)
  /-- It holds the lock, and comes to look through the list. -/
  | looking (r : Request ε)
  /-- `waitAPIResult` has returned; it holds the lock. -/
  | served
  deriving DecidableEq

/-- Where the thread of the state machine is. -/
inductive Server (ε : Type*)
  | idle
  /-- It handles a request, and comes to `signalAPIResult`. -/
  | handling (r : Request ε)
  | locked (r : Request ε)
  /-- It has signalled, and holds the lock. -/
  | signalled
  deriving DecidableEq

namespace Caller

/-- The request of the call, until `waitAPIResult` returns. -/
def request : Caller ε → Multiset (Request ε)
  | ready r | asleep r | awake r | looking r => {r}
  | idle | locked _ | served => 0

/-- The events of the callers that are going to look through the list. -/
def looksFor : Caller ε → Multiset ε
  | awake r | looking r => {r.evt}
  | idle | locked _ | ready _ | asleep _ | served => 0

/-- The caller holds the lock. -/
def Holds : Caller ε → Prop
  | locked _ | ready _ | looking _ | served => True
  | idle | asleep _ | awake _ => False

/-- What the thread has left to do, at most, where there are `n` threads. -/
def left (n : ℕ) : Caller ε → ℕ
  | idle => 0
  | locked _ => 3 * n + 9
  | ready _ => 3
  | asleep _ => 2
  | awake _ => 5
  | looking _ => 4
  | served => 1

/-- `pthread_cond_broadcast`. -/
def wake : Caller ε → Caller ε
  | asleep r => awake r
  | c => c

end Caller

namespace Server

/-- The request that is not answered yet. -/
def request : Server ε → List (Request ε)
  | handling r | locked r => [r]
  | idle | signalled => []

/-- What the state machine has left to do with the request it handles. -/
def left (n : ℕ) : Server ε → ℕ
  | idle => 0
  | handling _ => 3 * n + 4
  | locked _ => 3 * n + 3
  | signalled => 1

/-- The state machine holds the lock. -/
def Holds : Server ε → Prop
  | locked _ | signalled => True
  | idle | handling _ => False

end Server

/-- The threads, the lock, the queue of the requests and the list of the results. `some none` holds the lock where
the state machine does. -/
structure Api (τ ε : Type*) where
  m_lock : Option (Option τ) := none
  callers : τ → Caller ε := fun _ => .idle
  api_queue : List (Request ε) := []
  server : Server ε := .idle
  list : ResultList ε := {}
  made : List (Request ε) := []
  returned : List (Request ε × Result ε) := []

/-- The steps of the threads. -/
inductive Act (τ ε : Type*)
  | lockAPI (t : τ) (evt : ε)
  | processAPI (t : τ) (evt : ε)
  | condWait (t : τ)
  | spurious (t : τ)
  | condReturn (t : τ)
  | look (t : τ) (n : ℕ)
  | unlockAPI (t : τ)
  | dequeue
  | lock
  | signal (n apiResult : ℕ)
  | unlock
  deriving DecidableEq

namespace Act

/-- The step begins a new call. -/
def isCall : Act τ ε → Bool
  | lockAPI _ _ => true
  | _ => false

/-- The step wakes up a thread that nobody has woken. -/
def isSpurious : Act τ ε → Bool
  | spurious _ => true
  | _ => false

/-- What the step may add to what is left to do, and one. -/
def adds (n : ℕ) (a : Act τ ε) : ℕ := (if a.isSpurious then 4 else 0) + if a.isCall then 3 * n + 10 else 0

/-- The event that is called. -/
def called : Act τ ε → Option ε
  | processAPI _ evt => some evt
  | _ => none

end Act

namespace Api

section

variable [DecidableEq τ] [DecidableEq ε]

/-- A thread comes somewhere else. -/
def goto (s : Api τ ε) (t : τ) (c : Caller ε) : Api τ ε := { s with callers := Function.update s.callers t c }

/-- One step. -/
def step (s : Api τ ε) : Act τ ε → Option (Api τ ε)
  | .lockAPI t evt =>
    match s.callers t, s.m_lock with
    | .idle, none => some { s.goto t (.locked evt) with m_lock := some (some t) }
    | _, _ => none
  | .processAPI t evt =>
    match s.callers t with
    | .locked e =>
      let r : Request ε := ⟨s.made.length, evt⟩
      if e = evt then some { s.goto t (.ready r) with api_queue := s.api_queue ++ [r], made := s.made ++ [r] }
      else none
    | _ => none
  | .condWait t =>
    match s.callers t with
    | .ready r => some { s.goto t (.asleep r) with m_lock := none }
    | _ => none
  | .spurious t =>
    match s.callers t with
    | .asleep r => some (s.goto t (.awake r))
    | _ => none
  | .condReturn t =>
    match s.callers t, s.m_lock with
    | .awake r, none => some { s.goto t (.looking r) with m_lock := some (some t) }
    | _, _ => none
  | .look t n =>
    match s.callers t with
    | .looking r =>
      match s.list.take n r.evt with
      | none => none
      | some (none, list) => some { s.goto t (.ready r) with list := list }
      | some (some x, list) =>
        some { s.goto t .served with list := list, returned := s.returned ++ [(r, x)] }
    | _ => none
  | .unlockAPI t =>
    match s.callers t with
    | .served => some { s.goto t .idle with m_lock := none }
    | _ => none
  | .dequeue =>
    match s.server, s.api_queue with
    | .idle, r :: rest => some { s with server := .handling r, api_queue := rest }
    | _, _ => none
  | .lock =>
    match s.server, s.m_lock with
    | .handling r, none => some { s with server := .locked r, m_lock := some none }
    | _, _ => none
  | .signal n apiResult =>
    match s.server, s.list.mem apiResult with
    | .locked r, none =>
      (s.list.add n apiResult ⟨r.evt, r⟩).map fun list =>
        { s with list := list, callers := fun t => (s.callers t).wake, server := .signalled }
    | _, _ => none
  | .unlock =>
    match s.server with
    | .signalled => some { s with server := .idle, m_lock := none }
    | _ => none

end

end Api

/-! ### The ledger of the calls -/

/-- What became of the requests so far. -/
structure Ledger (ε : Type*) where
  made : List (Request ε) := []
  /-- The calls that have not returned. -/
  inProgress : Multiset (Request ε) := 0
  /-- The requests whose result is not delivered. -/
  undelivered : Multiset (Request ε) := 0
  returned : List (Request ε × Result ε) := []

namespace Ledger

/-- What a step of the threads does to the ledger. -/
inductive Step (l : Ledger ε) : Option ε → Ledger ε → Prop
  | quiet : Step l none l
  | call (evt : ε) {l' : Ledger ε} (hmade : l'.made = l.made ++ [⟨l.made.length, evt⟩])
      (hin : l'.inProgress = ⟨l.made.length, evt⟩ ::ₘ l.inProgress)
      (hun : l'.undelivered = ⟨l.made.length, evt⟩ ::ₘ l.undelivered) (hret : l'.returned = l.returned) :
      Step l (some evt) l'
  | ret (r : Request ε) (x : Result ε) {l' : Ledger ε} (hmade : l'.made = l.made)
      (hin : l.inProgress = r ::ₘ l'.inProgress) (hun : l.undelivered = x.request ::ₘ l'.undelivered)
      (hapi : x.request_api = r.evt) (hevt : x.request.evt = r.evt)
      (hret : l'.returned = l.returned ++ [(r, x)]) : Step l none l'

/-- Each call has returned once or is in progress, each result is delivered once or not yet, and a call returns with
a result of its event. -/
structure Balanced (l : Ledger ε) : Prop where
  ids : l.made.map Request.id = List.range l.made.length
  calls : (l.returned.map Prod.fst : Multiset (Request ε)) + l.inProgress = l.made
  results : (l.returned.map fun p => p.2.request : Multiset (Request ε)) + l.undelivered = l.made
  evts : ∀ p ∈ l.returned, p.2.request_api = p.1.evt ∧ p.2.request.evt = p.1.evt

/-- Nothing but the request has its event, and its call has not returned with another result. -/
structure Own (r : Request ε) (l : Ledger ε) : Prop where
  inProgress : ∀ q ∈ l.inProgress, q.evt = r.evt → q = r
  undelivered : ∀ q ∈ l.undelivered, q.evt = r.evt → q = r
  returned : ∀ p ∈ l.returned, p.1 = r → p.2.request = r

variable {l l' : Ledger ε} {r : Request ε} {o : Option ε}

theorem Balanced.step (h : l.Balanced) (hs : l.Step o l') : l'.Balanced := by
  cases hs with
  | quiet => exact h
  | call evt hmade hin hun hret =>
    refine ⟨?_, ?_, ?_, hret ▸ h.evts⟩
    · rw [hmade, map_append, h.ids, length_append, length_singleton, range_succ]
      rfl
    · rw [hmade, hin, hret, Multiset.add_cons, h.calls, Multiset.cons_coe]
      exact Multiset.coe_eq_coe.2 (perm_append_singleton _ _).symm
    · rw [hmade, hun, hret, Multiset.add_cons, h.results, Multiset.cons_coe]
      exact Multiset.coe_eq_coe.2 (perm_append_singleton _ _).symm
  | ret r x hmade hin hun hapi hevt hret =>
    refine ⟨hmade ▸ h.ids, ?_, ?_, ?_⟩
    · rw [hmade, ← h.calls, hin, hret, map_append, ← Multiset.coe_add, add_assoc]
      rfl
    · rw [hmade, ← h.results, hun, hret, map_append, ← Multiset.coe_add, add_assoc]
      rfl
    · rw [hret, forall_mem_append]
      exact ⟨h.evts, forall_mem_singleton.2 ⟨hapi, hevt⟩⟩

theorem Balanced.nodup_made (h : l.Balanced) : l.made.Nodup :=
  List.Nodup.of_map Request.id (h.ids ▸ nodup_range)

theorem Balanced.nodup_calls (h : l.Balanced) : (l.returned.map Prod.fst).Nodup := by
  have hnodup : ((l.returned.map Prod.fst : Multiset (Request ε)) + l.inProgress).Nodup :=
    h.calls ▸ Multiset.coe_nodup.2 h.nodup_made
  exact Multiset.coe_nodup.1 (Multiset.nodup_add.1 hnodup).1

theorem Balanced.nodup_results (h : l.Balanced) : (l.returned.map fun p => p.2.request).Nodup := by
  have hnodup : ((l.returned.map fun p => p.2.request : Multiset (Request ε)) + l.undelivered).Nodup :=
    h.results ▸ Multiset.coe_nodup.2 h.nodup_made
  exact Multiset.coe_nodup.1 (Multiset.nodup_add.1 hnodup).1

/-- **As many calls of an event are in progress as results of it are not delivered.** -/
theorem Balanced.map_evt (h : l.Balanced) : l.inProgress.map Request.evt = l.undelivered.map Request.evt := by
  have hreturned : (l.returned.map Prod.fst).map Request.evt =
      (l.returned.map fun p => p.2.request).map Request.evt := by
    rw [List.map_map, List.map_map]
    exact map_congr_left fun p hp => (h.evts p hp).2.symm
  have hsum := congrArg (Multiset.map Request.evt) (h.calls.trans h.results.symm)
  rw [Multiset.map_add, Multiset.map_add, Multiset.map_coe, Multiset.map_coe, hreturned] at hsum
  exact add_left_cancel hsum

/-- A request that is the only one of its event stays alone until another one is made. -/
theorem Own.step (h : l.Own r) (hs : l.Step o l') (ho : o ≠ some r.evt) : l'.Own r := by
  cases hs with
  | quiet => exact h
  | call evt hmade hin hun hret =>
    have hne : ∀ q : Request ε, q = ⟨l.made.length, evt⟩ → q.evt ≠ r.evt := by
      rintro q rfl rfl
      exact ho rfl
    refine ⟨fun q hq hevt => ?_, fun q hq hevt => ?_, hret ▸ h.returned⟩
    · rw [hin, Multiset.mem_cons] at hq
      exact hq.elim (fun heq => absurd hevt (hne q heq)) fun hq => h.inProgress q hq hevt
    · rw [hun, Multiset.mem_cons] at hq
      exact hq.elim (fun heq => absurd hevt (hne q heq)) fun hq => h.undelivered q hq hevt
  | ret q x hmade hin hun hapi hevt hret =>
    refine ⟨fun p hp => h.inProgress p (hin ▸ Multiset.mem_cons_of_mem hp),
      fun p hp => h.undelivered p (hun ▸ Multiset.mem_cons_of_mem hp), ?_⟩
    rw [hret, forall_mem_append, forall_mem_singleton]
    refine ⟨h.returned, ?_⟩
    rintro rfl
    exact h.undelivered x.request (hun ▸ Multiset.mem_cons_self _ _) hevt

theorem Balanced.own_call (h : l.Balanced) {evt : ε} (hs : l.Step (some evt) l')
    (hnone : ∀ q ∈ l.inProgress, q.evt ≠ evt) : l'.Own ⟨l.made.length, evt⟩ := by
  cases hs with
  | call _ hmade hin hun hret =>
    have hun' : ∀ q ∈ l.undelivered, q.evt ≠ evt := by
      intro q hq heq
      have hmem : evt ∈ l.inProgress.map Request.evt := h.map_evt ▸ Multiset.mem_map.2 ⟨q, hq, heq⟩
      obtain ⟨p, hp, hpe⟩ := Multiset.mem_map.1 hmem
      exact hnone p hp hpe
    refine ⟨fun q hq hevt => ?_, fun q hq hevt => ?_, fun p hp heq => ?_⟩
    · rw [hin, Multiset.mem_cons] at hq
      exact hq.resolve_right fun hq => hnone q hq hevt
    · rw [hun, Multiset.mem_cons] at hq
      exact hq.resolve_right fun hq => hun' q hq hevt
    · rw [hret] at hp
      have hmem : p.1 ∈ l.made := by
        rw [← Multiset.mem_coe, ← h.calls, Multiset.mem_add]
        exact .inl (Multiset.mem_coe.2 (mem_map_of_mem hp))
      have hid : p.1.id ∈ range l.made.length := h.ids ▸ mem_map_of_mem hmem
      rw [heq, mem_range] at hid
      exact absurd hid (Nat.lt_irrefl _)

end Ledger

namespace Api

/-! ### What holds of all runs -/

/-- The lock is held by the thread that holds it. -/
structure Mutex (s : Api τ ε) : Prop where
  callers : ∀ t, (s.callers t).Holds ↔ s.m_lock = some (some t)
  server : s.server.Holds ↔ s.m_lock = some none

section

variable [DecidableEq τ] {s : Api τ ε} {t : τ} {c : Caller ε}

theorem Mutex.goto (h : s.Mutex) {lock : Option (Option τ)} (hc : c.Holds ↔ lock = some (some t))
    (hlock : ∀ o, o ≠ some t → (lock = some o ↔ s.m_lock = some o)) :
    Mutex { s.goto t c with m_lock := lock } := by
  refine ⟨fun u => ?_, h.server.trans (hlock none nofun).symm⟩
  by_cases hu : u = t
  · rw [hu, ← hc]
    exact iff_of_eq (congrArg Caller.Holds (update_self ..))
  · rw [hlock (some u) fun heq => hu (some.inj heq), ← h.callers u]
    exact iff_of_eq (congrArg Caller.Holds (update_of_ne hu ..))

theorem Mutex.acquire (h : s.Mutex) (hlock : s.m_lock = none) (hc : c.Holds) :
    Mutex { s.goto t c with m_lock := some (some t) } := by
  refine h.goto (iff_of_true hc rfl) fun o ho => ?_
  rw [hlock]
  exact iff_of_false (fun heq => ho (some.inj heq).symm) nofun

/-- A thread that releases the lock. -/
theorem Mutex.release (h : s.Mutex) (ht : (s.callers t).Holds) (hc : ¬ c.Holds) :
    Mutex { s.goto t c with m_lock := none } := by
  refine h.goto (iff_of_false hc nofun) fun o ho => ?_
  rw [(h.callers t).1 ht]
  exact iff_of_false nofun fun heq => ho (some.inj heq).symm

theorem Mutex.stay (h : s.Mutex) (hc : c.Holds ↔ (s.callers t).Holds) : Mutex (s.goto t c) :=
  h.goto (hc.trans (h.callers t)) fun _ _ => Iff.rfl

end

variable [Fintype τ]

/-- The events of the callers that are going to look through the list. -/
def looksFor (s : Api τ ε) : Multiset ε := ∑ t, (s.callers t).looksFor

/-- The ledger, where these are the results in the list. -/
def ledger (s : Api τ ε) (xs : List (ℕ × Result ε)) : Ledger ε where
  made := s.made
  inProgress := ∑ t, (s.callers t).request
  undelivered := (xs.map fun u => u.2.request : Multiset (Request ε)) + s.server.request + s.api_queue
  returned := s.returned

/-- **The invariant**, with the results that are in the list. -/
structure Inv (s : Api τ ε) (xs : List (ℕ × Result ε)) : Prop where
  list : s.list.Has xs
  mutex : s.Mutex
  ledger : (s.ledger xs).Balanced
  api : ∀ u ∈ xs, u.2.request_api = u.2.request.evt
  /-- For each result in the list there is a caller that is going to look for it. -/
  awake : (xs.map fun u => u.2.request_api : Multiset ε) ≤ s.looksFor
  /-- The result of a caller that sleeps is not in the list. -/
  asleep : ∀ t r, s.callers t = .ready r ∨ s.callers t = .asleep r → ∀ u ∈ xs, u.2.request ≠ r

section Step

variable [DecidableEq τ] {s s' : Api τ ε} {xs ys : List (ℕ × Result ε)} {t : τ} {c : Caller ε}

theorem sum_update {M : Type*} [AddCommMonoid M] (g : Caller ε → M) (f : τ → Caller ε) (t : τ) (c : Caller ε) :
    ∑ u, g (Function.update f t c u) + g (f t) = ∑ u, g (f u) + g c := by
  have hrest : ∑ u ∈ Finset.univ.erase t, g (update f t c u) = ∑ u ∈ Finset.univ.erase t, g (f u) :=
    Finset.sum_congr rfl fun u hu => by rw [update_of_ne (Finset.ne_of_mem_erase hu)]
  rw [← Finset.add_sum_erase Finset.univ _ (Finset.mem_univ t), hrest, update_self,
    ← Finset.add_sum_erase Finset.univ (fun u => g (f u)) (Finset.mem_univ t)]
  ac_rfl

theorem ledger_goto {lock : Option (Option τ)} (hrequest : c.request = (s.callers t).request) :
    Api.ledger { s.goto t c with m_lock := lock } xs = s.ledger xs := by
  have hsum := sum_update Caller.request s.callers t c
  rw [hrequest] at hsum
  have hin : ∑ u, (update s.callers t c u).request = ∑ u, (s.callers u).request := add_right_cancel hsum
  unfold Api.ledger
  exact congrArg (Ledger.mk s.made · _ s.returned) hin

theorem Inv.asleep_goto (h : s.Inv xs) (hsub : ∀ u ∈ ys, u ∈ xs)
    (hc : ∀ q, c = .ready q ∨ c = .asleep q → ∀ u ∈ ys, u.2.request ≠ q) (u : τ) (q : Request ε)
    (hu : (s.goto t c).callers u = .ready q ∨ (s.goto t c).callers u = .asleep q) : ∀ v ∈ ys, v.2.request ≠ q := by
  by_cases hut : u = t
  · have hself : (s.goto t c).callers u = c := hut ▸ update_self ..
    exact hc q (hself ▸ hu)
  · have hother : (s.goto t c).callers u = s.callers u := update_of_ne hut ..
    exact fun v hv => h.asleep u q (hother ▸ hu) v (hsub v hv)

theorem Inv.move (h : s.Inv xs) {lock : Option (Option τ)} (hmutex : Mutex { s.goto t c with m_lock := lock })
    (hrequest : c.request = (s.callers t).request) (hlooks : (s.callers t).looksFor ≤ c.looksFor)
    (hasleep : ∀ r, c = .ready r ∨ c = .asleep r → s.callers t = .ready r ∨ s.callers t = .asleep r) :
    Inv { s.goto t c with m_lock := lock } xs ∧ Api.ledger { s.goto t c with m_lock := lock } xs = s.ledger xs := by
  have hledger : Api.ledger { s.goto t c with m_lock := lock } xs = s.ledger xs := ledger_goto hrequest
  refine ⟨⟨h.list, hmutex, hledger ▸ h.ledger, h.api, ?_,
    h.asleep_goto (fun _ hu => hu) fun q hq => h.asleep t q (hasleep q hq)⟩, hledger⟩
  have hsum := sum_update Caller.looksFor s.callers t c
  have hle : s.looksFor ≤ ∑ u, (update s.callers t c u).looksFor := by
    refine le_of_add_le_add_right (a := (s.callers t).looksFor) ?_
    rw [hsum]
    exact add_le_add_right hlooks _
  exact h.awake.trans hle

theorem quiet_of_eq {l l' : Ledger ε} (h : l' = l) : l.Step none l' := h ▸ .quiet

/-- A call: the request is put in the queue. -/
theorem Inv.call (h : s.Inv xs) {evt : ε} (ht : s.callers t = .locked evt) :
    let r : Request ε := ⟨s.made.length, evt⟩
    let s' := { s.goto t (.ready r) with api_queue := s.api_queue ++ [r], made := s.made ++ [r] }
    s'.Inv xs ∧ (s.ledger xs).Step (some evt) (s'.ledger xs) := by
  intro r s'
  have hstep : (s.ledger xs).Step (some evt) (s'.ledger xs) := by
    refine .call evt rfl ?_ ?_ rfl
    · have hsum := sum_update Caller.request s.callers t (.ready r)
      have hold : (s.callers t).request = 0 := congrArg Caller.request ht
      rw [hold, add_zero, add_comm] at hsum
      exact hsum
    · have happend : ((s.api_queue ++ [r] : List (Request ε)) : Multiset (Request ε)) = r ::ₘ s.api_queue :=
        Multiset.coe_eq_coe.2 (perm_append_singleton _ _)
      exact (congrArg _ happend).trans (Multiset.add_cons r _ _)
  have hmutex : Mutex (s.goto t (.ready r)) := h.mutex.stay (by rw [ht]; exact Iff.rfl)
  refine ⟨⟨h.list, ⟨hmutex.callers, hmutex.server⟩, h.ledger.step hstep, h.api, ?_,
    h.asleep_goto (c := .ready r) (fun _ hu => hu) fun q hq v hv heq => ?_⟩, hstep⟩
  · have hsum := sum_update Caller.looksFor s.callers t (.ready r)
    rw [ht] at hsum
    exact h.awake.trans_eq (add_right_cancel hsum).symm
  · obtain rfl : r = q := hq.elim (fun heq => Caller.ready.inj heq) nofun
    -- the request is a new one
    have hmem : v.2.request ∈ s.made := by
      refine Multiset.mem_coe.1 (h.ledger.results ▸ Multiset.mem_add.2 (.inr ?_))
      exact Multiset.mem_add.2 (.inl (Multiset.mem_add.2 (.inl (Multiset.mem_coe.2 (mem_map_of_mem hv)))))
    have hid : v.2.request.id ∈ range s.made.length := h.ledger.ids ▸ mem_map_of_mem hmem
    rw [heq, mem_range] at hid
    exact absurd hid (Nat.lt_irrefl _)

theorem Inv.goBack (h : s.Inv xs) {r : Request ε} (ht : s.callers t = .looking r)
    (hnone : ∀ u ∈ xs, u.2.request_api ≠ r.evt) :
    (s.goto t (.ready r)).Inv xs ∧ (s.goto t (.ready r)).ledger xs = s.ledger xs := by
  have hledger : (s.goto t (.ready r)).ledger xs = s.ledger xs := ledger_goto (by rw [ht]; rfl)
  have hmutex : Mutex (s.goto t (.ready r)) := h.mutex.stay (by rw [ht]; exact Iff.rfl)
  refine ⟨⟨h.list, hmutex, hledger ▸ h.ledger, h.api, ?_,
    h.asleep_goto (fun _ hu => hu) fun q hq v hv heq => ?_⟩, hledger⟩
  · have hsum := sum_update Caller.looksFor s.callers t (.ready r)
    rw [ht, Caller.looksFor, Caller.looksFor, add_zero] at hsum
    have hawake : (xs.map fun u => u.2.request_api : Multiset ε) ≤
        r.evt ::ₘ ∑ u, (update s.callers t (.ready r) u).looksFor := by
      rw [← Multiset.singleton_add, add_comm, hsum]
      exact h.awake
    refine (Multiset.le_cons_of_notMem fun hmem => ?_).1 hawake
    obtain ⟨v, hv, heq⟩ := mem_map.1 (Multiset.mem_coe.1 hmem)
    exact hnone v hv heq
  · obtain rfl : r = q := hq.elim (fun heq => Caller.ready.inj heq) nofun
    exact hnone v hv ((h.api v hv).trans (congrArg Request.evt heq))

theorem Inv.serve {zs : List (ℕ × Result ε)} {a : ℕ} {x : Result ε} {list : ResultList ε} {r : Request ε}
    (h : s.Inv (ys ++ (a, x) :: zs)) (ht : s.callers t = .looking r) (hx : x.request_api = r.evt)
    (hlist : list.Has (ys ++ zs)) :
    let s' := { s.goto t .served with list := list, returned := s.returned ++ [(r, x)] }
    s'.Inv (ys ++ zs) ∧ (s.ledger (ys ++ (a, x) :: zs)).Step none (s'.ledger (ys ++ zs)) := by
  intro s'
  have hperm : (ys ++ (a, x) :: zs).Perm ((a, x) :: (ys ++ zs)) := perm_middle
  have hmem : ∀ u ∈ ys ++ zs, u ∈ ys ++ (a, x) :: zs := fun u hu => hperm.mem_iff.2 (mem_cons_of_mem _ hu)
  have hstep : (s.ledger (ys ++ (a, x) :: zs)).Step none (s'.ledger (ys ++ zs)) := by
    refine .ret r x rfl ?_ ?_ hx ?_ rfl
    · have hsum := sum_update Caller.request s.callers t .served
      rw [ht, Caller.request, Caller.request, add_zero] at hsum
      exact hsum.symm.trans ((add_comm _ _).trans (Multiset.singleton_add r _))
    · have hrequests := Multiset.coe_eq_coe.2 (hperm.map fun u => u.2.request)
      have hcons : ((ys ++ (a, x) :: zs).map fun u => u.2.request : Multiset (Request ε)) =
          x.request ::ₘ ((ys ++ zs).map fun u => u.2.request : List (Request ε)) := hrequests
      unfold Api.ledger
      dsimp only
      rw [hcons, Multiset.cons_add, Multiset.cons_add]
      rfl
    · exact (h.api (a, x) (by simp)).symm.trans hx
  have hmutex : Mutex (s.goto t .served) := h.mutex.stay (by rw [ht]; exact Iff.rfl)
  refine ⟨⟨hlist, ⟨hmutex.callers, hmutex.server⟩, h.ledger.step hstep, fun u hu => h.api u (hmem u hu), ?_,
    h.asleep_goto (c := .served) hmem fun q hq => hq.elim nofun nofun⟩, hstep⟩
  have hsum := sum_update Caller.looksFor s.callers t .served
  rw [ht, Caller.looksFor, Caller.looksFor, add_zero] at hsum
  have hawake := h.awake
  rw [Api.looksFor, ← hsum, add_comm, Multiset.singleton_add,
    Multiset.coe_eq_coe.2 (hperm.map fun u => u.2.request_api), map_cons, ← Multiset.cons_coe, hx] at hawake
  exact (Multiset.cons_le_cons_iff r.evt).1 hawake

omit [DecidableEq τ] in
/-- The state machine signals: everyone who sleeps is woken up. -/
theorem Inv.answer (h : s.Inv xs) {a : ℕ} {list : ResultList ε} {r : Request ε} (hr : s.server = .locked r)
    (hlist : list.Has (xs ++ [(a, ⟨r.evt, r⟩)])) :
    let s' := { s with list := list, callers := fun t => (s.callers t).wake, server := .signalled }
    s'.Inv (xs ++ [(a, ⟨r.evt, r⟩)]) ∧ s'.ledger (xs ++ [(a, ⟨r.evt, r⟩)]) = s.ledger xs := by
  intro s'
  have hlock : s.m_lock = some none := h.mutex.server.1 (by rw [hr]; trivial)
  -- no caller holds the lock
  have hfree : ∀ t, ¬ (s.callers t).Holds := fun t ht => by
    rw [h.mutex.callers t, hlock] at ht
    cases ht
  have hledger : s'.ledger (xs ++ [(a, ⟨r.evt, r⟩)]) = s.ledger xs := by
    have hin : ∑ t, (s.callers t).wake.request = ∑ t, (s.callers t).request :=
      Finset.sum_congr rfl fun t _ => by cases s.callers t <;> rfl
    unfold Api.ledger
    rw [Ledger.mk.injEq]
    refine ⟨rfl, hin, ?_, rfl⟩
    rw [map_append, ← Multiset.coe_add, hr]
    exact congrArg (· + (s.api_queue : Multiset (Request ε))) (add_zero _)
  have hawake : s'.looksFor = (s.ledger xs).inProgress.map Request.evt := by
    have hmap := map_sum (Multiset.mapAddMonoidHom Request.evt) (fun t => (s.callers t).request) Finset.univ
    refine Eq.trans ?_ hmap.symm
    refine Finset.sum_congr rfl fun t _ => ?_
    have hnot := hfree t
    change (s.callers t).wake.looksFor = _
    cases hc : s.callers t with
    | idle | asleep | awake => rfl
    | locked | ready | looking | served =>
      rw [hc] at hnot
      exact absurd trivial hnot
  refine ⟨⟨hlist, ⟨fun t => ?_, iff_of_true trivial hlock⟩, hledger ▸ h.ledger, ?_, ?_, fun t q hu => ?_⟩, hledger⟩
  · have hwake : (s.callers t).wake.Holds ↔ (s.callers t).Holds := by cases s.callers t <;> exact Iff.rfl
    exact hwake.trans (h.mutex.callers t)
  · rw [forall_mem_append, forall_mem_singleton]
    exact ⟨h.api, rfl⟩
  · rw [hawake, h.ledger.map_evt]
    have hevts : (xs ++ [(a, (⟨r.evt, r⟩ : Result ε))]).map (fun u => u.2.request_api) =
        (xs.map fun u => u.2.request).map Request.evt ++ [r.evt] := by
      rw [List.map_append, List.map_map]
      exact congrArg (· ++ [r.evt]) (map_congr_left h.api)
    have hundelivered : (s.ledger xs).undelivered.map Request.evt =
        (((xs.map fun u => u.2.request).map Request.evt ++ [r.evt] : List ε) : Multiset ε) +
          (s.api_queue.map Request.evt : List ε) := by
      unfold Api.ledger
      rw [hr, Multiset.map_add, Multiset.map_coe, Multiset.coe_add, Multiset.map_coe, map_append]
      rfl
    rw [hevts, hundelivered]
    exact Multiset.le_add_right _ _
  · have hne : ∀ c : Caller ε, ¬ c.Holds → ¬ (c.wake = .ready q ∨ c.wake = .asleep q) := by
      intro c hc hw
      cases c with
      | ready => exact hc trivial
      | idle | locked | asleep | awake | looking | served => exact hw.elim nofun nofun
    exact absurd hu (hne _ (hfree t))

variable [DecidableEq ε] {act : Act τ ε}

/-- What a step does, and where. -/
inductive Does (s : Api τ ε) : Act τ ε → Api τ ε → Prop
  | lockAPI {t : τ} {evt : ε} (ht : s.callers t = .idle) (hlock : s.m_lock = none) :
      Does s (.lockAPI t evt) { s.goto t (.locked evt) with m_lock := some (some t) }
  | processAPI {t : τ} {evt : ε} (ht : s.callers t = .locked evt) :
      Does s (.processAPI t evt) { s.goto t (.ready ⟨s.made.length, evt⟩) with
        api_queue := s.api_queue ++ [⟨s.made.length, evt⟩], made := s.made ++ [⟨s.made.length, evt⟩] }
  | condWait {t : τ} {r : Request ε} (ht : s.callers t = .ready r) :
      Does s (.condWait t) { s.goto t (.asleep r) with m_lock := none }
  | spurious {t : τ} {r : Request ε} (ht : s.callers t = .asleep r) : Does s (.spurious t) (s.goto t (.awake r))
  | condReturn {t : τ} {r : Request ε} (ht : s.callers t = .awake r) (hlock : s.m_lock = none) :
      Does s (.condReturn t) { s.goto t (.looking r) with m_lock := some (some t) }
  | lookBack {t : τ} {n : ℕ} {r : Request ε} {list : ResultList ε} (ht : s.callers t = .looking r)
      (htake : s.list.take n r.evt = some (none, list)) :
      Does s (.look t n) { s.goto t (.ready r) with list := list }
  | serve {t : τ} {n : ℕ} {r : Request ε} {x : Result ε} {list : ResultList ε} (ht : s.callers t = .looking r)
      (htake : s.list.take n r.evt = some (some x, list)) :
      Does s (.look t n) { s.goto t .served with list := list, returned := s.returned ++ [(r, x)] }
  | unlockAPI {t : τ} (ht : s.callers t = .served) : Does s (.unlockAPI t) { s.goto t .idle with m_lock := none }
  | dequeue {r : Request ε} {rest : List (Request ε)} (hserver : s.server = .idle)
      (hqueue : s.api_queue = r :: rest) : Does s .dequeue { s with server := .handling r, api_queue := rest }
  | lock {r : Request ε} (hserver : s.server = .handling r) (hlock : s.m_lock = none) :
      Does s .lock { s with server := .locked r, m_lock := some none }
  | signal {n a : ℕ} {r : Request ε} {list : ResultList ε} (hserver : s.server = .locked r)
      (hfree : s.list.mem a = none) (hadd : s.list.add n a ⟨r.evt, r⟩ = some list) :
      Does s (.signal n a) { s with list := list, callers := fun t => (s.callers t).wake, server := .signalled }
  | unlock (hserver : s.server = .signalled) : Does s .unlock { s with server := .idle, m_lock := none }

omit [Fintype τ] in
theorem does_of_step (hs : s.step act = some s') : s.Does act s' := by
  cases act with
  | processAPI t evt =>
    simp only [step] at hs
    split at hs
    · rename_i e ht
      split at hs
      · rename_i heq
        cases hs
        exact .processAPI (heq ▸ ht)
      · cases hs
    · cases hs
  | look t n =>
    simp only [step] at hs
    split at hs
    · rename_i r ht
      split at hs
      · cases hs
      · rename_i htake
        cases hs
        exact .lookBack ht htake
      · rename_i htake
        cases hs
        exact .serve ht htake
    · cases hs
  | signal n a =>
    simp only [step] at hs
    split at hs
    · rename_i hserver hfree
      obtain ⟨list, hadd, rfl⟩ := map_eq_some_iff.1 hs
      exact .signal hserver hfree hadd
    · cases hs
  | lockAPI t evt | condReturn t | dequeue | lock =>
    simp only [step] at hs
    split at hs
    · rename_i h₁ h₂
      cases hs
      first | exact .lockAPI h₁ h₂ | exact .condReturn h₁ h₂ | exact .dequeue h₁ h₂ | exact .lock h₁ h₂
    · cases hs
  | condWait t | spurious t | unlockAPI t | unlock =>
    simp only [step] at hs
    split at hs
    · rename_i ht
      cases hs
      first | exact .condWait ht | exact .spurious ht | exact .unlockAPI ht | exact .unlock ht
    · cases hs

/-- **Each step** keeps the invariant, and does to the ledger what a ledger allows. -/
theorem step_inv (h : s.Inv xs) (hs : s.step act = some s') :
    ∃ ys, s'.Inv ys ∧ (s.ledger xs).Step act.called (s'.ledger ys) := by
  have hmove : ∀ {act : Act τ ε} {s' : Api τ ε}, act.called = none → s'.Inv xs ∧ s'.ledger xs = s.ledger xs →
      ∃ ys, s'.Inv ys ∧ (s.ledger xs).Step act.called (s'.ledger ys) := fun hcalled hmoved =>
    ⟨xs, hmoved.1, hcalled ▸ quiet_of_eq hmoved.2⟩
  cases does_of_step hs with
  | @lockAPI t evt ht hlock =>
    exact hmove rfl (h.move (h.mutex.acquire (t := t) (c := .locked evt) hlock trivial) (by rw [ht]; rfl)
      (by rw [ht]; exact le_rfl) fun r hr => hr.elim nofun nofun)
  | processAPI ht => exact ⟨xs, h.call ht⟩
  | @condWait t r ht =>
    exact hmove rfl (h.move (h.mutex.release (t := t) (c := .asleep r) (by rw [ht]; trivial) id) (by rw [ht]; rfl)
      (by rw [ht]; exact le_rfl) fun q hq =>
        .inl (ht.trans (congrArg Caller.ready (Caller.asleep.inj (hq.resolve_left nofun)))))
  | @spurious t r ht =>
    exact hmove rfl (h.move (h.mutex.stay (t := t) (c := .awake r) (by rw [ht]; exact Iff.rfl)) (by rw [ht]; rfl)
      (by rw [ht]; exact Multiset.zero_le _) fun q hq => hq.elim nofun nofun)
  | @condReturn t r ht hlock =>
    exact hmove rfl (h.move (h.mutex.acquire (t := t) (c := .looking r) hlock trivial) (by rw [ht]; rfl)
      (by rw [ht]; exact le_rfl) fun q hq => hq.elim nofun nofun)
  | lookBack ht htake =>
    obtain ⟨-, rfl, hnone⟩ | ⟨_, _, _, _, _, _, hsome, _⟩ := ResultList.take_spec h.list htake
    · exact hmove rfl (h.goBack ht hnone)
    · cases hsome
  | serve ht htake =>
    obtain ⟨hnone, -⟩ | ⟨ys, a, y, zs, rfl, hx, hsome, hlist⟩ := ResultList.take_spec h.list htake
    · cases hnone
    · cases hsome
      exact ⟨ys ++ zs, h.serve ht hx hlist⟩
  | @unlockAPI t ht =>
    exact hmove rfl (h.move (h.mutex.release (t := t) (c := .idle) (by rw [ht]; trivial) id) (by rw [ht]; rfl)
      (by rw [ht]; exact le_rfl) fun q hq => hq.elim nofun nofun)
  | @dequeue r rest hserver hqueue =>
    have hl : Api.ledger { s with server := .handling r, api_queue := rest } xs = s.ledger xs := by
      unfold Api.ledger
      rw [hserver, hqueue]
      refine congrArg (Ledger.mk s.made _ · s.returned) ?_
      rw [add_assoc, add_assoc]
      rfl
    have hmutex := h.mutex.server
    rw [hserver] at hmutex
    exact hmove rfl ⟨⟨h.list, ⟨h.mutex.callers, hmutex⟩, hl ▸ h.ledger, h.api, h.awake, h.asleep⟩, hl⟩
  | @lock r hserver hlock =>
    have hl : Api.ledger { s with server := .locked r, m_lock := some none } xs = s.ledger xs := by
      unfold Api.ledger
      rw [hserver]
      rfl
    have hcallers : ∀ t, (s.callers t).Holds ↔ (some none : Option (Option τ)) = some (some t) := fun t => by
      rw [h.mutex.callers t, hlock]
      exact iff_of_false nofun nofun
    exact hmove rfl ⟨⟨h.list, ⟨hcallers, iff_of_true trivial rfl⟩, hl ▸ h.ledger, h.api, h.awake, h.asleep⟩, hl⟩
  | signal hserver hfree hadd =>
    obtain ⟨hinv, hl⟩ := h.answer hserver (ResultList.add_spec h.list hfree hadd)
    exact ⟨_, hinv, quiet_of_eq hl⟩
  | unlock hserver =>
    have hl : Api.ledger { s with server := .idle, m_lock := none } xs = s.ledger xs := by
      unfold Api.ledger
      rw [hserver]
      rfl
    have hlock : s.m_lock = some none := h.mutex.server.1 (by rw [hserver]; trivial)
    have hcallers : ∀ t, (s.callers t).Holds ↔ (none : Option (Option τ)) = some (some t) := fun t => by
      rw [h.mutex.callers t, hlock]
      exact iff_of_false nofun nofun
    exact hmove rfl ⟨⟨h.list, ⟨hcallers, iff_of_false id nofun⟩, hl ▸ h.ledger, h.api, h.awake, h.asleep⟩, hl⟩

omit [DecidableEq τ] [DecidableEq ε] in
theorem inv_init : Inv ({} : Api τ ε) [] := by
  have hzero : ∑ _ : τ, Caller.request (Caller.idle : Caller ε) = 0 := Finset.sum_const_zero
  refine ⟨SinglyLinked.holds_empty, ⟨fun t => iff_of_false id nofun, iff_of_false id nofun⟩,
    ⟨rfl, ?_, rfl, forall_mem_nil _⟩, forall_mem_nil _, Multiset.zero_le _,
    fun t r _ => forall_mem_nil _⟩
  exact (zero_add _).trans hzero

theorem run_inv {acts : List (Act τ ε)} (h : Run (fires step) ({} : Api τ ε) acts s) : ∃ xs, s.Inv xs := by
  refine Run.invariant (I := fun s : Api τ ε => ∃ xs, s.Inv xs) ?_ ⟨[], inv_init⟩ h
  rintro s a s' ⟨xs, hinv⟩ hs
  obtain ⟨ys, hinv', -⟩ := step_inv hinv hs
  exact ⟨ys, hinv'⟩

end Step

end Api

end ApiCalls

end Marlin
