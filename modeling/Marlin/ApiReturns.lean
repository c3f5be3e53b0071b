import Marlin.ApiCalls

/-!
# The Returns of the API Calls

What the callers of the state machine get, in all runs of any number of threads: each call returns once, with a result
of a request of its event. It is the result of its own request where no other call of that event is in progress; two
calls of one event may get each other's.

## Main results

* `Inv.ownResult`: a call that is alone with its event gets its own result.
* `left_step`: in every step but a new call and a spurious wake-up something gets done.
* `Inv.goes_on`: somebody can go on as long as a call is in progress.
* `calls_return`: what holds of all runs.
-/

namespace Marlin

namespace ApiCalls

open Multiset List Option Transition

variable {τ ε : Type*} [Fintype τ]

namespace Api

section

variable {s : Api τ ε} {xs : List (ℕ × Result ε)}

/-! ### The results -/

/-- What the callers get, where these are the results in the list. -/
structure Delivered (s : Api τ ε) (xs : List (ℕ × Result ε)) : Prop where
  list : s.list.Has xs
  /-- No call returns twice. -/
  calls : (s.returned.map Prod.fst).Nodup
  /-- No result is delivered twice. -/
  results : (s.returned.map fun p => p.2.request).Nodup
  /-- A call returns with a result of a request of its event. -/
  evts : ∀ p ∈ s.returned, p.2.request_api = p.1.evt ∧ p.2.request.evt = p.1.evt
  /-- No result is left when no call is in progress. -/
  left : (∀ t, (s.callers t).request = 0) → s.list.m_apiResultList = none ∧ ∀ a, s.list.mem a = none
  /-- No thread sleeps while its result is in the list. -/
  asleep : ∀ t r, s.callers t = .asleep r → ∀ u ∈ xs, u.2.request ≠ r
  /-- For each result in the list a thread is awake that takes it. -/
  awake : ∀ u ∈ xs, ∃ t r, (s.callers t = .awake r ∨ s.callers t = .looking r) ∧ r.evt = u.2.request_api

theorem Inv.delivered (h : s.Inv xs) : s.Delivered xs := by
  refine ⟨h.list, h.ledger.nodup_calls, h.ledger.nodup_results, h.ledger.evts, fun hnone => ?_,
    fun t r ht => h.asleep t r (.inr ht), fun u hu => ?_⟩
  · have hin : (s.ledger xs).inProgress = 0 := Finset.sum_eq_zero fun t _ => hnone t
    have hevt := h.ledger.map_evt
    rw [hin, map_zero, eq_comm, map_eq_zero] at hevt
    have hxs : xs = [] := by
      have hzero := (add_eq_zero.1 (add_eq_zero.1 hevt).1).1
      exact map_eq_nil_iff.1 ((coe_eq_zero _).1 hzero)
    have hlist := h.list
    rw [hxs] at hlist
    exact ⟨hlist.none_of_nil, fun a => by_contra fun hne => absurd (hlist.only a hne) not_mem_nil⟩
  · have hmem : u.2.request_api ∈ s.looksFor :=
      mem_of_le h.awake (mem_coe.2 (mem_map_of_mem hu))
    obtain ⟨t, -, ht⟩ := mem_sum.1 hmem
    cases hc : s.callers t with
    | idle | locked | ready | asleep | served =>
      rw [hc] at ht
      exact absurd ht (notMem_zero _)
    | awake r | looking r =>
      rw [hc] at ht
      exact ⟨t, r, by simp [hc], (Multiset.mem_singleton.1 ht).symm⟩

/-- Every call has returned, once, and every result is delivered, once. -/
def Settled (s : Api τ ε) : Prop :=
  (∀ t, s.callers t = .idle) ∧ (s.returned.map Prod.fst).Perm s.made ∧ (s.returned.map fun p => p.2.request).Perm s.made

theorem Inv.settled (h : s.Inv xs) (hidle : ∀ t, s.callers t = .idle) : s.Settled := by
  have hin : (s.ledger xs).inProgress = 0 := Finset.sum_eq_zero fun t _ => congrArg Caller.request (hidle t)
  have hun : (s.ledger xs).undelivered = 0 := by
    have hevt := h.ledger.map_evt
    rwa [hin, map_zero, eq_comm, map_eq_zero] at hevt
  have hcalls := h.ledger.calls
  have hresults := h.ledger.results
  rw [hin, add_zero] at hcalls
  rw [hun, add_zero] at hresults
  exact ⟨hidle, coe_eq_coe.1 hcalls, coe_eq_coe.1 hresults⟩

theorem Inv.all_idle (h : s.Inv xs) (hlock : s.m_lock = none) (hawake : ∀ t r, s.callers t ≠ .awake r)
    (hserver : s.server = .idle) (hqueue : s.api_queue = []) (t : τ) : s.callers t = .idle := by
  have hfree : ∀ t, ¬ (s.callers t).Holds := fun t ht => by
    rw [h.mutex.callers t, hlock] at ht
    cases ht
  have hlooks : s.looksFor = 0 := Finset.sum_eq_zero fun t _ => by
    have hnot := hfree t
    have hne := hawake t
    cases hc : s.callers t with
    | idle | locked | ready | asleep | served => rfl
    | awake r => exact absurd hc (hne r)
    | looking =>
      rw [hc] at hnot
      exact absurd trivial hnot
  obtain rfl : xs = [] := by
    have hle := h.awake
    rw [hlooks, le_zero, coe_eq_zero, map_eq_nil_iff] at hle
    exact hle
  have hin : (s.ledger []).inProgress = 0 := by
    have hevt := h.ledger.map_evt
    have hun : (s.ledger []).undelivered = 0 := by
      unfold Api.ledger
      rw [hserver, hqueue]
      rfl
    rwa [hun, map_zero, map_eq_zero] at hevt
  have hrequest : (s.callers t).request = 0 := Finset.sum_eq_zero_iff.1 hin t (Finset.mem_univ t)
  have hnot := hfree t
  cases hc : s.callers t with
  | idle => rfl
  | ready | asleep | awake | looking =>
    rw [hc] at hrequest
    exact absurd hrequest (singleton_ne_zero _)
  | locked | served =>
    rw [hc] at hnot
    exact absurd trivial hnot

/-! ### What is left to do -/

/-- What is left to do. -/
def left (s : Api τ ε) : ℕ :=
  ∑ t, (s.callers t).left (Fintype.card τ) + s.server.left (Fintype.card τ) +
    (3 * Fintype.card τ + 5) * s.api_queue.length

theorem sum_wake_le (s : Api τ ε) : ∑ t, (s.callers t).wake.left (Fintype.card τ) ≤
      ∑ t, (s.callers t).left (Fintype.card τ) + 3 * Fintype.card τ := by
  calc ∑ t, (s.callers t).wake.left (Fintype.card τ) ≤ ∑ t, ((s.callers t).left (Fintype.card τ) + 3) :=
        Finset.sum_le_sum fun t _ => by cases s.callers t <;> simp [Caller.wake, Caller.left]
    _ = ∑ t, (s.callers t).left (Fintype.card τ) + 3 * Fintype.card τ := by
        rw [Finset.sum_add_distrib, Finset.sum_const_nat fun _ _ => rfl, Finset.card_univ, Nat.mul_comm]

end

variable [DecidableEq τ]

theorem left_goto (s : Api τ ε) (t : τ) (c : Caller ε) :
    (s.goto t c).left + (s.callers t).left (Fintype.card τ) = s.left + c.left (Fintype.card τ) := by
  have hsum := sum_update (Caller.left (Fintype.card τ)) s.callers t c
  simp only [Api.left, goto]
  omega

variable [DecidableEq ε] {s s' : Api τ ε} {xs ys : List (ℕ × Result ε)} {act : Act τ ε}

/-- **In each step something gets done**, but in a new call and in a spurious wake-up. -/
theorem left_step (hs : s.step act = some s') : s'.left + 1 ≤ s.left + Act.adds (Fintype.card τ) act := by
  -- a thread that comes somewhere else has less to do
  have hgoto : ∀ {t : τ} {old c : Caller ε} {n : ℕ}, s.callers t = old →
      c.left (Fintype.card τ) + 1 ≤ old.left (Fintype.card τ) + n → (s.goto t c).left + 1 ≤ s.left + n := by
    rintro t old c n rfl hle
    have hleft := s.left_goto t c
    omega
  cases does_of_step hs with
  | @processAPI t evt ht =>
    have hleft := s.left_goto t (.ready ⟨s.made.length, evt⟩)
    rw [ht] at hleft
    simp only [Api.left, goto, Caller.left, length_append, length_singleton, Nat.mul_add] at hleft ⊢
    omega
  | lockAPI ht | condWait ht | spurious ht | condReturn ht | lookBack ht | serve ht | unlockAPI ht =>
    refine hgoto ht ?_
    simp only [Caller.left, Act.adds, Act.isSpurious, Act.isCall, Bool.false_eq_true, if_true, if_false]
    omega
  | dequeue hserver hqueue =>
    simp only [Api.left, hserver, hqueue, Server.left, length_cons, Nat.mul_add]
    omega
  | lock hserver =>
    simp only [Api.left, hserver, Server.left]
    omega
  | signal hserver =>
    have hwake := s.sum_wake_le
    simp only [Api.left, hserver, Server.left]
    omega
  | unlock hserver =>
    simp only [Api.left, hserver, Server.left]
    omega

theorem left_run {acts : List (Act τ ε)} (h : Run (fires step) s acts s') :
    s'.left + acts.length ≤ s.left + 4 * acts.countP Act.isSpurious +
      (3 * Fintype.card τ + 10) * acts.countP Act.isCall := by
  induction h with
  | nil => simp
  | @snoc acts _ _ act _ hs ih =>
    have hstep := left_step hs
    simp only [length_append, length_singleton, countP_append, countP_singleton, Act.adds, Nat.mul_add] at hstep ⊢
    cases hspurious : act.isSpurious <;> cases hcall : act.isCall <;>
      simp only [hspurious, hcall, Bool.false_eq_true, if_true, if_false, Nat.mul_one, Nat.mul_zero] at hstep ⊢ <;>
      omega

/-! ### Somebody can go on -/

theorem Inv.holder_goes_on (h : s.Inv xs) {t : τ} (ht : (s.callers t).Holds) :
    ∃ a : Act τ ε, a.isCall = false ∧ a.isSpurious = false ∧ (s.step a).isSome = true := by
  cases hc : s.callers t with
  | locked evt => exact ⟨.processAPI t evt, rfl, rfl, by simp [step, hc]⟩
  | ready r => exact ⟨.condWait t, rfl, rfl, by simp [step, hc]⟩
  | looking r =>
    refine ⟨.look t (xs.length + 1), rfl, rfl, ?_⟩
    obtain ⟨⟨found, list⟩, htake⟩ := isSome_iff_exists.1 (ResultList.take_isSome h.list r.evt)
    simp only [step, hc, htake]
    cases found with
    | none | some => rfl
  | served => exact ⟨.unlockAPI t, rfl, rfl, by simp [step, hc]⟩
  | idle | asleep | awake =>
    rw [hc] at ht
    exact ht.elim

/-- **Somebody can go on** as long as a call is in progress. -/
theorem Inv.goes_on (h : s.Inv xs) : (∀ t, s.callers t = .idle) ∨
    ∃ a : Act τ ε, a.isCall = false ∧ a.isSpurious = false ∧ (s.step a).isSome = true := by
  cases hlock : s.m_lock with
  | some o =>
    cases o with
    | some t => exact .inr (h.holder_goes_on ((h.mutex.callers t).2 hlock))
    | none =>
      have hholds := h.mutex.server.2 hlock
      cases hserver : s.server with
      | locked r =>
        obtain ⟨a, ha⟩ := ResultList.exists_free h.list
        refine .inr ⟨.signal xs.length a, rfl, rfl, ?_⟩
        simp only [step, hserver, ha, isSome_map]
        exact ResultList.add_isSome h.list ha _
      | signalled => exact .inr ⟨.unlock, rfl, rfl, by simp [step, hserver]⟩
      | idle | handling =>
        rw [hserver] at hholds
        exact hholds.elim
  | none =>
    by_cases hawake : ∃ t r, s.callers t = .awake r
    · obtain ⟨t, r, ht⟩ := hawake
      exact .inr ⟨.condReturn t, rfl, rfl, by simp [step, ht, hlock]⟩
    · have hnone : ∀ t r, s.callers t ≠ .awake r := fun t r ht => hawake ⟨t, r, ht⟩
      have hholds : ¬ s.server.Holds := fun hs => by
        rw [h.mutex.server, hlock] at hs
        cases hs
      cases hserver : s.server with
      | handling r => exact .inr ⟨.lock, rfl, rfl, by simp [step, hserver, hlock]⟩
      | idle =>
        cases hqueue : s.api_queue with
        | nil => exact .inl (h.all_idle hlock hnone hserver hqueue)
        | cons r rest => exact .inr ⟨.dequeue, rfl, rfl, by simp [step, hserver, hqueue]⟩
      | locked | signalled =>
        rw [hserver] at hholds
        exact absurd trivial hholds

/-! ### A call that is alone with its event -/

/-- Each call whose event no call in progress has when it is made, and no later one before it returns, gets its own
result. -/
def OwnResult (s : Api τ ε) : Prop :=
  ∀ t evt s₁ acts s₂, (∀ u, ∀ r ∈ (s.callers u).request, r.evt ≠ evt) → s.step (.processAPI t evt) = some s₁ →
    Run (fires step) s₁ acts s₂ → (∀ u, .processAPI u evt ∉ acts) →
    ∀ p ∈ s₂.returned, p.1 = ⟨s.made.length, evt⟩ → p.2.request = p.1

/-- **A call that is alone with its event gets its own result.** -/
theorem Inv.ownResult (h : s.Inv xs) : s.OwnResult := by
  intro t evt s₁ acts s₂ hnone hcall hrun hacts
  let r : Request ε := ⟨s.made.length, evt⟩
  obtain ⟨ys, hinv, hstep⟩ := step_inv h hcall
  have hown : (s₁.ledger ys).Own r := by
    refine h.ledger.own_call hstep fun q hq => ?_
    obtain ⟨u, -, hu⟩ := mem_sum.1 hq
    exact hnone u q hu
  have hlater : ∃ zs, s₂.Inv zs ∧ (s₂.ledger zs).Own r := by
    induction hrun with
    | nil => exact ⟨ys, hinv, hown⟩
    | @snoc _ _ _ act _ hs ih =>
      obtain ⟨zs, hinv, hown⟩ := ih fun u hu => hacts u (mem_append_left _ hu)
      obtain ⟨zs', hinv', hstep'⟩ := step_inv hinv hs
      refine ⟨zs', hinv', hown.step hstep' fun heq => ?_⟩
      cases act with
      | processAPI u e =>
        obtain rfl : e = evt := some.inj heq
        exact hacts u (mem_append_right _ mem_cons_self)
      | lockAPI | condWait | spurious | condReturn | look | unlockAPI | dequeue | lock | signal | unlock =>
        cases heq
  obtain ⟨zs, -, hown⟩ := hlater
  intro p hp heq
  exact (hown.returned p hp heq).trans heq.symm

/-! ### All runs -/

/-- **The API results reach callers**: in every run no call returns twice, each returns with a result of a request
of its event, which nobody else gets, and with its own where it is alone with its event; no result is left behind, and
nobody sleeps while its result is in the list. A run has only so many steps for each call and each spurious wake-up,
and as long as a call is in progress somebody can go on: in the end every call has returned. -/
theorem calls_return {acts : List (Act τ ε)} (h : Run (fires step) ({} : Api τ ε) acts s) :
    (∃ xs, s.Delivered xs) ∧ s.OwnResult ∧
      acts.length ≤ 4 * acts.countP Act.isSpurious + (3 * Fintype.card τ + 10) * acts.countP Act.isCall ∧
      (s.Settled ∨ ∃ a : Act τ ε, a.isCall = false ∧ a.isSpurious = false ∧ (s.step a).isSome = true) := by
  obtain ⟨xs, hinv⟩ := run_inv h
  refine ⟨⟨xs, hinv.delivered⟩, hinv.ownResult, ?_, hinv.goes_on.imp_left hinv.settled⟩
  have hleft := left_run h
  have hzero : ({} : Api τ ε).left = 0 := by simp [Api.left, Caller.left, Server.left]
  omega

/-- Two threads call with one event; the second one looks first when the first request is answered. -/
def crossed : List (Act (Fin 2) ℕ) :=
  [.lockAPI 0 7, .processAPI 0 7, .condWait 0, .lockAPI 1 7, .processAPI 1 7, .condWait 1, .dequeue, .lock,
    .signal 0 0, .unlock, .condReturn 1, .look 1 1]

theorem run_crossed : ∃ s : Api (Fin 2) ℕ, Run (fires step) {} crossed s ∧ s.returned = [(⟨1, 7⟩, ⟨7, ⟨0, 7⟩⟩)] :=
  exists_run_fires (by decide)

theorem calls_return_crossed : ∃ s : Api (Fin 2) ℕ, s.returned = [(⟨1, 7⟩, ⟨7, ⟨0, 7⟩⟩)] ∧
    (∃ xs, s.Delivered xs) ∧ s.OwnResult := by
  obtain ⟨s, hrun, hreturned⟩ := run_crossed
  obtain ⟨hdelivered, hown, -⟩ := calls_return hrun
  exact ⟨s, hreturned, hdelivered, hown⟩

/-- A call does not always return with the result of its own request. -/
theorem not_own_crossed : ¬ ∀ (acts : List (Act (Fin 2) ℕ)) (s : Api (Fin 2) ℕ),
    Run (fires step) {} acts s → ∀ p ∈ s.returned, p.2.request = p.1 := by
  intro h
  obtain ⟨s, hrun, hreturned⟩ := run_crossed
  have hown := h crossed s hrun (⟨1, 7⟩, ⟨7, ⟨0, 7⟩⟩) (by rw [hreturned]; exact mem_cons_self)
  exact absurd hown (by decide)

end Api

end ApiCalls

end Marlin
