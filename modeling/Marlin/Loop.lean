import Mathlib.Logic.Function.Iterate
import Mathlib.Order.Basic
import Mathlib.Algebra.Group.Nat.Defs
import Mathlib.Data.Nat.Basic

/-!
# Loops, Counted and Uncounted

A C loop is modelled by its body: a function that takes the loop state and either
leaves the loop (`ForInStep.done`) or goes round again (`ForInStep.yield`). Two
evaluators read such a body.

* `run body n s` goes round at most `n` times and answers `none` when the loop has not
  been left by then. Nothing is assumed about termination: `Returns` and `Diverges` are
  the two things a loop can do, and exactly one of them happens.
* `iterate body n s` is the total reading, for loops whose bound is known in advance.

## Main results

* `run_mono`: an answer does not depend on the budget it was found with.
* `run_induction`: the invariant rule, for whatever budget.
* `returns_of_variant`: the variant rule, with the budget it needs.
* `run_until`: where a loop until a test holds is left.
* `diverges_of_fixed`: a body that yields the state it was given spins forever.
* `run_relates`: the relational rule, for what holds between the first and the last state.
* `run_pair`: the rule for two loops that go round side by side.
-/

namespace Loop

variable {σ : Type*}

/-- The **budgeted evaluator**: at most `n` rounds of `body` from `s`. -/
def run (body : σ → ForInStep σ) : ℕ → σ → Option σ
  | 0, _ => none
  | n + 1, s =>
    match body s with
    | .done t => some t
    | .yield t => run body n t

/-- The loop is left, in state `t`. -/
def Returns (body : σ → ForInStep σ) (s t : σ) : Prop :=
  ∃ n, run body n s = some t

/-- The loop is never left. -/
def Diverges (body : σ → ForInStep σ) (s : σ) : Prop :=
  ∀ n, run body n s = none

/-- The **total evaluator**: after `n` rounds the state is handed back as it is. -/
def iterate (body : σ → ForInStep σ) : ℕ → σ → σ
  | 0, s => s
  | n + 1, s =>
    match body s with
    | .done t => t
    | .yield t => iterate body n t

@[simp] theorem run_zero (body : σ → ForInStep σ) (s : σ) : run body 0 s = none := rfl

@[simp] theorem iterate_zero (body : σ → ForInStep σ) (s : σ) : iterate body 0 s = s := rfl

variable {body : σ → ForInStep σ} {s t : σ}

theorem run_succ_done (h : body s = .done t) (n : ℕ) : run body (n + 1) s = some t := by
  simp only [run, h]

theorem run_succ_yield (h : body s = .yield t) (n : ℕ) : run body (n + 1) s = run body n t := by
  simp only [run, h]

variable {n : ℕ}

/-- An answer found within a budget is found within every larger one. -/
theorem run_mono {m : ℕ} (hnm : n ≤ m) (h : run body n s = some t) : run body m s = some t := by
  induction n generalizing s m with
  | zero => simp at h
  | succ n ih =>
    obtain ⟨m, rfl⟩ : ∃ m', m = m' + 1 := ⟨m - 1, by omega⟩
    cases hb : body s with
    | done u =>
      rw [run_succ_done hb] at h ⊢
      exact h
    | yield u =>
      rw [run_succ_yield hb] at h ⊢
      exact ih (by omega) h

variable {I : σ → Prop}

/-- **The invariant rule.** `I` holds at the head of every round, and every exit taken
from a state with `I` establishes `Q`. -/
theorem run_induction {Q : σ → Prop} (hyield : ∀ s t, I s → body s = .yield t → I t)
    (hdone : ∀ s t, I s → body s = .done t → Q t) (hs : I s)
    (h : run body n s = some t) : Q t := by
  induction n generalizing s with
  | zero => simp at h
  | succ n ih =>
    cases hb : body s with
    | done u =>
      rw [run_succ_done hb] at h
      exact Option.some.inj h ▸ hdone s u hs hb
    | yield u =>
      rw [run_succ_yield hb] at h
      exact ih (hyield s u hs hb) h

/-- **The variant rule.** A measure that drops in every round leaves the loop within one
round more than its initial value. -/
theorem returns_of_variant (μ : σ → ℕ) (hyield : ∀ s t, I s → body s = .yield t → I t ∧ μ t < μ s) (hs : I s) :
    ∃ t, run body (μ s + 1) s = some t := by
  induction hm : μ s using Nat.strong_induction_on generalizing s with
  | _ m ih =>
    cases hb : body s with
    | done u => exact ⟨u, run_succ_done hb _⟩
    | yield u =>
      obtain ⟨hu, hlt⟩ := hyield s u hs hb
      obtain ⟨t, ht⟩ := ih (μ u) (by omega) hu rfl
      refine ⟨t, ?_⟩
      rw [run_succ_yield hb]
      exact run_mono (by omega) ht

/-- **A loop until a test holds** is left in the first state where it does. -/
theorem run_until {p : σ → Prop} [DecidablePred p] {f : σ → σ} {k : ℕ} (hp : p (f^[k] s))
    (hbefore : ∀ j < k, ¬ p (f^[j] s)) (hkn : k < n) :
    run (fun t => if p t then .done t else .yield (f t)) n s = some (f^[k] s) := by
  induction k generalizing s n with
  | zero =>
    obtain ⟨n, rfl⟩ := Nat.exists_eq_succ_of_ne_zero (Nat.ne_of_gt hkn)
    have hs : p s := hp
    simp only [run, if_pos hs, Function.iterate_zero, id]
  | succ k ih =>
    obtain ⟨n, rfl⟩ := Nat.exists_eq_succ_of_ne_zero (Nat.ne_of_gt (Nat.zero_lt_of_lt hkn))
    have hs : ¬ p s := hbefore 0 (Nat.zero_lt_succ k)
    simp only [run, if_neg hs, Function.iterate_succ_apply]
    exact ih hp (fun j hj => hbefore (j + 1) (Nat.succ_lt_succ hj)) (Nat.lt_of_succ_lt_succ hkn)

/-- A round that changes nothing is repeated forever. -/
theorem diverges_of_fixed (h : body s = .yield s) : Diverges body s := by
  intro n
  induction n with
  | zero => rfl
  | succ n ih => rw [run_succ_yield h, ih]

theorem iterate_induction (hyield : ∀ s t, I s → body s = .yield t → I t)
    (hdone : ∀ s t, I s → body s = .done t → I t) (n : ℕ) (hs : I s) :
    I (iterate body n s) := by
  induction n generalizing s with
  | zero => exact hs
  | succ n ih =>
    cases hb : body s with
    | done u =>
      simp only [iterate, hb]
      exact hdone s u hs hb
    | yield u =>
      simp only [iterate, hb]
      exact ih (hyield s u hs hb)

/-- **The relational rule**: a loop relates its first to its last state by every preorder
that each of its rounds respects. -/
theorem run_relates {R : σ → σ → Prop} (hrefl : ∀ s, R s s) (htrans : ∀ s t u, R s t → R t u → R s u)
    (hbody : ∀ s t, body s = .yield t ∨ body s = .done t → R s t)
    (h : run body n s = some t) : R s t :=
  run_induction (I := R s) (Q := R s) (fun u v hu hv => htrans s u v hu (hbody u v (Or.inl hv)))
    (fun u v hu hv => htrans s u v hu (hbody u v (Or.inr hv))) (hrefl s) h

theorem iterate_relates {R : σ → σ → Prop} (hrefl : ∀ s, R s s) (htrans : ∀ s t u, R s t → R t u → R s u)
    (hbody : ∀ s t, body s = .yield t ∨ body s = .done t → R s t) (n : ℕ) (s : σ) :
    R s (iterate body n s) :=
  iterate_induction (I := R s) (fun u v hu hv => htrans s u v hu (hbody u v (Or.inl hv)))
    (fun u v hu hv => htrans s u v hu (hbody u v (Or.inr hv))) n (hrefl s)

/-- The rounds of two loops side by side. -/
inductive RoundRel {τ : Type*} (R : σ → τ → Prop) : ForInStep σ → ForInStep τ → Prop
  | done {s : σ} {t : τ} : R s t → RoundRel R (.done s) (.done t)
  | yield {s : σ} {t : τ} : R s t → RoundRel R (.yield s) (.yield t)

/-- **The rule for two loops**: rounds that keep a relation and go on together answer together, in
related states. -/
theorem run_pair {τ : Type*} {R : σ → τ → Prop} {body' : τ → ForInStep τ}
    (hbody : ∀ s t, R s t → RoundRel R (body s) (body' t)) {s' : σ} {t : τ} (h : R s t)
    (hrun : run body n s = some s') : ∃ t', run body' n t = some t' ∧ R s' t' := by
  induction n generalizing s t with
  | zero => simp at hrun
  | succ n ih =>
    have hround := hbody s t h
    cases hb : body s with
    | done u =>
      rw [run_succ_done hb] at hrun
      rw [hb] at hround
      cases hb' : body' t with
      | done v =>
        rw [hb'] at hround
        cases hround with
        | done hR => exact ⟨v, run_succ_done hb' n, Option.some.inj hrun ▸ hR⟩
      | yield v =>
        rw [hb'] at hround
        cases hround
    | yield u =>
      rw [run_succ_yield hb] at hrun
      rw [hb] at hround
      cases hb' : body' t with
      | done v =>
        rw [hb'] at hround
        cases hround
      | yield v =>
        rw [hb'] at hround
        cases hround with
        | yield hR =>
          obtain ⟨t', ht', hR'⟩ := ih hR hrun
          exact ⟨t', (run_succ_yield hb' n).trans ht', hR'⟩

theorem iterate_pair {τ : Type*} {R : σ → τ → Prop}
    {body' : τ → ForInStep τ} (hbody : ∀ s t, R s t → RoundRel R (body s) (body' t)) (n : ℕ)
    {t : τ} (h : R s t) : R (iterate body n s) (iterate body' n t) := by
  induction n generalizing s t with
  | zero => exact h
  | succ n ih =>
    have hround := hbody s t h
    rw [iterate, iterate]
    revert hround
    generalize body s = r
    generalize body' t = r'
    rintro (hR | hR)
    · exact hR
    · exact ih hR

end Loop
