import Mathlib.Algebra.Group.Int.Defs
import Mathlib.Algebra.GroupWithZero.Nat
import Mathlib.Data.List.Basic

/-!
# Runs of a Labelled Transition Relation

A system is given by its step relation `step s a t`: from state `s` the action `a` can
lead to state `t`. `Run step s as t` is a finite run from `s` to `t` that performs the
actions `as` in order. Interleavings of several parties are runs whose actions name the
party that moves.

## Main results

* `Run.invariant`: what every step preserves holds in every state of a run.
* `Run.history`: the same for a property of the state together with the actions so far.
* `Run.trans`, `Run.mono`: runs compose, and weaken along the step relation.
* `guarded`: the steps that meet a condition, for statements about the runs that keep
  to it.
* `Reaches`: some run leads there whose actions all have a property; the form in which an
  implementation refines a system, function by function.
* `Occurs`: an action with a property is performed at some point of a run.
* `run_of_exec`: for a system whose steps are computed, what is computed is a run.
* `exists_run`, `exists_run_fires`: a run to a state with a property, by computing.
-/

namespace Transition

open List

variable {σ α : Type*}

/-- A finite run of `step` from `s`, with the actions it performs. -/
inductive Run (step : σ → α → σ → Prop) (s : σ) : List α → σ → Prop
  | nil : Run step s [] s
  | snoc {as : List α} {t u : σ} {a : α} :
      Run step s as t → step t a u → Run step s (as ++ [a]) u

/-- The steps of a system that are taken from a state and with an action meeting `G`. -/
def guarded (G : σ → α → Prop) (step : σ → α → σ → Prop) : σ → α → σ → Prop :=
  fun s a t => G s a ∧ step s a t

variable {step : σ → α → σ → Prop} {s t : σ} {as : List α}

/-- **Induction over runs, with their actions.** -/
theorem Run.history {P : List α → σ → Prop} (hnil : P [] s)
    (hsnoc : ∀ as t a u, Run step s as t → P as t → step t a u → P (as ++ [a]) u)
    (h : Run step s as t) : P as t := by
  induction h with
  | nil => exact hnil
  | snoc hrun hstep ih => exact hsnoc _ _ _ _ hrun ih hstep

/-- **The invariant rule.** -/
theorem Run.invariant {I : σ → Prop} (hstep : ∀ s a t, I s → step s a t → I t) (hs : I s) (h : Run step s as t) : I t :=
  h.history (P := fun _ t => I t) hs fun _ _ _ _ _ hI ha => hstep _ _ _ hI ha

variable {u : σ}

/-- Runs compose. -/
theorem Run.trans {bs : List α} (h₁ : Run step s as t) (h₂ : Run step t bs u) : Run step s (as ++ bs) u := by
  induction h₂ with
  | nil => rwa [append_nil]
  | snoc _ ha ih =>
    rw [← append_assoc]
    exact ih.snoc ha

variable {a : α}

theorem Run.single (h : step s a t) : Run step s [a] t :=
  (nil_append [a]) ▸ Run.snoc Run.nil h

/-- A run of a relation is a run of every larger one. -/
theorem Run.mono {step' : σ → α → σ → Prop} (hle : ∀ s a t, step s a t → step' s a t)
    (h : Run step s as t) : Run step' s as t := by
  induction h with
  | nil => exact Run.nil
  | snoc _ ha ih => exact ih.snoc (hle _ _ _ ha)

theorem Run.of_guarded {G : σ → α → Prop} (h : Run (guarded G step) s as t) : Run step s as t :=
  h.mono fun _ _ _ ha => ha.2

theorem Run.first (h : Run step s (a :: as) u) : ∃ t, step s a t ∧ Run step t as u := by
  refine h.history (P := fun l u => match l with
    | [] => u = s
    | a :: as => ∃ t, step s a t ∧ Run step t as u) rfl fun l t b u _ hP hb => ?_
  cases l with
  | nil => exact ⟨u, (hP : t = s) ▸ hb, .nil⟩
  | cons a as =>
    obtain ⟨v, hv, hrun⟩ := hP
    exact ⟨v, hv, hrun.snoc hb⟩

theorem Run.last (h : Run step s (as ++ [a]) u) : ∃ t, Run step s as t ∧ step t a u := by
  generalize hl : as ++ [a] = l at h
  cases h with
  | nil => simp at hl
  | snoc hrun hstep =>
    obtain ⟨rfl, hlast⟩ := append_inj' hl rfl
    obtain rfl : a = _ := singleton_inj.mp hlast
    exact ⟨_, hrun, hstep⟩

theorem Run.front {bs : List α} (h : Run step s (as ++ bs) u) : ∃ t, Run step s as t := by
  generalize hl : as ++ bs = l at h
  induction h generalizing bs with
  | nil =>
    obtain ⟨rfl, -⟩ := append_eq_nil_iff.mp hl
    exact ⟨s, .nil⟩
  | snoc hrun hstep ih =>
    rcases eq_nil_or_concat bs with rfl | ⟨bs, b, rfl⟩
    · rw [append_nil] at hl
      exact ⟨_, hl ▸ hrun.snoc hstep⟩
    · rw [concat_eq_append, ← append_assoc] at hl
      exact ih (append_inj' hl rfl).1

theorem Run.unique (hstep : ∀ s a t u, step s a t → step s a u → t = u)
    (h₁ : Run step s as t) (h₂ : Run step s as u) : t = u := by
  induction h₁ generalizing u with
  | nil =>
    generalize hl : [] = l at h₂
    cases h₂ with
    | nil => rfl
    | snoc => simp at hl
  | snoc _ ha ih =>
    obtain ⟨v, hv, hb⟩ := h₂.last
    obtain rfl := ih hv
    exact hstep _ _ _ _ ha hb

/-- At some point of the run an action is performed that meets `D`. -/
def Occurs (step : σ → α → σ → Prop) (D : σ → α → Prop) (s : σ) (as : List α) : Prop :=
  ∃ bs a cs t, as = bs ++ a :: cs ∧ Run step s bs t ∧ D t a

theorem occurs_snoc (hstep : ∀ s a t u, step s a t → step s a u → t = u) {D : σ → α → Prop}
    (h : Run step s as t) : Occurs step D s (as ++ [a]) ↔ Occurs step D s as ∨ D t a := by
  constructor
  · rintro ⟨bs, b, cs, u, heq, hrun, hD⟩
    rcases eq_nil_or_concat cs with rfl | ⟨cs, c, rfl⟩
    · obtain ⟨rfl, hlast⟩ := append_inj' heq rfl
      obtain rfl : a = b := singleton_inj.mp hlast
      exact .inr (h.unique hstep hrun ▸ hD)
    · rw [concat_eq_append, ← cons_append, ← append_assoc] at heq
      obtain ⟨rfl, -⟩ := append_inj' heq rfl
      exact .inl ⟨bs, b, cs, u, rfl, hrun, hD⟩
  · rintro (⟨bs, b, cs, u, rfl, hrun, hD⟩ | hD)
    · exact ⟨bs, b, cs ++ [a], u, by simp, hrun, hD⟩
    · exact ⟨as, a, [], t, rfl, h, hD⟩

/-- The step relation of a system whose steps are computed. -/
def fires (step : σ → α → Option σ) : σ → α → σ → Prop := fun s a t => step s a = some t

/-- The state after a list of actions that each meet `G`, if all of them can be performed. -/
def exec (G : σ → α → Bool) (step : σ → α → Option σ) : σ → List α → Option σ
  | s, [] => some s
  | s, a :: as => if G s a then (step s a).bind fun t => exec G step t as else none

/-- **What is computed is a run.** -/
theorem run_of_exec {G : σ → α → Bool} {step : σ → α → Option σ} (h : exec G step s as = some t) :
    Run (guarded (fun s a => G s a = true) (fires step)) s as t := by
  induction as generalizing s with
  | nil =>
    cases h
    exact Run.nil
  | cons a as ih =>
    rw [exec] at h
    split at h
    · rename_i hG
      obtain ⟨u, h₁, h₂⟩ := Option.bind_eq_some_iff.mp h
      exact (Run.single ⟨hG, h₁⟩).trans (ih h₂)
    · cases h

/-- **A run to a state with a property**, computed along a condition that can be decided. -/
theorem exists_run {G : σ → α → Prop} [∀ s a, Decidable (G s a)] {step : σ → α → Option σ}
    {P : σ → Prop} [DecidablePred P]
    (h : (exec (fun s a => decide (G s a)) step s as).any (fun t => decide (P t)) = true) :
    ∃ t, Run (guarded G (fires step)) s as t ∧ P t := by
  obtain ⟨t, ht, hP⟩ := (Option.any_eq_true _ _).mp h
  exact ⟨t, (run_of_exec ht).mono fun _ _ _ hstep => ⟨of_decide_eq_true hstep.1, hstep.2⟩, of_decide_eq_true hP⟩

/-- The same for the runs that keep to no condition. -/
theorem exists_run_fires {step : σ → α → Option σ} {P : σ → Prop} [DecidablePred P]
    (h : (exec (fun _ _ => true) step s as).any (fun t => decide (P t)) = true) :
    ∃ t, Run (fires step) s as t ∧ P t := by
  obtain ⟨t, hrun, hP⟩ := exists_run (G := fun _ _ => True) h
  exact ⟨t, hrun.of_guarded, hP⟩

/-- Some run leads from `s` to `t` and performs only actions with property `A`. -/
def Reaches (step : σ → α → σ → Prop) (A : α → Prop) (s t : σ) : Prop :=
  ∃ as, Run step s as t ∧ ∀ a ∈ as, A a

variable {A : α → Prop}

theorem Reaches.refl (s : σ) : Reaches step A s s :=
  ⟨[], Run.nil, by simp⟩

theorem Reaches.single (h : step s a t) (ha : A a) : Reaches step A s t :=
  ⟨[a], Run.single h, by simpa using ha⟩

/-- Reaching on from a reached state. -/
theorem Reaches.trans (h₁ : Reaches step A s t) (h₂ : Reaches step A t u) : Reaches step A s u := by
  obtain ⟨as, has, hA⟩ := h₁
  obtain ⟨bs, hbs, hB⟩ := h₂
  refine ⟨as ++ bs, has.trans hbs, fun a ha => ?_⟩
  rcases mem_append.mp ha with ha | ha
  · exact hA a ha
  · exact hB a ha

/-- Reaching with fewer actions is reaching with more. -/
theorem Reaches.mono {B : α → Prop} (h : Reaches step A s t) (hAB : ∀ a, A a → B a) : Reaches step B s t := by
  obtain ⟨as, has, hA⟩ := h
  exact ⟨as, has, fun a ha => hAB a (hA a ha)⟩

/-- The invariant rule, for the actions with property `A`. -/
theorem Reaches.invariant {I : σ → Prop}
    (hstep : ∀ s a t, A a → I s → step s a t → I t) (hs : I s) (h : Reaches step A s t) :
    I t := by
  obtain ⟨as, has, hA⟩ := h
  refine has.history (P := fun as t => (∀ a ∈ as, A a) → I t) (fun _ => hs) ?_ hA
  intro as t a u _ ih ha hA
  refine hstep t a u (hA a (by simp)) (ih fun b hb => hA b (by simp [hb])) ha

end Transition
