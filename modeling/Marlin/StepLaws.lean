import Mathlib.Algebra.Group.Nat.Defs

/-!
# Laws of the Steps of a Run

A deterministic system takes one event after the other. A law of its steps is a property of a state and the event
that it takes next; it holds along a run where it holds of each step.

## Main results

* `along_iff`: two laws that agree as long as the second one holds, agree along a run.
* `along_imp`: a law that follows from another one, follows along a run.
-/

namespace StepLaws

variable {σ ε : Type*} {step : σ → ε → σ} {P C : σ → ε → Prop} {I : σ → Prop} {s : σ}

/-- The law holds of each step of the run. -/
def Along (step : σ → ε → σ) (P : σ → ε → Prop) : σ → List ε → Prop
  | _, [] => True
  | s, e :: es => P s e ∧ Along step P (step s e) es

/-- **Two laws agree along a run**, where they agree under an invariant that the second one keeps. -/
theorem along_iff (hiff : ∀ s e, I s → (P s e ↔ C s e)) (hkeep : ∀ s e, I s → C s e → I (step s e)) (hs : I s)
    (es : List ε) : Along step P s es ↔ Along step C s es := by
  induction es generalizing s with
  | nil => exact Iff.rfl
  | cons e es ih =>
    rw [Along, Along, hiff s e hs]
    exact and_congr_right fun hc => ih (hkeep s e hs hc)

/-- **A law follows along a run** of events that are all allowed, where it follows under an invariant. -/
theorem along_imp {D : ε → Prop} (himp : ∀ s e, I s → D e → C s e → P s e)
    (hkeep : ∀ s e, I s → D e → C s e → I (step s e)) (hs : I s) {es : List ε} (hD : ∀ e ∈ es, D e)
    (hC : Along step C s es) : Along step P s es := by
  induction es generalizing s with
  | nil => trivial
  | cons e es ih =>
    have he := hD e List.mem_cons_self
    exact ⟨himp s e hs he hC.1, ih (hkeep s e hs he hC.1) (fun e' he' => hD e' (List.mem_cons_of_mem _ he')) hC.2⟩

end StepLaws
