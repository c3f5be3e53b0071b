/-!
# Postconditions of Functions That May Leave Early

A function in sections is a chain of `Except` computations: a section goes on with a value, or the
function is left with a result. `Meets P Q` is a postcondition for both ends.

## Main results

* `Meets.bind`: the rule for two sections in a row.
* `Meets.ok`, `Meets.error`: what is known where the function went on, and where it was left.
* `bind_eq_ok`, `ite_error_eq_ok`: when a chain, or a section, goes on to its end.
* `Along.bind`: the rule for sections that keep a relation between the states.
-/

namespace Outcome

universe u v

variable {ε : Type u} {α β : Type v}

/-- Where the computation goes on, `P` holds of its value; where it leaves, `Q` of its result. -/
def Meets (P : α → Prop) (Q : ε → Prop) : Except ε α → Prop
  | .ok a => P a
  | .error e => Q e

variable {P P' : α → Prop} {Q Q' : ε → Prop} {R : β → Prop}

variable {x : Except ε α} {f : α → Except ε β}

/-- Two sections in a row. -/
theorem Meets.bind (hx : Meets P Q x) (hf : ∀ a, P a → Meets R Q (f a)) : Meets R Q (x >>= f) := by
  cases x with
  | ok a => exact hf a hx
  | error e => exact hx

theorem Meets.mono (hx : Meets P Q x) (hP : ∀ a, P a → P' a) (hQ : ∀ e, Q e → Q' e) : Meets P' Q' x := by
  cases x with
  | ok a => exact hP a hx
  | error e => exact hQ e hx

theorem Meets.seq {S : ε → Prop} (hx : Meets P Q x)
    (hQ : ∀ e, Q e → S e) (hf : ∀ a, P a → Meets R S (f a)) : Meets R S (x >>= f) :=
  (hx.mono (fun _ ha => ha) hQ).bind hf

/-- Two postconditions. -/
theorem Meets.and (h : Meets P Q x) (h' : Meets P' Q' x) : Meets (fun a => P a ∧ P' a) (fun e => Q e ∧ Q' e) x := by
  cases x with
  | ok a => exact ⟨h, h'⟩
  | error e => exact ⟨h, h'⟩

variable {b : α}

theorem Meets.of_eq_ok {C : Prop} (h : ∀ {a}, x = .ok a ↔ C ∧ a = b) : Meets (fun a => C ∧ a = b) (fun _ => ¬ C) x := by
  cases x with
  | ok a => exact h.mp rfl
  | error e => exact fun hC => nomatch h.mpr ⟨hC, rfl⟩

variable {a : α}

/-- Where the function went on. -/
theorem Meets.ok (hx : Meets P Q x) (h : x = .ok a) : P a := by
  rw [h] at hx
  exact hx

variable {e : ε}

/-- Where the function was left. -/
theorem Meets.error (hx : Meets P Q x) (h : x = .error e) : Q e := by
  rw [h] at hx
  exact hx

/-- Two sections in a row go on to the end. -/
theorem bind_eq_ok {b : β} : x >>= f = .ok b ↔ ∃ a, x = .ok a ∧ f a = .ok b := by
  cases x <;> simp [Bind.bind, Except.bind]

/-- A section that goes on under a condition. -/
theorem ite_error_eq_ok {c : Prop} [Decidable c] :
    (if c then .ok a else .error e : Except ε α) = .ok b ↔ c ∧ b = a := by
  split <;> simp [*, eq_comm]

theorem error_ite_eq_ok {c : Prop} [Decidable c] :
    (if c then .error e else .ok a : Except ε α) = .ok b ↔ ¬ c ∧ b = a := by
  split <;> simp [*, eq_comm]

theorem ok_eq_ok : (.ok a : Except ε α) = .ok b ↔ b = a :=
  ⟨fun h => (Except.ok.inj h).symm, fun h => h ▸ rfl⟩

/-- A section of a function on a state: where it goes on and where it leaves, the state is related
to the one before, and it leaves with an exit in `E`. -/
def Along {κ : Type v} (R : α → α → Prop) (E : κ → Prop) (f : α → Except (κ × α) α) : Prop :=
  ∀ a, Meets (R a) (fun r => E r.1 ∧ R a r.2) (f a)

/-- Two sections in a row, for a relation that composes. -/
theorem Along.bind {κ : Type v} {R : α → α → Prop} {E : κ → Prop} {f g : α → Except (κ × α) α}
    (htrans : ∀ a b c, R a b → R b c → R a c) (hf : Along R E f) (hg : Along R E g) :
    Along R E fun a => f a >>= g := by
  intro a
  refine (hf a).bind fun b hb => ?_
  exact (hg b).mono (fun c hc => htrans a b c hb hc) fun r hr => ⟨hr.1, htrans a b r.2 hb hr.2⟩

end Outcome
