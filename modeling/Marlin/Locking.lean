import Mathlib.Data.List.Basic

/-!
# Lock Discipline of a Thread

A `LockM` program of a thread works on a state and on the locks that the thread holds. `lock`
of a lock that the thread holds and `unlock` of one that it does not hold are faults.

## Main results

* `Ends`: the program runs without a fault, and what the thread holds after it.
* `Ends.bind`: the rule for a sequence; `ends_lock`, `ends_unlock`, `ends_data`,
  `ends_change` and `ends_pure`: one rule for each operation.
* `Ends.unique`: what is held at the end is determined.
-/

namespace Locking

variable {L σ α β : Type}

/-- The two ways to break the discipline. -/
inductive Fault (L : Type)
  | relock (l : L)
  | notHeld (l : L)
  deriving DecidableEq

/-- A thread: the locks that it holds, the last one first, and the state it works on. -/
structure Thread (L σ : Type) where
  held : List L
  data : σ

/-- Programs that take and release locks. -/
abbrev LockM (L σ : Type) := StateT (Thread L σ) (Except (Fault L))

/-- Takes a lock. -/
def lock [DecidableEq L] (l : L) : LockM L σ Unit := fun t =>
  if l ∈ t.held then .error (.relock l) else .ok ((), { t with held := l :: t.held })

/-- Releases a lock. -/
def unlock [DecidableEq L] (l : L) : LockM L σ Unit := fun t =>
  if l ∈ t.held then .ok ((), { t with held := t.held.erase l }) else .error (.notHeld l)

/-- Reads the state. -/
def data : LockM L σ σ := fun t => .ok (t.data, t)

/-- Changes the state. -/
def change (f : σ → σ) : LockM L σ Unit := fun t => .ok ((), { t with data := f t.data })

/-- The program runs without a fault, and the thread holds `post` after it. -/
def Ends (x : LockM L σ α) (t : Thread L σ) (post : List L) : Prop :=
  ∃ a t', x t = .ok (a, t') ∧ t'.held = post

/-- What is held at the end is determined. -/
theorem Ends.unique {x : LockM L σ α} {t : Thread L σ} {post post' : List L}
    (h : Ends x t post) (h' : Ends x t post') : post = post' := by
  obtain ⟨a, u, hrun, rfl⟩ := h
  obtain ⟨a', u', hrun', rfl⟩ := h'
  rw [hrun, Except.ok.injEq, Prod.mk.injEq] at hrun'
  rw [hrun'.2]

/-- **The rule for a sequence.** -/
theorem Ends.bind {x : LockM L σ α} {f : α → LockM L σ β} {t : Thread L σ} {mid post : List L} (hx : Ends x t mid)
    (hf : ∀ a t', t'.held = mid → Ends (f a) t' post) : Ends (x >>= f) t post := by
  obtain ⟨a, t', hrun, hmid⟩ := hx
  obtain ⟨b, t'', hrun', hpost⟩ := hf a t' hmid
  refine ⟨b, t'', ?_, hpost⟩
  simp only [Bind.bind, StateT.bind, hrun, Except.bind]
  exact hrun'

/-- A result alone changes nothing. -/
@[simp] theorem ends_pure (a : α) (t : Thread L σ) (post : List L) :
    Ends (pure a : LockM L σ α) t post ↔ t.held = post := by
  constructor
  · rintro ⟨b, t', hrun, rfl⟩
    cases hrun
    rfl
  · intro h
    exact ⟨a, t, rfl, h⟩

/-- A lock that the thread does not hold is taken. -/
@[simp] theorem ends_lock [DecidableEq L] {l : L} {t : Thread L σ} (hl : l ∉ t.held)
    (f : Unit → LockM L σ β) (post : List L) :
    Ends (lock l >>= f) t post ↔ Ends (f ()) { t with held := l :: t.held } post := by
  simp only [Ends, Bind.bind, StateT.bind, lock, if_neg hl, Except.bind]

/-- A lock that the thread holds is released. -/
@[simp] theorem ends_unlock [DecidableEq L] {l : L} {t : Thread L σ} (hl : l ∈ t.held)
    (f : Unit → LockM L σ β) (post : List L) :
    Ends (unlock l >>= f) t post ↔ Ends (f ()) { t with held := t.held.erase l } post := by
  simp only [Ends, Bind.bind, StateT.bind, unlock, if_pos hl, Except.bind]

/-- Reading the state holds nothing. -/
@[simp] theorem ends_data (f : σ → LockM L σ β) (t : Thread L σ) (post : List L) :
    Ends (data >>= f) t post ↔ Ends (f t.data) t post :=
  Iff.rfl

/-- Changing the state holds nothing. -/
@[simp] theorem ends_change (g : σ → σ) (f : Unit → LockM L σ β) (t : Thread L σ) (post : List L) :
    Ends (change g >>= f) t post ↔ Ends (f ()) { t with data := g t.data } post :=
  Iff.rfl

end Locking
