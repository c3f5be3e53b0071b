import Mathlib.Data.Set.Disjoint
import Mathlib.Algebra.Group.Nat.Defs

/-!
# Loops that Work in Place

A loop whose turns each read some cells of a memory and write others, in the memory that the turns before it have
written already. Where no turn writes what a later one reads, nor where another one writes, every turn leaves what
it would have written at first.

## Main results

* `InPlace.foldl_eq`: what is in the memory after the loop.
-/

namespace Marlin

open List

/-- What the turns of a loop do to a memory: the cells that a turn reads and writes, and what it writes. -/
structure InPlace (ι α β : Type) where
  reads : ι → Set α
  writes : ι → Set α
  run : ι → (α → β) → α → β
  frame : ∀ p m a, a ∉ writes p → run p m a = m a
  local_reads : ∀ p m m', (∀ a ∈ reads p, m a = m' a) → ∀ a ∈ writes p, run p m a = run p m' a

namespace InPlace

variable {ι α β : Type} (t : InPlace ι α β)

/-- The loop. -/
def loop (l : List ι) (m : α → β) : α → β := l.foldl (fun m' p => t.run p m') m

/-- A later turn is not disturbed by an earlier one: it reads nothing, if it is to be right, and writes nothing that
the earlier one writes. -/
def Undisturbed (right : ι → Prop) (p q : ι) : Prop :=
  (right q → ∀ a ∈ t.reads q, a ∉ t.writes p) ∧ ∀ a ∈ t.writes q, a ∉ t.writes p

theorem loop_frame {l : List ι} {a : α} (h : ∀ p ∈ l, a ∉ t.writes p) (m : α → β) : t.loop l m a = m a := by
  induction l generalizing m with
  | nil => rfl
  | cons p l ih =>
    exact (ih (fun q hq => h q (mem_cons_of_mem p hq)) (t.run p m)).trans (t.frame p m a (h p mem_cons_self))

/-- **A turn leaves what it would have written at first.** -/
theorem foldl_eq {right : ι → Prop} {l : List ι} (h : l.Pairwise (t.Undisturbed right)) {p : ι} (hp : p ∈ l)
    (hright : right p) (m : α → β) {a : α} (ha : a ∈ t.writes p) : t.loop l m a = t.run p m a := by
  induction l generalizing m with
  | nil => exact absurd hp not_mem_nil
  | cons q l ih =>
    obtain ⟨hq, hl⟩ := pairwise_cons.mp h
    rcases mem_cons.mp hp with rfl | hp
    · exact t.loop_frame (fun r hr har => (hq r hr).2 a har ha) (t.run p m)
    · refine (ih hl hp (t.run q m)).trans (t.local_reads p _ _ (fun c hc => ?_) a ha)
      exact t.frame q m c ((hq p hp).1 hright c hc)

end InPlace

end Marlin
