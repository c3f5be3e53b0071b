import Mathlib.Algebra.Group.Nat.Defs
import Mathlib.Data.List.Nodup

/-!
# Singly Linked Lists in Memory

The nodes of a list are cells of a memory: an address has a node with a value and the address of the next node, or
nothing.

## Main results

* `path_append`: a path in two.
* `Path.relink`: the last node of a path gets another successor.
* `Holds.push`, `Holds.snoc`, `Holds.removeFirst`, `Holds.remove`: the operations on the list of the nodes.
-/

namespace SinglyLinked

open List Function Option

variable {ν α : Type*}

/-- A node. -/
structure Node (ν α : Type*) where
  value : α
  next : Option ν

/-- The nodes at their addresses. -/
abbrev Memory (ν α : Type*) := ν → Option (Node ν α)

/-- From `p` the links lead through the nodes of the list to `q`. -/
def Path (m : Memory ν α) : Option ν → List (ν × α) → Option ν → Prop
  | p, [], q => p = q
  | p, (a, x) :: xs, q => p = some a ∧ ∃ r, m a = some ⟨x, r⟩ ∧ Path m r xs q

variable {m m' : Memory ν α} {p q r : Option ν} {a b : ν} {x y : α} {xs ys zs : List (ν × α)}

theorem Path.congr (h : Path m p xs q) (hm : ∀ a ∈ xs.map Prod.fst, m' a = m a) : Path m' p xs q := by
  induction xs generalizing p with
  | nil => exact h
  | cons u us ih =>
    obtain ⟨rfl, r, hu, hrest⟩ := h
    exact ⟨rfl, r, (hm u.1 mem_cons_self).trans hu, ih hrest fun a ha => hm a (mem_cons_of_mem u.1 ha)⟩

/-- A path in two. -/
theorem path_append : Path m p (xs ++ ys) q ↔ ∃ r, Path m p xs r ∧ Path m r ys q := by
  induction xs generalizing p with
  | nil =>
    constructor
    · exact fun h => ⟨p, rfl, h⟩
    · rintro ⟨r, rfl, h⟩
      exact h
  | cons u us ih =>
    constructor
    · rintro ⟨hp, s, hu, hrest⟩
      obtain ⟨r, hus, hys⟩ := ih.1 hrest
      exact ⟨r, ⟨hp, s, hu, hus⟩, hys⟩
    · rintro ⟨r, ⟨hp, s, hu, hus⟩, hys⟩
      exact ⟨hp, s, hu, ih.2 ⟨r, hus, hys⟩⟩

theorem Path.mem_ne_none (h : Path m p xs q) (ha : a ∈ xs.map Prod.fst) : m a ≠ none := by
  induction xs generalizing p with
  | nil => cases ha
  | cons u us ih =>
    obtain ⟨-, r, hu, hrest⟩ := h
    rcases mem_cons.1 ha with rfl | ha
    · rw [hu]
      exact some_ne_none _
    · exact ih hrest ha

/-- **The list that is in memory**: the links lead from its first node to its end, no node is there twice, and there
is no other node. -/
structure Holds (m : Memory ν α) (first : Option ν) (xs : List (ν × α)) : Prop where
  path : Path m first xs none
  nodup : (xs.map Prod.fst).Nodup
  only : ∀ a, m a ≠ none → a ∈ xs.map Prod.fst

theorem holds_empty : Holds (fun _ => none : Memory ν α) none [] := ⟨rfl, nodup_nil, fun _ h => absurd rfl h⟩

theorem Holds.notMem (h : Holds m p xs) (ha : m a = none) : a ∉ xs.map Prod.fst :=
  fun hmem => h.path.mem_ne_none hmem ha

theorem Holds.first_eq (h : Holds m p ((a, x) :: xs)) : p = some a := h.path.1

theorem Holds.nil_of_none (h : Holds m none xs) : xs = [] := by
  cases xs with
  | nil => rfl
  | cons u us => cases h.path.1

theorem Holds.none_of_nil (h : Holds m p []) : p = none := h.path

theorem Holds.nodup_remove (h : Holds m p (ys ++ (a, x) :: zs)) :
    ((ys ++ zs).map Prod.fst).Nodup ∧ a ∉ (ys ++ zs).map Prod.fst := by
  have hnodup := h.nodup
  simp only [map_append, map_cons] at hnodup ⊢
  rw [nodup_middle, nodup_cons] at hnodup
  exact hnodup.symm

section

variable [DecidableEq ν]

/-- A node gets another successor. -/
def link (m : Memory ν α) (a : ν) (q : Option ν) : Memory ν α :=
  Function.update m a ((m a).map fun n => { n with next := q })

theorem link_self (h : m a = some ⟨x, r⟩) : link m a q a = some ⟨x, q⟩ := by
  rw [link, update_self, h]
  rfl

theorem link_of_ne (h : b ≠ a) : link m a q b = m b := update_of_ne h ..

theorem link_ne_none : link m a q b ≠ none ↔ m b ≠ none := by
  by_cases hb : b = a
  · rw [hb, link, update_self, ne_eq, map_eq_none_iff]
  · rw [link_of_ne hb]

/-- **The last node of a path gets another successor.** -/
theorem Path.relink (h : Path m p (ys ++ [(b, y)]) q) (hnodup : ((ys ++ [(b, y)]).map Prod.fst).Nodup) :
    Path (link m b r) p (ys ++ [(b, y)]) r := by
  obtain ⟨s, hys, hs, u, hb, -⟩ := path_append.1 h
  rw [map_append, nodup_append] at hnodup
  refine path_append.2 ⟨s, hys.congr fun a ha => link_of_ne ?_, hs, r, link_self hb, rfl⟩
  exact hnodup.2.2 a ha b mem_cons_self

/-- A node is put in an empty memory. -/
theorem Holds.push (h : Holds m none xs) (x : α) :
    Holds (Function.update m a (some ⟨x, none⟩)) (some a) (xs ++ [(a, x)]) := by
  obtain rfl := h.nil_of_none
  refine ⟨⟨rfl, none, update_self .., rfl⟩, nodup_singleton a, fun b hb => ?_⟩
  by_cases hba : b = a
  · exact mem_singleton.2 hba
  · rw [update_of_ne hba] at hb
    cases h.only b hb

/-- **A node is put behind the last one.** -/
theorem Holds.snoc (h : Holds m p (ys ++ [(b, y)])) (ha : m a = none) (x : α) :
    Holds (link (Function.update m a (some ⟨x, none⟩)) b (some a)) p (ys ++ [(b, y)] ++ [(a, x)]) := by
  have hnot := h.notMem ha
  have hb : b ∈ (ys ++ [(b, y)]).map Prod.fst := by simp
  have hab : a ≠ b := fun heq => hnot (heq ▸ hb)
  have hne : ∀ c ∈ (ys ++ [(b, y)]).map Prod.fst, c ≠ a := by
    rintro c hc rfl
    exact hnot hc
  have hpath : Path (update m a (some ⟨x, none⟩)) p (ys ++ [(b, y)]) none :=
    h.path.congr fun c hc => update_of_ne (hne c hc) ..
  refine ⟨path_append.2 ⟨some a, hpath.relink h.nodup, rfl, none, ?_, rfl⟩, ?_, fun c hc => ?_⟩
  · exact (link_of_ne hab).trans (update_self ..)
  · rw [map_append, nodup_append]
    refine ⟨h.nodup, nodup_singleton a, fun c hc d hd heq => ?_⟩
    obtain rfl : d = a := mem_singleton.1 hd
    exact hnot (heq ▸ hc)
  · rw [map_append, mem_append]
    rw [link_ne_none] at hc
    by_cases hca : c = a
    · exact .inr (mem_singleton.2 hca)
    · rw [update_of_ne hca] at hc
      exact .inl (h.only c hc)

theorem Holds.only_free (h : Holds m p (ys ++ (a, x) :: zs)) (hm : ∀ c, m' c ≠ none → m c ≠ none) (c : ν)
    (hc : Function.update m' a none c ≠ none) : c ∈ (ys ++ zs).map Prod.fst := by
  by_cases hca : c = a
  · rw [hca, update_self] at hc
    exact absurd rfl hc
  · rw [update_of_ne hca] at hc
    have hmem := h.only c (hm c hc)
    simp only [map_append, map_cons, mem_append, mem_cons] at hmem ⊢
    rcases hmem with hys | heq | hzs
    · exact .inl hys
    · exact absurd heq hca
    · exact .inr hzs

/-- The first node is freed. -/
theorem Holds.removeFirst (h : Holds m p ((a, x) :: zs)) (hr : m a = some ⟨x, r⟩)
    (hm : ∀ c, c ≠ a → m' c = m c) : Holds (Function.update m' a none) r zs := by
  obtain ⟨-, r', hr', hzs⟩ := h.path
  obtain rfl : r = r' := by
    rw [hr] at hr'
    exact congrArg Node.next (some.inj hr')
  have hlist : Holds m p ([] ++ (a, x) :: zs) := h
  obtain ⟨hnodup, hnot⟩ := hlist.nodup_remove
  have hne : ∀ c ∈ zs.map Prod.fst, c ≠ a := fun c hc heq => hnot (heq ▸ hc)
  refine ⟨hzs.congr fun c hc => (update_of_ne (hne c hc) ..).trans (hm c (hne c hc)), hnodup,
    hlist.only_free fun c hc => ?_⟩
  by_cases hca : c = a
  · rw [hca, hr]
    exact some_ne_none _
  · rwa [hm c hca] at hc

/-- **A node is unlinked and freed**, with the one before it. -/
theorem Holds.remove (h : Holds m p (ys ++ (b, y) :: (a, x) :: zs)) (hr : m a = some ⟨x, r⟩) :
    Holds (Function.update (link m b r) a none) p (ys ++ (b, y) :: zs) := by
  have hlist : ys ++ (b, y) :: (a, x) :: zs = (ys ++ [(b, y)]) ++ (a, x) :: zs := by simp
  rw [hlist] at h
  obtain ⟨hnodup, hnot⟩ := h.nodup_remove
  obtain ⟨q, hys, hq, r', hr', hzs⟩ := path_append.1 h.path
  obtain rfl : r = r' := by
    rw [hr] at hr'
    exact congrArg Node.next (some.inj hr')
  rw [show ys ++ (b, y) :: zs = (ys ++ [(b, y)]) ++ zs by simp]
  have hne : ∀ c ∈ (ys ++ [(b, y)] ++ zs).map Prod.fst, c ≠ a := fun c hc heq => hnot (heq ▸ hc)
  rw [map_append] at hnodup hne
  refine ⟨path_append.2 ⟨r, (hys.relink (List.Nodup.of_append_left hnodup)).congr fun c hc => ?_,
    hzs.congr fun c hc => ?_⟩, by rwa [map_append], h.only_free fun c hc => link_ne_none.1 hc⟩
  · exact update_of_ne (hne c (mem_append_left _ hc)) ..
  · have hcb : c ≠ b := fun heq => by
      have hdisj := (nodup_append.1 hnodup).2.2
      exact hdisj b (by simp) c hc heq.symm
    exact (update_of_ne (hne c (mem_append_right _ hc)) ..).trans (link_of_ne hcb)

end

end SinglyLinked
