import Mathlib.Data.List.Nodup

/-!
# Circular Doubly Linked Lists

The nodes of a list have a link to the next and a link to the previous node, and the list ends at the head it
started from. The links are two functions on the nodes, so that a node that was removed still has its own.

## Main results

* `Ring.addTail`, `Ring.insertFirst`, `Ring.del`: the operations on the list of the nodes.
* `del_self`: a node that was removed is linked to itself.
-/

namespace CircularList

open List Function

variable {ν : Type*}

/-- The links of the nodes. -/
structure Links (ν : Type*) where
  next : ν → ν
  prev : ν → ν

/-- From `a` the links lead through the nodes of the list to `b`, and back. -/
def Linked (l : Links ν) : ν → List ν → ν → Prop
  | a, [], b => l.next a = b ∧ l.prev b = a
  | a, x :: xs, b => l.next a = x ∧ l.prev x = a ∧ Linked l x xs b

/-- The links of the head lead through the nodes and back to the head; no node is there twice. -/
structure Ring (l : Links ν) (head : ν) (xs : List ν) : Prop where
  nodup : (head :: xs).Nodup
  linked : Linked l head xs head

namespace Links

variable [DecidableEq ν]

/-- A list without a node. -/
def init (l : Links ν) (p : ν) : Links ν where
  next := Function.update l.next p p
  prev := Function.update l.prev p p

/-- A node is put before the head. -/
def addTail (l : Links ν) (item head : ν) : Links ν where
  next := Function.update (Function.update l.next item head) (l.prev head) item
  prev := Function.update (Function.update l.prev head item) item (l.prev head)

/-- A node is put before another. -/
def insertBefore (l : Links ν) (item node : ν) : Links ν where
  next := Function.update (Function.update l.next item node) (l.prev node) item
  prev := Function.update (Function.update l.prev item (l.prev node)) node item

/-- A node is unlinked, and linked to itself. -/
def del (l : Links ν) (p : ν) : Links ν where
  next := Function.update (Function.update l.next (l.prev p) (l.next p)) p p
  prev := Function.update (Function.update l.prev (l.next p) (l.prev p)) p p

variable {l : Links ν} {p q : ν}

/-- A node that was removed is linked to itself. -/
theorem del_self (l : Links ν) (p : ν) : (l.del p).next p = p ∧ (l.del p).prev p = p :=
  ⟨update_self .., update_self ..⟩

theorem del_next (hp : q ≠ p) (hprev : q ≠ l.prev p) : (l.del p).next q = l.next q :=
  (update_of_ne hp ..).trans (update_of_ne hprev ..)

theorem del_prev (hp : q ≠ p) (hnext : q ≠ l.next p) : (l.del p).prev q = l.prev q :=
  (update_of_ne hp ..).trans (update_of_ne hnext ..)

end Links

variable {l l' : Links ν} {a b x : ν} {xs ys zs : List ν}

theorem Linked.congr (h : Linked l a xs b) (hnext : ∀ u ∈ a :: xs, l'.next u = l.next u)
    (hprev : ∀ v ∈ xs ++ [b], l'.prev v = l.prev v) : Linked l' a xs b := by
  induction xs generalizing a with
  | nil => exact ⟨(hnext a (by simp)).trans h.1, (hprev b (by simp)).trans h.2⟩
  | cons x xs ih =>
    obtain ⟨hn, hp, hrest⟩ := h
    refine ⟨(hnext a (by simp)).trans hn, (hprev x (by simp)).trans hp, ih hrest ?_ ?_⟩
    · exact fun u hu => hnext u (mem_cons_of_mem a hu)
    · exact fun v hv => hprev v (mem_cons_of_mem x hv)

theorem Linked.prev_mem (h : Linked l a xs b) : l.prev b ∈ a :: xs := by
  induction xs generalizing a with
  | nil => exact mem_singleton.mpr h.2
  | cons x xs ih => exact mem_cons_of_mem a (ih h.2.2)

theorem Linked.next_mem (h : Linked l a xs b) : l.next a ∈ xs ++ [b] := by
  cases xs with
  | nil => exact mem_singleton.mpr h.1
  | cons x xs => exact h.1 ▸ mem_cons_self

theorem Linked.next_eq (h : Linked l a xs b) : l.next a = (xs.head?).getD b := by
  cases xs with
  | nil => exact h.1
  | cons x xs => exact h.1

theorem linked_append : Linked l a (ys ++ x :: zs) b ↔ Linked l a ys x ∧ Linked l x zs b := by
  induction ys generalizing a with
  | nil => simp only [nil_append, Linked, and_assoc]
  | cons y ys ih => simp only [cons_append, Linked, ih, and_assoc]

section

variable [DecidableEq ν]

/-- **A node is put at the end of a path.** -/
theorem Linked.addTail (h : Linked l a xs b) (hnodup : (a :: xs).Nodup) (hb : b ∉ xs) (hx : x ∉ a :: xs)
    (hxb : x ≠ b) : Linked (l.addTail x b) a (xs ++ [x]) b := by
  induction xs generalizing a with
  | nil =>
    have hxa : x ≠ a := fun heq => hx (heq ▸ mem_cons_self)
    have hlast : l.prev b = a := h.2
    refine ⟨?_, ?_, ?_, ?_⟩
    · rw [← hlast]
      exact update_self ..
    · rw [← hlast]
      exact update_self ..
    · exact (update_of_ne (hlast ▸ hxa) ..).trans (update_self ..)
    · exact (update_of_ne hxb.symm ..).trans (update_self ..)
  | cons y ys ih =>
    obtain ⟨hn, hp, hrest⟩ := h
    obtain ⟨ha, hnodup⟩ := nodup_cons.mp hnodup
    have hlast : a ≠ l.prev b := fun heq => ha (heq ▸ hrest.prev_mem)
    have hxa : x ≠ a := fun heq => hx (heq ▸ mem_cons_self)
    have hxy : x ≠ y := fun heq => hx (heq ▸ mem_cons_of_mem a mem_cons_self)
    have hyb : y ≠ b := fun heq => hb (heq ▸ mem_cons_self)
    refine ⟨?_, ?_, ih hrest hnodup (fun hmem => hb (mem_cons_of_mem y hmem)) fun hmem => hx (mem_cons_of_mem a hmem)⟩
    · exact ((update_of_ne hlast ..).trans (update_of_ne hxa.symm ..)).trans hn
    · exact ((update_of_ne hxy.symm ..).trans (update_of_ne hyb ..)).trans hp

/-- **A node is put at the start of a path.** -/
theorem Linked.insertFirst (h : Linked l a xs b) (hnodup : (a :: xs).Nodup) (hb : b ∉ xs) (hx : x ∉ a :: xs)
    (hxb : x ≠ b) : Linked (l.insertBefore x (l.next a)) a (x :: xs) b := by
  have hxa : x ≠ a := fun heq => hx (heq ▸ mem_cons_self)
  cases xs with
  | nil =>
    obtain ⟨hn, hp⟩ := h
    rw [hn]
    refine ⟨?_, ?_, ?_, ?_⟩
    · exact (congrArg _ hp.symm).trans (update_self ..)
    · exact ((update_of_ne hxb ..).trans (update_self ..)).trans hp
    · exact (update_of_ne (hp ▸ hxa) ..).trans (update_self ..)
    · exact update_self ..
  | cons y ys =>
    obtain ⟨hn, hp, hrest⟩ := h
    obtain ⟨ha, hnodup⟩ := nodup_cons.mp hnodup
    have hxy : x ≠ y := fun heq => hx (heq ▸ mem_cons_of_mem a mem_cons_self)
    rw [hn]
    refine ⟨?_, ?_, ?_, ?_, hrest.congr (fun u hu => ?_) fun v hv => ?_⟩
    · exact (congrArg _ hp.symm).trans (update_self ..)
    · exact ((update_of_ne hxy ..).trans (update_self ..)).trans hp
    · exact (update_of_ne (hp ▸ hxa) ..).trans (update_self ..)
    · exact update_self ..
    · have hua : u ≠ l.prev y := fun heq => ha (hp ▸ heq ▸ hu)
      have hux : u ≠ x := fun heq => hx (heq ▸ mem_cons_of_mem a hu)
      exact (update_of_ne hua ..).trans (update_of_ne hux ..)
    · have hvy : v ≠ y := by
        rintro rfl
        rcases mem_append.mp hv with hv | hv
        · exact (nodup_cons.mp hnodup).1 hv
        · exact hb (mem_singleton.mp hv ▸ mem_cons_self)
      have hvx : v ≠ x := by
        rintro rfl
        rcases mem_append.mp hv with hv | hv
        · exact hx (mem_cons_of_mem a (mem_cons_of_mem y hv))
        · exact hxb (mem_singleton.mp hv)
      exact (update_of_ne hvy ..).trans (update_of_ne hvx ..)

/-- **A node is unlinked from a path.** -/
theorem Linked.del (hys : Linked l a ys x) (hzs : Linked l x zs b) (ha : a ∉ ys ++ x :: zs)
    (hb : b ∉ ys ++ x :: zs) (hnodup : (ys ++ x :: zs).Nodup) : Linked (l.del x) a (ys ++ zs) b := by
  have hbx : b ≠ x := fun heq => hb (heq ▸ mem_append_right ys mem_cons_self)
  induction ys generalizing a with
  | nil =>
    obtain ⟨hn, hp⟩ := hys
    have hax : a ≠ x := fun heq => ha (heq ▸ mem_cons_self)
    obtain ⟨hx, hnodup⟩ := nodup_cons.mp hnodup
    have hnext : (l.del x).next a = l.next x := by
      refine (update_of_ne hax ..).trans ?_
      rw [hp]
      exact update_self ..
    cases zs with
    | nil =>
      obtain ⟨hn', hp'⟩ := hzs
      refine ⟨hnext.trans hn', (update_of_ne hbx ..).trans ?_⟩
      rw [hn', hp]
      exact update_self ..
    | cons z zs =>
      obtain ⟨hn', hp', hrest⟩ := hzs
      have hzx : z ≠ x := fun heq => hx (heq ▸ mem_cons_self)
      refine ⟨hnext.trans hn', (update_of_ne hzx ..).trans ?_, hrest.congr (fun u hu => ?_) fun v hv => ?_⟩
      · rw [hn', hp]
        exact update_self ..
      · have hux : u ≠ x := fun heq => hx (heq ▸ hu)
        exact Links.del_next hux fun heq => ha (mem_cons_of_mem x (hp ▸ heq ▸ hu))
      · have hvx : v ≠ x := by
          rintro rfl
          rcases mem_append.mp hv with hv | hv
          · exact hx (mem_cons_of_mem z hv)
          · exact hbx (mem_singleton.mp hv).symm
        have hvz : v ≠ z := by
          rintro rfl
          rcases mem_append.mp hv with hv | hv
          · exact (nodup_cons.mp hnodup).1 hv
          · exact hb (mem_singleton.mp hv ▸ mem_cons_of_mem x mem_cons_self)
        exact Links.del_prev hvx (hn' ▸ hvz)
  | cons y ys ih =>
    obtain ⟨hn, hp, hrest⟩ := hys
    rw [cons_append] at ha hb hnodup
    obtain ⟨hy, hnodup⟩ := nodup_cons.mp hnodup
    have hax : a ≠ x := fun heq =>
      ha (heq ▸ mem_cons_of_mem y (mem_append_right ys mem_cons_self))
    have hyx : y ≠ x := fun heq => hy (heq ▸ mem_append_right ys mem_cons_self)
    have hlast : a ≠ l.prev x := fun heq => by
      have hmem := hrest.prev_mem
      rw [← heq] at hmem
      exact ha (mem_append_left (x :: zs) hmem)
    have hfirst : y ≠ l.next x := fun heq => by
      have hmem := hzs.next_mem
      rw [← heq] at hmem
      rcases mem_append.mp hmem with hmem | hmem
      · exact hy (mem_append_right ys (mem_cons_of_mem x hmem))
      · exact hb (mem_singleton.mp hmem ▸ mem_cons_self)
    exact ⟨(Links.del_next hax hlast).trans hn, (Links.del_prev hyx hfirst).trans hp,
      ih hrest hy (fun hmem => hb (mem_cons_of_mem y hmem)) hnodup⟩

/-! ### Lists -/

variable {head : ν}

theorem Ring.init (l : Links ν) (head : ν) : Ring (l.init head) head [] :=
  ⟨nodup_singleton head, update_self .., update_self ..⟩

/-- A node is put at the end of a list. -/
theorem Ring.addTail (h : Ring l head xs) (hx : x ∉ head :: xs) : Ring (l.addTail x head) head (xs ++ [x]) := by
  have hb : head ∉ xs := (nodup_cons.mp h.nodup).1
  refine ⟨?_, h.linked.addTail h.nodup hb hx fun heq => hx (heq ▸ mem_cons_self)⟩
  rw [← cons_append]
  exact nodup_append.mpr ⟨h.nodup, nodup_singleton x, fun u hu v hv heq =>
    hx (mem_singleton.mp hv ▸ heq ▸ hu)⟩

/-- A node is put at the start of a list. -/
theorem Ring.insertFirst (h : Ring l head xs) (hx : x ∉ head :: xs) :
    Ring (l.insertBefore x (l.next head)) head (x :: xs) := by
  obtain ⟨hb, hnodup⟩ := nodup_cons.mp h.nodup
  have hxh : x ≠ head := fun heq => hx (heq ▸ mem_cons_self)
  refine ⟨nodup_cons.mpr ⟨fun hmem => ?_, nodup_cons.mpr ⟨fun hmem => ?_, hnodup⟩⟩,
    h.linked.insertFirst h.nodup hb hx hxh⟩
  · rcases mem_cons.mp hmem with heq | hmem
    · exact hxh heq.symm
    · exact hb hmem
  · exact hx (mem_cons_of_mem head hmem)

/-- A node is unlinked from a list. -/
theorem Ring.del (h : Ring l head (ys ++ x :: zs)) : Ring (l.del x) head (ys ++ zs) := by
  obtain ⟨hb, hnodup⟩ := nodup_cons.mp h.nodup
  obtain ⟨hys, hzs⟩ := linked_append.mp h.linked
  have hsub : (ys ++ zs).Sublist (ys ++ x :: zs) := (sublist_cons_self x zs).append_left ys
  exact ⟨nodup_cons.mpr ⟨fun hmem => hb (hsub.subset hmem), hnodup.sublist hsub⟩, hys.del hzs hb hb hnodup⟩

end

end CircularList
