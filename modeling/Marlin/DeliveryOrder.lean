import Mathlib.Data.List.Sort

/-!
# Delivery in Order

Numbered items are marked, queued, come back in any order and are to be delivered in order. An item
that comes back too early is held back. `InOrder` says where every item is and what was delivered.

## Main results

* `InOrder.mark`, `InOrder.queue`, `InOrder.arrive`, `InOrder.hold`, `InOrder.deliver`,
  `InOrder.take`: the events.
* `InOrder.complete`: what came back was delivered where nothing is queued and nothing is held back.
-/

namespace DeliveryOrder

open List

variable {ν : Type*} [LinearOrder ν]

/-- The items that are looked at, held back, queued and marked have different numbers, those held
back are in order, what was delivered is in order and before all of these, and what came back was
delivered or is here. -/
structure InOrder (current held queued marked sent arrived : List ν) : Prop where
  distinct : (current ++ held ++ queued ++ marked).Nodup
  sorted : held.Pairwise (· < ·)
  increasing : sent.Pairwise (· < ·)
  below : ∀ m ∈ sent, ∀ n ∈ current ++ held ++ queued ++ marked, m < n
  arrived : (sent ++ (current ++ held)).Perm arrived

variable {current held queued marked sent arrived : List ν} {n : ν}

theorem pairwise_orderedInsert (h : held.Pairwise (· < ·)) (hn : n ∉ held) :
    (held.orderedInsert (· < ·) n).Pairwise (· < ·) := by
  induction held with
  | nil => exact pairwise_singleton _ _
  | cons m held ih =>
    obtain ⟨hhead, htail⟩ := pairwise_cons.mp h
    rw [orderedInsert_cons]
    split
    · rename_i hlt
      refine pairwise_cons.mpr ⟨fun k hk => ?_, h⟩
      rcases mem_cons.mp hk with rfl | hk
      · exact hlt
      · exact lt_trans hlt (hhead k hk)
    · rename_i hnot
      have hne : n ≠ m := fun heq => hn (heq ▸ mem_cons_self)
      have hlt : m < n := lt_of_le_of_ne (not_lt.mp hnot) hne.symm
      refine pairwise_cons.mpr ⟨fun k hk => ?_, ih htail fun hmem => hn (mem_cons_of_mem _ hmem)⟩
      rcases mem_cons.mp ((perm_orderedInsert _ n held).mem_iff.mp hk) with rfl | hk
      · exact hlt
      · exact hhead k hk

theorem InOrder.perm (h : InOrder current held queued marked sent arrived)
    {current' held' queued' marked' arrived' : List ν}
    (hitems : (current' ++ held' ++ queued' ++ marked').Perm (current ++ held ++ queued ++ marked))
    (hsorted : held'.Pairwise (· < ·))
    (harrived : (sent ++ (current' ++ held')).Perm arrived') :
    InOrder current' held' queued' marked' sent arrived' where
  distinct := hitems.nodup_iff.mpr h.distinct
  sorted := hsorted
  increasing := h.increasing
  below := fun m hm k hk => h.below m hm k (hitems.mem_iff.mp hk)
  arrived := harrived

/-- A new item, with the highest number. -/
theorem InOrder.mark (h : InOrder current held queued [] sent arrived)
    (hitems : ∀ k ∈ current ++ held ++ queued, k < n) (hsent : ∀ k ∈ sent, k < n) :
    InOrder current held queued [n] sent arrived where
  distinct := by
    have hdistinct := h.distinct
    rw [append_nil] at hdistinct
    exact nodup_append.mpr ⟨hdistinct, nodup_singleton n, fun a ha b hb heq =>
      lt_irrefl n (by
        obtain rfl := mem_singleton.mp hb
        exact heq ▸ hitems a ha)⟩
  sorted := h.sorted
  increasing := h.increasing
  below := by
    intro m hm k hk
    rcases mem_append.mp hk with hk | hk
    · exact h.below m hm k (by rwa [append_nil])
    · obtain rfl := mem_singleton.mp hk
      exact hsent m hm
  arrived := h.arrived

theorem InOrder.unmark (h : InOrder current held queued [n] sent arrived) :
    InOrder current held queued [] sent arrived where
  distinct := by
    rw [append_nil]
    exact (nodup_append.mp h.distinct).1
  sorted := h.sorted
  increasing := h.increasing
  below := fun m hm k hk => h.below m hm k (mem_append_left _ (by rwa [append_nil] at hk))
  arrived := h.arrived

/-- The marked item is queued. -/
theorem InOrder.queue (h : InOrder current held queued [n] sent arrived) :
    InOrder current held (queued ++ [n]) [] sent arrived :=
  h.perm (by simp) h.sorted h.arrived

/-- A queued item comes back. -/
theorem InOrder.arrive (h : InOrder [] held queued marked sent arrived) {rest : List ν}
    (hn : queued.Perm (n :: rest)) : InOrder [n] held rest marked sent (arrived ++ [n]) := by
  refine h.perm ?_ h.sorted ?_
  · have hsplit : (n :: (held ++ rest)).Perm (held ++ queued) :=
      perm_middle.symm.trans (List.Perm.append_left held hn.symm)
    exact List.Perm.append_right marked hsplit
  · have harrived := h.arrived
    rw [nil_append] at harrived
    refine List.Perm.trans ?_ (List.Perm.append_right [n] harrived)
    rw [append_assoc]
    exact List.Perm.append_left sent perm_append_comm

/-- The item is held back. -/
theorem InOrder.hold (h : InOrder [n] held queued marked sent arrived) :
    InOrder [] (held.orderedInsert (· < ·) n) queued marked sent arrived := by
  have hinsert := perm_orderedInsert (· < ·) n held
  have hnot : n ∉ held := by
    have hdistinct := h.distinct
    rw [singleton_append, cons_append, cons_append, nodup_cons] at hdistinct
    exact fun hmem => hdistinct.1 (mem_append_left _ (mem_append_left _ hmem))
  refine h.perm ?_ (pairwise_orderedInsert h.sorted hnot) ?_
  · exact List.Perm.append_right _ (List.Perm.append_right _ hinsert)
  · exact (List.Perm.append_left sent hinsert).trans h.arrived

/-- The lowest item is delivered. -/
theorem InOrder.deliver (h : InOrder [n] held queued marked sent arrived)
    (hlowest : ∀ k ∈ held ++ queued ++ marked, n ≤ k) :
    InOrder [] held queued marked (sent ++ [n]) arrived where
  distinct := by
    have hdistinct := h.distinct
    rw [singleton_append, cons_append, cons_append, nodup_cons] at hdistinct
    exact hdistinct.2
  sorted := h.sorted
  increasing := by
    refine pairwise_append.mpr ⟨h.increasing, pairwise_singleton _ _, fun m hm k hk => ?_⟩
    obtain rfl := mem_singleton.mp hk
    exact h.below m hm k (by simp)
  below := by
    intro m hm k hk
    rcases mem_append.mp hm with hm | hm
    · exact h.below m hm k (mem_cons_of_mem n hk)
    · obtain rfl := mem_singleton.mp hm
      have hdistinct := h.distinct
      rw [singleton_append, cons_append, cons_append, nodup_cons] at hdistinct
      exact lt_of_le_of_ne (hlowest k hk) fun heq => hdistinct.1 (heq ▸ hk)
  arrived := by
    rw [append_assoc]
    exact h.arrived

/-- The first item that is held back is taken. -/
theorem InOrder.take (h : InOrder [] (n :: held) queued marked sent arrived) :
    InOrder [n] held queued marked sent arrived :=
  h.perm (List.Perm.refl _) (pairwise_cons.mp h.sorted).2 h.arrived

/-- **Everything that came back was delivered** where nothing is looked at or held back. -/
theorem InOrder.complete (h : InOrder [] [] queued marked sent arrived) : sent.Perm arrived := by
  have harrived := h.arrived
  rwa [append_nil, append_nil] at harrived

end DeliveryOrder
