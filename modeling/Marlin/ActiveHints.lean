import Mathlib.Data.List.Nodup
import Mathlib.Data.List.Perm.Basic
import Marlin.Transition

/-!
# The Active Hints of the Power HAL

`perform_hint_action` acquires a lock without an end from the performance library and keeps its handle under the id of
the hint in a linked list; `undo_hint_action` releases the lock and removes the node. The list head has no comparison
until the first hint is kept, and each node gets a copy of the head's.

## Conventions

* The list is the nodes behind its head. An address stands for a pointer; `malloc` returns none that is in use.
* What the library answers and whether an allocation succeeds is taken from the environment. A release succeeds.
* `acquired` are the locks that the library gave, with the id of the hint, and `released` those that were given back,
  the last one first. The code has neither.

## Main results

* `Inv.performHintAction`, `Inv.undoHintAction`: what the two calls do.
* `tracked_run`: no id is in the list twice, and the locks that are held are those of the nodes.
-/

namespace Marlin

open List Transition

/-- What the library and its symbols are. -/
structure QcoptLib where
  qcoptHandle : Bool := true
  perfLockAcq : Bool := true
  perfLockRel : Bool := true

structure HintData where
  hintId : ℤ
  perflockHandle : ℤ := 0

/-- A node of the list; `compare` is set if it has a comparison. -/
structure HintNode where
  addr : ℕ
  data : HintData
  compare : Bool

def HintNode.hintId (n : HintNode) : ℤ := n.data.hintId

def HintNode.handle (n : HintNode) : ℤ := n.data.perflockHandle

/-- `hint_compare`, for two pointers that are not NULL. -/
def hintCompare (firstHint otherHint : HintData) : ℤ := if firstHint.hintId = otherHint.hintId then 0 else 1

/-- The list of the active hints. -/
structure ActiveHints where
  headCompare : Bool := false
  nodes : List HintNode := []
  acquired : List (ℤ × ℤ) := []
  released : List ℤ := []

/-- The calls, with what the environment answers. -/
inductive HintCall
  | perform (hintId lockHandle : ℤ) (newHint : Bool) (newNode : Option ℕ)
  | undo (hintId : ℤ)

namespace ActiveHints

def findNode (s : ActiveHints) (comparisonData : HintData) : Option HintNode :=
  s.nodes.find? fun n => n.compare && hintCompare n.data comparisonData == 0

/-- `remove_list_node` walks to the node by its pointer. -/
def removeListNode (s : ActiveHints) (delNode : ℕ) : ActiveHints :=
  { s with nodes := s.nodes.eraseP (·.addr = delNode) }

def perfLockRel (lib : QcoptLib) (s : ActiveHints) (handle : ℤ) : ActiveHints :=
  if lib.perfLockRel then { s with released := handle :: s.released } else s

/-- `add_list_node`, if the node is allocated. -/
def addListNode (s : ActiveHints) (data : HintData) (newNode : ℕ) : ActiveHints :=
  { s with nodes := ⟨newNode, data, s.headCompare⟩ :: s.nodes }

def performHintAction (lib : QcoptLib) (s : ActiveHints) (hintId lockHandle : ℤ) (newHint : Bool)
    (newNode : Option ℕ) : ActiveHints :=
  if lib.qcoptHandle then
    match s.findNode { hintId := hintId } with
    | some _ => s
    | none =>
      if lib.perfLockAcq then
        if lockHandle = -1 then s
        else
          let s := { s with acquired := (hintId, lockHandle) :: s.acquired }
          if newHint then
            let s := { s with headCompare := true }
            match newNode with
            | some addr => s.addListNode ⟨hintId, lockHandle⟩ addr
            | none => s.perfLockRel lib lockHandle
          else s.perfLockRel lib lockHandle
      else s
  else s

def undoHintAction (lib : QcoptLib) (s : ActiveHints) (hintId : ℤ) : ActiveHints :=
  if lib.qcoptHandle && lib.perfLockRel then
    match s.findNode { hintId := hintId } with
    | some foundNode => (s.perfLockRel lib foundNode.handle).removeListNode foundNode.addr
    | none => s
  else s

/-- One call. -/
def next (lib : QcoptLib) (s : ActiveHints) : HintCall → Option ActiveHints
  | .perform hintId lockHandle newHint newNode =>
    if ∀ addr ∈ newNode, addr ∉ s.nodes.map (·.addr) then
      some (s.performHintAction lib hintId lockHandle newHint newNode)
    else none
  | .undo hintId => some (s.undoHintAction lib hintId)

/-- The lock that was acquired by the last call for the id that acquired one. -/
def lastAcquired (s : ActiveHints) (hintId : ℤ) : Option ℤ := (s.acquired.find? (·.1 = hintId)).map (·.2)

/-- The list is in order: no id twice, and the locks that are held are those of the nodes. -/
structure Tracked (s : ActiveHints) : Prop where
  ids : (s.nodes.map (·.hintId)).Nodup
  locks : (s.acquired.map (·.2)).Perm (s.released ++ s.nodes.map (·.handle))

/-- An undo releases the lock that was acquired last for the id, and removes only its node. -/
def Undoes (s t : ActiveHints) (hintId : ℤ) : Prop :=
  if hintId ∈ s.nodes.map (·.hintId) then
    ∃ handle, s.lastAcquired hintId = some handle ∧
      t = { s with nodes := s.nodes.filter (·.hintId ≠ hintId), released := handle :: s.released }
  else t = s

/-- What holds between the calls. -/
structure Inv (s : ActiveHints) : Prop extends Tracked s where
  compare : ∀ n ∈ s.nodes, n.compare = true
  addrs : (s.nodes.map (·.addr)).Nodup
  last : ∀ n ∈ s.nodes, s.lastAcquired n.hintId = some n.handle

variable {lib : QcoptLib} {s t : ActiveHints} {hintId lockHandle : ℤ} {n : HintNode}

theorem key_ne {κ : Type*} {f : HintNode → κ} {as bs : List HintNode} (h : ((as ++ n :: bs).map f).Nodup) :
    (∀ m ∈ as, f m ≠ f n) ∧ ∀ m ∈ bs, f m ≠ f n := by
  rw [map_append, map_cons, nodup_middle, nodup_cons, mem_append] at h
  refine ⟨fun m hm heq => h.1 (.inl ?_), fun m hm heq => h.1 (.inr ?_)⟩ <;> exact heq ▸ mem_map_of_mem hm

theorem Inv.findNode_eq (h : s.Inv) (hintId : ℤ) :
    s.findNode { hintId := hintId } = s.nodes.find? (·.hintId = hintId) := by
  rw [findNode, ← head?_filter, ← head?_filter]
  refine congrArg head? (filter_congr fun n hn => ?_)
  rw [h.compare n hn, Bool.true_and, hintCompare, HintNode.hintId]
  split_ifs with heq <;> simp [heq]

theorem Inv.findNode_none (h : s.Inv) : s.findNode { hintId := hintId } = none ↔ hintId ∉ s.nodes.map (·.hintId) := by
  simp [h.findNode_eq]

theorem Inv.findNode_some (h : s.Inv) (hn : s.findNode { hintId := hintId } = some n) :
    n.hintId = hintId ∧ ∃ as bs, s.nodes = as ++ n :: bs ∧ s.nodes.eraseP (·.addr = n.addr) = as ++ bs ∧
      s.nodes.filter (·.hintId ≠ hintId) = as ++ bs := by
  rw [h.findNode_eq] at hn
  obtain rfl : n.hintId = hintId := by simpa using find?_some hn
  obtain ⟨as, bs, heq⟩ := append_of_mem (mem_of_find?_eq_some hn)
  have haddrs := h.addrs
  have hids := h.ids
  rw [heq] at haddrs hids
  refine ⟨rfl, as, bs, heq, ?_, ?_⟩
  · rw [heq, eraseP_append_right _ fun m hm => by simpa using (key_ne haddrs).1 m hm,
      eraseP_cons_of_pos (by simp)]
  · rw [heq, filter_append, filter_cons_of_neg (by simp),
      filter_eq_self.mpr fun m hm => by simpa using (key_ne hids).1 m hm,
      filter_eq_self.mpr fun m hm => by simpa using (key_ne hids).2 m hm]

/-- **An undo** releases the lock of its node, and removes it. -/
theorem Inv.undoHintAction (h : s.Inv) (hlib : lib = {}) (hintId : ℤ) :
    s.Undoes (s.undoHintAction lib hintId) hintId := by
  subst hlib
  rw [Undoes, ActiveHints.undoHintAction]
  simp only [Bool.and_self, if_true]
  split_ifs with hmem
  · obtain ⟨n, hn⟩ := Option.ne_none_iff_exists'.mp fun hnone => h.findNode_none.mp hnone hmem
    obtain ⟨rfl, as, bs, heq, herase, hfilter⟩ := h.findNode_some hn
    refine ⟨n.handle, h.last n (heq ▸ mem_append_right as mem_cons_self), ?_⟩
    rw [hn, hfilter, ← herase]
    rfl
  · rw [h.findNode_none.mpr hmem]

/-- An undo keeps the invariant. -/
theorem Inv.undo (h : s.Inv) (hlib : lib = {}) (hintId : ℤ) : (s.undoHintAction lib hintId).Inv := by
  have hundo := h.undoHintAction hlib hintId
  rw [Undoes] at hundo
  split_ifs at hundo with hmem
  · obtain ⟨handle, hlast, heq⟩ := hundo
    obtain ⟨n, hn⟩ := Option.ne_none_iff_exists'.mp fun hnone => h.findNode_none.mp hnone hmem
    obtain ⟨rfl, as, bs, hnodes, -, hfilter⟩ := h.findNode_some hn
    have hsub : (s.nodes.filter (·.hintId ≠ n.hintId)).Sublist s.nodes := filter_sublist
    obtain rfl : n.handle = handle :=
      Option.some.inj ((h.last n (hnodes ▸ mem_append_right as mem_cons_self)).symm.trans hlast)
    rw [heq]
    refine ⟨⟨h.ids.sublist (hsub.map _), ?_⟩, fun m hm => h.compare m (hsub.subset hm),
      h.addrs.sublist (hsub.map _), fun m hm => h.last m (hsub.subset hm)⟩
    refine h.locks.trans ?_
    dsimp only
    rw [hfilter, hnodes, map_append, map_cons, map_append, cons_append]
    exact (perm_middle.append_left s.released).trans perm_middle
  · rwa [hundo]

/-- **A hint is kept**, or its lock is released. -/
theorem Inv.performHintAction (h : s.Inv) (hlib : lib = {}) {newHint : Bool} {newNode : Option ℕ}
    (hfresh : ∀ addr ∈ newNode, addr ∉ s.nodes.map (·.addr)) :
    (s.performHintAction lib hintId lockHandle newHint newNode).Inv := by
  subst hlib
  rw [ActiveHints.performHintAction]
  simp only [if_true]
  split
  · exact h
  rename_i hnone
  split
  · exact h
  have hnot := h.findNode_none.mp hnone
  have hlast : ∀ m ∈ s.nodes,
      (((hintId, lockHandle) :: s.acquired).find? (·.1 = m.hintId)).map (·.2) = some m.handle := fun m hm => by
    have hne : hintId ≠ m.hintId := fun heq => hnot (heq ▸ mem_map_of_mem hm)
    rw [find?_cons_of_neg (by simpa using hne)]
    exact h.last m hm
  have hreleased : ∀ headCompare, Inv { s with
      headCompare := headCompare
      acquired := (hintId, lockHandle) :: s.acquired
      released := lockHandle :: s.released } := fun _ =>
    ⟨⟨h.ids, h.locks.cons lockHandle⟩, h.compare, h.addrs, hlast⟩
  cases newHint with
  | false => exact hreleased _
  | true =>
    cases newNode with
    | none => exact hreleased _
    | some addr =>
      refine ⟨⟨nodup_cons.mpr ⟨hnot, h.ids⟩, (h.locks.cons lockHandle).trans perm_middle.symm⟩,
        forall_mem_cons.mpr ⟨rfl, h.compare⟩, nodup_cons.mpr ⟨hfresh addr rfl, h.addrs⟩,
        forall_mem_cons.mpr ⟨by simp [lastAcquired, addListNode, HintNode.hintId, HintNode.handle], hlast⟩⟩

/-- **In every run** with the library present: the list is in order, and an undo in its state is too. -/
theorem tracked_run (hlib : lib = {}) {calls : List HintCall} (hrun : Run (fires (next lib)) {} calls t) :
    t.Tracked ∧ ∀ hintId, t.Undoes (t.undoHintAction lib hintId) hintId := by
  have hempty : Inv {} := ⟨⟨nodup_nil, .refl _⟩, forall_mem_nil _, nodup_nil, forall_mem_nil _⟩
  have hinv : t.Inv := by
    refine hrun.invariant (I := Inv) (fun s call t hs ht => ?_) hempty
    cases call with
    | perform =>
      rw [fires, next] at ht
      split at ht <;> cases ht
      exact hs.performHintAction hlib ‹_›
    | undo hintId => cases ht; exact hs.undo hlib hintId
  exact ⟨hinv.toTracked, hinv.undoHintAction hlib⟩

/-- Two hints are active, and one is not kept. -/
theorem tracked_two_hints : ∃ t, Run (fires (next {})) {}
    [.perform 1 7 true (some 0), .perform 2 8 true none, .perform 3 9 true (some 1), .undo 1] t ∧
      t.released = [7, 8] ∧ t.Tracked ∧ ∀ hintId, t.Undoes (t.undoHintAction {} hintId) hintId :=
  (exists_run_fires (P := fun t => t.released = [7, 8]) (by decide +kernel)).imp
    fun _ h => ⟨h.1, h.2, tracked_run rfl h.1⟩

end ActiveHints

end Marlin
