import Marlin.CaptureRuns
import Marlin.MetadataParts

/-!
# The Nodes of the Pending Requests

`mPendingRequestsList` is a linked list, and the loop of `handleMetadataWithLock` goes over it with an
iterator. `erasePendingRequest` frees the node of the iterator and returns the next one, which the loop
goes on with. In between, `handlePendingReprocResults` may erase another node, found by its frame
number. This module has the list with the identities of its nodes.

## Conventions

* An iterator is the identity of a node, or none at the end of the list. It is read where the node is
  still in the list.
* The loop gets fuel, for which the number of the nodes is enough.

## Main results

* `requestLoop_free`: the loop where no other node can be erased, and what it does to the HAL.
* `handleRequests_exit`: the loop reads an erased node if and only if it dangles.
* `loop_valid_iff`: the same for every reachable state and every metadata.
-/

open List Option Ledger Outcome Transition

namespace Marlin

/-- A node of `mPendingRequestsList`. -/
structure PendingNode where
  id : ℕ
  info : PendingRequestInfo
  deriving DecidableEq

/-- The HAL with the nodes of its pending requests. -/
structure NodeHal where
  nodes : List PendingNode
  hal : HardwareInterface

/-- The end of the loop: at the end of the list or at a later request, or where it reads a node that
is not in the list. -/
inductive LoopExit
  | done (s : NodeHal)
  | erasedRead

namespace NodeHal

open HardwareInterface

/-! ### The list -/

/-- The node that an iterator is at. -/
def nodeAt (l : List PendingNode) (it : ℕ) : Option PendingNode := l.find? fun k => k.id == it

/-- The iterator after the one at a node: what `++` leads to, and what `List::erase` returns. -/
def nextOf (l : List PendingNode) (it : ℕ) : Option ℕ :=
  ((l.dropWhile fun k => k.id != it).drop 1).head?.map PendingNode.id

/-- `List::erase`. -/
def eraseNode (l : List PendingNode) (it : ℕ) : List PendingNode := l.eraseP fun k => k.id == it

/-- The node that `handlePendingReprocResults` erases: that of the request of the frame, if a result of
the frame waits. -/
def eraseReproc (results : List PendingReprocessResult) (frameNumber : ℕ) (l : List PendingNode) : List PendingNode :=
  if results.any (fun j => j.frameNumber == frameNumber) then
    l.eraseP fun k => k.info.frameNumber == frameNumber
  else l

/-- A turn of the loop at a node. The partial results of one that stays are counted. -/
def turn (s : NodeHal) (m : MetadataInfo) (n : ℕ) (k : PendingNode) : NodeHal where
  hal := s.hal.metadataEntry m n k.info
  nodes :=
    if Stays n k.info then
      s.nodes.map fun j => if j.id = k.id then { j with info := counted k.info } else j
    else eraseReproc s.hal.mPendingReprocessResultList (n + 1) (eraseNode s.nodes k.id)

/-- The loop over the requests up to the frame number, from an iterator on. -/
def requestLoop (m : MetadataInfo) (n : ℕ) : ℕ → Option ℕ → NodeHal → Option LoopExit
  | 0, _, _ => none
  | _ + 1, none, s => some (.done s)
  | fuel + 1, some it, s =>
    match nodeAt s.nodes it with
    | none => some .erasedRead
    | some k =>
      if n < k.info.frameNumber then some (.done s)
      else requestLoop m n fuel (nextOf s.nodes it) (s.turn m n k)

/-- The loop, from `begin` on. -/
def handleRequests (s : NodeHal) (m : MetadataInfo) (n : ℕ) : Option LoopExit :=
  requestLoop m n (s.nodes.length + 1) (s.nodes.head?.map PendingNode.id) s

/-- The iterator is left at an erased node: after older reprocess requests, which stay, the first
request that leaves is the last one up to the frame number, and the next one, of the next frame, is
erased with a reprocess result that waits. -/
def Dangles (n : ℕ) (results : List PendingReprocessResult) : List PendingRequestInfo → Prop
  | [] => False
  | i :: l => i.frameNumber ≤ n ∧
      if Stays n i then Dangles n results l
      else (∃ j ∈ results, j.frameNumber = n + 1) ∧ ∃ k ∈ l.head?, k.frameNumber = n + 1

instance (n : ℕ) (results : List PendingReprocessResult) :
    (l : List PendingRequestInfo) → Decidable (Dangles n results l)
  | [] => inferInstanceAs (Decidable False)
  | i :: l =>
    have := instDecidableDangles n results l
    inferInstanceAs (Decidable (_ ∧ if Stays n i then _ else _))

/-! ### One turn -/

/-- The nodes are those of the pending requests, in the order of their frames. -/
structure Sound (s : NodeHal) : Prop where
  agree : s.nodes.map PendingNode.info = s.hal.mPendingRequestsList
  ids : (s.nodes.map PendingNode.id).Nodup
  sorted : s.nodes.Pairwise fun i k => i.info.frameNumber < k.info.frameNumber

variable {s : NodeHal} {m : MetadataInfo} {n : ℕ} {l l' : List PendingNode} {k : PendingNode}

variable {j : PendingNode}

theorem id_ne (hids : ((l ++ k :: l').map PendingNode.id).Nodup) (hj : j ∈ l) : j.id ≠ k.id := by
  rw [map_append, map_cons] at hids
  exact (nodup_append.mp hids).2.2 _ (mem_map.mpr ⟨j, hj, rfl⟩) _ mem_cons_self

theorem nodeAt_append (hids : ((l ++ k :: l').map PendingNode.id).Nodup) : nodeAt (l ++ k :: l') k.id = some k := by
  have hnone : l.find? (fun j => j.id == k.id) = none :=
    find?_eq_none.mpr fun j hj => by simpa using id_ne hids hj
  rw [nodeAt, find?_append, hnone, none_or]
  exact find?_cons_of_pos (by simp)

theorem nextOf_append (hids : ((l ++ k :: l').map PendingNode.id).Nodup) :
    nextOf (l ++ k :: l') k.id = l'.head?.map PendingNode.id := by
  have hdrop : (l ++ k :: l').dropWhile (fun j => j.id != k.id) = k :: l' := by
    rw [dropWhile_append_of_pos fun j hj => by simpa using id_ne hids hj]
    exact dropWhile_cons_of_neg (by simp)
  rw [nextOf, hdrop]
  rfl

theorem eraseNode_append (hids : ((l ++ k :: l').map PendingNode.id).Nodup) :
    eraseNode (l ++ k :: l') k.id = l ++ l' := by
  rw [eraseNode, eraseP_append_right _ fun j hj => by simpa using id_ne hids hj]
  exact congrArg (l ++ ·) (eraseP_cons_of_pos (by simp))

theorem Sound.frames (hs : s.Sound) (hnodes : s.nodes = l ++ k :: l') :
    (∀ j ∈ l, j.info.frameNumber < k.info.frameNumber) ∧ ∀ j ∈ l', k.info.frameNumber < j.info.frameNumber := by
  have hsorted := hs.sorted
  rw [hnodes] at hsorted
  obtain ⟨-, hlater, hearlier⟩ := pairwise_append.mp hsorted
  exact ⟨fun j hj => hearlier j hj k mem_cons_self, (pairwise_cons.mp hlater).1⟩

theorem requests_handlePendingReprocResults (s : HardwareInterface) (frameNumber : ℕ) :
    (s.handlePendingReprocResults frameNumber).mPendingRequestsList =
      if s.mPendingReprocessResultList.any (fun j => j.frameNumber == frameNumber) then
        s.mPendingRequestsList.eraseP fun k => k.frameNumber == frameNumber
      else s.mPendingRequestsList := by
  rw [handlePendingReprocResults]
  cases hfind : s.mPendingReprocessResultList.find? (fun j => j.frameNumber == frameNumber) with
  | none =>
    have hnone : ¬ s.mPendingReprocessResultList.any (fun j => j.frameNumber == frameNumber) = true :=
      fun hany => by
        obtain ⟨j, hj, hframe⟩ := any_eq_true.mp hany
        exact find?_eq_none.mp hfind j hj hframe
    rw [if_neg hnone]
  | some j =>
    have hj : j.frameNumber = frameNumber := by simpa using find?_some hfind
    have hany : s.mPendingReprocessResultList.any (fun j => j.frameNumber == frameNumber) = true :=
      any_eq_true.mpr ⟨j, mem_of_find?_eq_some hfind, by simpa using hj⟩
    rw [if_pos hany]
    dsimp only
    rw [hj]
    cases hk : (s.send (.shutter frameNumber)).mPendingRequestsList.find? (fun k => k.frameNumber == frameNumber) with
    | none =>
      refine (eraseP_of_forall_not fun k hk' => ?_).symm
      exact find?_eq_none.mp hk k hk'
    | some k =>
      have hframe : k.frameNumber = frameNumber := by simpa using find?_some hk
      change s.mPendingRequestsList.eraseP (fun i => i.frameNumber == k.frameNumber) = _
      rw [hframe]

theorem Sound.turn_stays (hs : s.Sound) (hnodes : s.nodes = l ++ k :: l') (hstays : Stays n k.info) :
    (s.turn m n k).nodes = l ++ { k with info := counted k.info } :: l' ∧ (s.turn m n k).Sound := by
  have hids := hs.ids
  rw [hnodes] at hids
  obtain ⟨hearlier, hlater⟩ := hs.frames hnodes
  have hnot (j : PendingNode) (hj : j ∈ l ++ l') : j.id ≠ k.id ∧ j.info.frameNumber ≠ k.info.frameNumber := by
    rcases mem_append.mp hj with hj | hj
    · exact ⟨id_ne hids hj, Nat.ne_of_lt (hearlier j hj)⟩
    · refine ⟨fun heq => ?_, Nat.ne_of_gt (hlater j hj)⟩
      rw [map_append, map_cons] at hids
      have hcons := (nodup_append.mp hids).2.1
      exact (nodup_cons.mp hcons).1 (heq ▸ mem_map.mpr ⟨j, hj, rfl⟩)
  have hturn : (s.turn m n k).nodes = l ++ { k with info := counted k.info } :: l' := by
    have hsame {l₀ : List PendingNode} (hl₀ : ∀ j ∈ l₀, j ∈ l ++ l') :
        l₀.map (fun j => if j.id = k.id then { j with info := counted k.info } else j) = l₀ := by
      refine (map_congr_left fun j hj => ?_).trans (map_id l₀)
      rw [if_neg (hnot j (hl₀ j hj)).1]
      rfl
    rw [turn, if_pos hstays, hnodes, map_append, map_cons, if_pos rfl,
      hsame fun j hj => mem_append_left _ hj, hsame fun j hj => mem_append_right _ hj]
  refine ⟨hturn, ?_, ?_, ?_⟩
  · have hhal : (s.turn m n k).hal.mPendingRequestsList = s.hal.mPendingRequestsList.map
        fun i => if i.frameNumber = k.info.frameNumber then counted k.info else i := by
      change (s.hal.metadataEntry m n k.info).mPendingRequestsList = _
      rw [metadataEntry_eq, if_pos hstays]
      rfl
    have hsame {l₀ : List PendingNode} (hl₀ : ∀ j ∈ l₀, j ∈ l ++ l') :
        (l₀.map PendingNode.info).map (fun i => if i.frameNumber = k.info.frameNumber then
          counted k.info else i) = l₀.map PendingNode.info := by
      rw [List.map_map]
      refine map_congr_left fun j hj => ?_
      rw [Function.comp_apply, if_neg (hnot j (hl₀ j hj)).2]
    rw [hhal, hturn, ← hs.agree, hnodes, map_append, map_cons, map_append, map_append, map_cons, map_cons, if_pos rfl,
      hsame fun j hj => mem_append_left _ hj, hsame fun j hj => mem_append_right _ hj]
  · rw [hturn, map_append, map_cons]
    rw [map_append, map_cons] at hids
    exact hids
  · have hsorted := hs.sorted
    rw [hturn]
    rw [hnodes] at hsorted
    have hmap (p : PendingNode → ℕ) (q : List PendingNode) :
        q.Pairwise (fun i k => p i < p k) ↔ (q.map p).Pairwise (· < ·) := pairwise_map.symm
    have hframes := (hmap (fun j => j.info.frameNumber) _).mp hsorted
    refine (hmap (fun j => j.info.frameNumber) _).mpr ?_
    rw [map_append, map_cons] at hframes ⊢
    exact hframes

theorem Sound.turn_leaves (hs : s.Sound) (hnodes : s.nodes = l ++ k :: l') (hleaves : ¬ Stays n k.info) :
    (s.turn m n k).nodes = eraseReproc s.hal.mPendingReprocessResultList (n + 1) (l ++ l') ∧ (s.turn m n k).Sound := by
  have hids := hs.ids
  rw [hnodes] at hids
  have hturn : (s.turn m n k).nodes = eraseReproc s.hal.mPendingReprocessResultList (n + 1) (l ++ l') := by
    rw [turn, if_neg hleaves, hnodes, eraseNode_append hids]
  have hsub : (s.turn m n k).nodes.Sublist s.nodes := by
    have herase (results : List PendingReprocessResult) (q : List PendingNode) :
        (eraseReproc results (n + 1) q).Sublist q := by
      rw [eraseReproc]
      split
      · exact eraseP_sublist
      · exact List.Sublist.refl _
    rw [hturn, hnodes]
    exact (herase _ _).trans ((List.Sublist.refl l).append (sublist_cons_self k l'))
  refine ⟨hturn, ?_, hs.ids.sublist (hsub.map _), hs.sorted.sublist hsub⟩
  have hearlier := (hs.frames hnodes).1
  have hlists := answered_lists s.hal m n k.info
  have hreq : (s.hal.answered m n k.info).mPendingRequestsList = (l ++ l').map PendingNode.info := by
    rw [hlists.1, ← hs.agree, hnodes, map_append, map_append, map_cons, eraseP_append_right]
    · exact congrArg (_ ++ ·) (eraseP_cons_of_pos (by simp))
    · intro i hi
      obtain ⟨j, hj, rfl⟩ := mem_map.mp hi
      simpa using Nat.ne_of_lt (hearlier j hj)
  have hhal : (s.turn m n k).hal = (s.hal.answered m n k.info).handlePendingReprocResults (n + 1) := by
    change s.hal.metadataEntry m n k.info = _
    rw [metadataEntry_eq, if_neg hleaves]
  rw [hturn, hhal, requests_handlePendingReprocResults, hlists.2, hreq, eraseReproc]
  split
  · rw [eraseP_map]
    rfl
  · rfl

/-! ### The loop -/

/-- No node can be erased with a reprocess result. -/
def Free (n : ℕ) (s : NodeHal) : Prop :=
  (∃ j ∈ s.hal.mPendingReprocessResultList, j.frameNumber = n + 1) → ∀ k ∈ s.nodes, k.info.frameNumber ≠ n + 1

theorem eraseReproc_free {results : List PendingReprocessResult} {frameNumber : ℕ}
    (h : (∃ j ∈ results, j.frameNumber = frameNumber) →
      ∀ k ∈ l, k.info.frameNumber ≠ frameNumber) : eraseReproc results frameNumber l = l := by
  rw [eraseReproc]
  split
  · rename_i hany
    obtain ⟨j, hj, hframe⟩ := any_eq_true.mp hany
    refine eraseP_of_forall_not fun k hk => ?_
    simpa using h ⟨j, hj, by simpa using hframe⟩ k hk
  · rfl

theorem Sound.frames_turn (hs : s.Sound) (hnodes : s.nodes = l ++ k :: l')
    (hj : j ∈ (s.turn m n k).nodes) : ∃ i ∈ s.nodes, i.info.frameNumber = j.info.frameNumber := by
  by_cases hstays : Stays n k.info
  · rw [(hs.turn_stays (m := m) hnodes hstays).1] at hj
    rw [hnodes]
    rcases mem_append.mp hj with hj | hj
    · exact ⟨j, mem_append_left _ hj, rfl⟩
    · rcases mem_cons.mp hj with rfl | hj
      · exact ⟨k, by simp, rfl⟩
      · exact ⟨j, by simp [hj], rfl⟩
  · rw [(hs.turn_leaves (m := m) hnodes hstays).1, eraseReproc] at hj
    have hmem : j ∈ l ++ l' := by
      split at hj
      · exact mem_of_mem_eraseP hj
      · exact hj
    refine ⟨j, ?_, rfl⟩
    rw [hnodes]
    rcases mem_append.mp hmem with hj | hj
    · exact mem_append_left _ hj
    · exact mem_append_right _ (mem_cons_of_mem _ hj)

/-- A turn erases no other node. -/
theorem Free.turn (hfree : Free n s) (hs : s.Sound) (hnodes : s.nodes = l ++ k :: l') : Free n (s.turn m n k) := by
  rintro ⟨j, hj, hframe⟩ i hi
  obtain ⟨i', hi', hsame⟩ := hs.frames_turn hnodes hi
  rw [← hsame]
  exact hfree ⟨j, results_metadataEntry s.hal m n k.info hj, hframe⟩ i' hi'

theorem requestLoop_turn (hs : s.Sound) (hnodes : s.nodes = l ++ k :: l') (fuel : ℕ)
    (hle : k.info.frameNumber ≤ n) : requestLoop m n (fuel + 1) (some k.id) s =
      requestLoop m n fuel (l'.head?.map PendingNode.id) (s.turn m n k) := by
  have hids := hs.ids
  rw [hnodes] at hids
  rw [requestLoop, hnodes, nodeAt_append hids, nextOf_append hids]
  exact if_neg (by omega)

theorem requestLoop_later (hs : s.Sound) (hnodes : s.nodes = l ++ k :: l') (fuel : ℕ)
    (hlater : n < k.info.frameNumber) :
    requestLoop m n (fuel + 1) (some k.id) s = some (.done s) := by
  have hids := hs.ids
  rw [hnodes] at hids
  rw [requestLoop, hnodes, nodeAt_append hids]
  exact if_pos hlater

variable {is : List PendingRequestInfo}

theorem upTo_cons {i : PendingRequestInfo} (hle : i.frameNumber ≤ n) :
    upTo n (i :: is) = i :: upTo n is := takeWhile_cons_of_pos (decide_eq_true hle)

theorem upTo_later {i : PendingRequestInfo} (hlater : n < i.frameNumber) : upTo n (i :: is) = [] :=
  takeWhile_cons_of_neg (by simpa using hlater)

/-- **The loop goes to its end** where no other node can be erased. -/
theorem requestLoop_free (hs : s.Sound) (hfree : Free n s) (hnodes : s.nodes = l ++ l') {fuel : ℕ}
    (hfuel : l'.length < fuel) :
    ∃ t, requestLoop m n fuel (l'.head?.map PendingNode.id) s = some (.done t) ∧ t.Sound ∧
      t.hal = metadataTurns m n (upTo n (l'.map PendingNode.info)) s.hal := by
  induction l' generalizing s l fuel with
  | nil =>
    obtain ⟨fuel, rfl⟩ := Nat.exists_eq_succ_of_ne_zero (Nat.ne_of_gt hfuel)
    exact ⟨s, rfl, hs, rfl⟩
  | cons k l' ih =>
    obtain ⟨fuel, rfl⟩ := Nat.exists_eq_succ_of_ne_zero (Nat.ne_of_gt (Nat.zero_lt_of_lt hfuel))
    have hfuel : l'.length < fuel := by simpa using hfuel
    rw [head?_cons, map_some, map_cons]
    rcases Nat.lt_or_ge n k.info.frameNumber with hlater | hle
    · rw [requestLoop_later hs hnodes fuel hlater, upTo_later hlater]
      exact ⟨s, rfl, hs, rfl⟩
    · rw [requestLoop_turn hs hnodes fuel hle, upTo_cons hle]
      have hfree' := hfree.turn (m := m) hs hnodes
      by_cases hstays : Stays n k.info
      · obtain ⟨hturn, hs'⟩ := hs.turn_stays (m := m) hnodes hstays
        rw [← singleton_append, ← append_assoc] at hturn
        exact ih hs' hfree' hturn hfuel
      · obtain ⟨hturn, hs'⟩ := hs.turn_leaves (m := m) hnodes hstays
        rw [eraseReproc_free] at hturn
        · exact ih hs' hfree' hturn hfuel
        · intro hwaits j hj
          refine hfree hwaits j ?_
          rw [hnodes]
          rcases mem_append.mp hj with hj | hj
          · exact mem_append_left _ hj
          · exact mem_append_right _ (mem_cons_of_mem _ hj)

theorem upTo_eraseP (his : is.Pairwise fun i k => i.frameNumber < k.frameNumber) :
    upTo n (is.eraseP fun i => i.frameNumber == n + 1) = upTo n is := by
  induction is with
  | nil => rfl
  | cons i is ih =>
    obtain ⟨hi, his⟩ := pairwise_cons.mp his
    by_cases hframe : i.frameNumber = n + 1
    · rw [eraseP_cons_of_pos (by simpa using hframe), upTo_later (by omega)]
      cases is with
      | nil => rfl
      | cons k is =>
        have := hi k mem_cons_self
        exact upTo_later (by omega)
    · rw [eraseP_cons_of_neg (by simpa using hframe)]
      rcases Nat.lt_or_ge n i.frameNumber with hlater | hle
      · rw [upTo_later hlater, upTo_later hlater]
      · rw [upTo_cons hle, upTo_cons hle, ih his]

theorem frame_ne_of_eraseP {f : ℕ} {q : List PendingNode}
    (hq : q.Pairwise fun i k => i.info.frameNumber < k.info.frameNumber) :
    ∀ k ∈ q.eraseP (fun k => k.info.frameNumber == f), k.info.frameNumber ≠ f := by
  induction q with
  | nil => exact fun k hk => absurd hk not_mem_nil
  | cons i q ih =>
    obtain ⟨hi, hq⟩ := pairwise_cons.mp hq
    by_cases hframe : i.info.frameNumber = f
    · rw [eraseP_cons_of_pos (by simpa using hframe)]
      exact fun k hk => hframe ▸ Nat.ne_of_gt (hi k hk)
    · rw [eraseP_cons_of_neg (by simpa using hframe)]
      intro k hk
      rcases mem_cons.mp hk with rfl | hk
      · exact hframe
      · exact ih hq k hk

theorem requestLoop_dangling (hs : s.Sound) (hnodes : s.nodes = l ++ k :: j :: l')
    (hleaves : ¬ Stays n k.info) (hle : k.info.frameNumber ≤ n) (hj : j.info.frameNumber = n + 1)
    (hwaits : ∃ i ∈ s.hal.mPendingReprocessResultList, i.frameNumber = n + 1) (fuel : ℕ) :
    requestLoop m n (fuel + 2) (some k.id) s = some .erasedRead := by
  have hids := hs.ids
  rw [hnodes, map_append, map_cons, map_cons] at hids
  have herased : (s.turn m n k).nodes = l ++ l' := by
    obtain ⟨i, hi, hframe⟩ := hwaits
    have hany : s.hal.mPendingReprocessResultList.any (fun i => i.frameNumber == n + 1) = true :=
      any_eq_true.mpr ⟨i, hi, by simpa using hframe⟩
    rw [(hs.turn_leaves hnodes hleaves).1, eraseReproc, if_pos hany, eraseP_append_right]
    · exact congrArg (l ++ ·) (eraseP_cons_of_pos (by simpa using hj))
    · intro i hi
      have := (hs.frames hnodes).1 i hi
      simp
      omega
  have hgone : nodeAt (l ++ l') j.id = none := by
    refine find?_eq_none.mpr fun i hi => ?_
    rw [beq_iff_eq]
    intro heq
    rcases mem_append.mp hi with hi | hi
    · exact (nodup_append.mp hids).2.2 _ (mem_map.mpr ⟨i, hi, rfl⟩) _ (mem_cons_of_mem _ mem_cons_self) heq
    · have htail := (nodup_cons.mp (nodup_append.mp hids).2.1).2
      exact (nodup_cons.mp htail).1 (heq ▸ mem_map.mpr ⟨i, hi, rfl⟩)
  rw [requestLoop_turn hs hnodes (fuel + 1) hle, head?_cons, map_some, requestLoop, herased, hgone]

/-- **A turn that leaves the iterator at a node of the list**, and no other node can be erased from
then on. -/
theorem Sound.turn_free (hs : s.Sound) (hnodes : s.nodes = l ++ k :: l') (hleaves : ¬ Stays n k.info)
    (hle : k.info.frameNumber ≤ n)
    (hnot : ¬ ((∃ i ∈ s.hal.mPendingReprocessResultList, i.frameNumber = n + 1) ∧
      ∃ i ∈ (l'.map PendingNode.info).head?, i.frameNumber = n + 1)) :
    ∃ q, (s.turn m n k).nodes = l ++ q ∧ q.length ≤ l'.length ∧
      q.head?.map PendingNode.id = l'.head?.map PendingNode.id ∧
      upTo n (q.map PendingNode.info) = upTo n (l'.map PendingNode.info) ∧ Free n (s.turn m n k) := by
  obtain ⟨hturn, hs'⟩ := hs.turn_leaves (m := m) hnodes hleaves
  have hearlier := (hs.frames hnodes).1
  by_cases hwaits : ∃ i ∈ s.hal.mPendingReprocessResultList, i.frameNumber = n + 1
  · obtain ⟨i, hi, hframe⟩ := hwaits
    have hany : s.hal.mPendingReprocessResultList.any (fun i => i.frameNumber == n + 1) = true :=
      any_eq_true.mpr ⟨i, hi, by simpa using hframe⟩
    have hsorted := hs.sorted
    rw [hnodes] at hsorted
    obtain ⟨hl, hkl', -⟩ := pairwise_append.mp hsorted
    have hl' := (pairwise_cons.mp hkl').2
    have hskip (j : PendingNode) (hj : j ∈ l) : ¬ (j.info.frameNumber == n + 1) = true := by
      have := hearlier j hj
      simp
      omega
    rw [eraseReproc, if_pos hany, eraseP_append_right _ hskip] at hturn
    refine ⟨_, hturn, length_eraseP_le, ?_, ?_, ?_⟩
    · cases l' with
      | nil => rfl
      | cons j l' =>
        have hj : j.info.frameNumber ≠ n + 1 := fun heq =>
          hnot ⟨⟨i, hi, hframe⟩, _, rfl, heq⟩
        rw [eraseP_cons_of_neg (by simpa using hj)]
        rfl
    · have hmap : (l'.eraseP fun k => k.info.frameNumber == n + 1).map PendingNode.info =
          (l'.map PendingNode.info).eraseP fun i => i.frameNumber == n + 1 := by
        rw [eraseP_map]
        rfl
      rw [hmap, upTo_eraseP (pairwise_map.mpr hl')]
    · intro _ j hj
      rw [hturn] at hj
      rcases mem_append.mp hj with hj | hj
      · simpa using hskip j hj
      · exact frame_ne_of_eraseP hl' j hj
  · rw [eraseReproc_free fun h => absurd h hwaits] at hturn
    refine ⟨l', hturn, Nat.le_refl _, rfl, rfl, fun ⟨j, hj, hframe⟩ => ?_⟩
    exact absurd ⟨j, results_metadataEntry s.hal m n k.info hj, hframe⟩ hwaits

/-- **The loop reads an erased node if and only if it dangles**, and does to the HAL what
`metadataLoop` does where it does not. -/
theorem requestLoop_exit (hs : s.Sound) (hnodes : s.nodes = l ++ l') {fuel : ℕ} (hfuel : l'.length < fuel) :
    if Dangles n s.hal.mPendingReprocessResultList (l'.map PendingNode.info) then
      requestLoop m n fuel (l'.head?.map PendingNode.id) s = some .erasedRead
    else ∃ t, requestLoop m n fuel (l'.head?.map PendingNode.id) s = some (.done t) ∧ t.Sound ∧
      t.hal = metadataTurns m n (upTo n (l'.map PendingNode.info)) s.hal := by
  induction l' generalizing s l fuel with
  | nil =>
    obtain ⟨fuel, rfl⟩ := Nat.exists_eq_succ_of_ne_zero (Nat.ne_of_gt hfuel)
    have hnot : ¬ Dangles n s.hal.mPendingReprocessResultList (([] : List PendingNode).map PendingNode.info) := id
    rw [if_neg hnot]
    exact ⟨s, rfl, hs, rfl⟩
  | cons k l' ih =>
    obtain ⟨fuel, rfl⟩ := Nat.exists_eq_succ_of_ne_zero (Nat.ne_of_gt (Nat.zero_lt_of_lt hfuel))
    have hfuel : l'.length < fuel := by simpa using hfuel
    rw [head?_cons, map_some, map_cons]
    rcases Nat.lt_or_ge n k.info.frameNumber with hlater | hle
    · rw [requestLoop_later hs hnodes fuel hlater, upTo_later hlater,
        if_neg fun h : Dangles n _ (k.info :: _) => absurd h.1 (by omega)]
      exact ⟨s, rfl, hs, rfl⟩
    · rw [upTo_cons hle]
      by_cases hstays : Stays n k.info
      · obtain ⟨hturn, hs'⟩ := hs.turn_stays (m := m) hnodes hstays
        rw [← singleton_append, ← append_assoc] at hturn
        have hresults : (s.turn m n k).hal.mPendingReprocessResultList = s.hal.mPendingReprocessResultList := by
          change (s.hal.metadataEntry m n k.info).mPendingReprocessResultList = _
          rw [metadataEntry_eq, if_pos hstays]
          rfl
        have hdangles : Dangles n s.hal.mPendingReprocessResultList (k.info :: l'.map PendingNode.info) ↔
              Dangles n s.hal.mPendingReprocessResultList (l'.map PendingNode.info) := by
          rw [Dangles, if_pos hstays]
          exact and_iff_right hle
        rw [requestLoop_turn hs hnodes fuel hle]
        simp only [hdangles]
        exact hresults ▸ ih hs' hturn hfuel
      · have hdangles : Dangles n s.hal.mPendingReprocessResultList (k.info :: l'.map PendingNode.info) ↔
              (∃ i ∈ s.hal.mPendingReprocessResultList, i.frameNumber = n + 1) ∧
                ∃ i ∈ (l'.map PendingNode.info).head?, i.frameNumber = n + 1 := by
          rw [Dangles, if_neg hstays]
          exact and_iff_right hle
        simp only [hdangles]
        split
        · rename_i hcase
          obtain ⟨hwaits, i, hi, hframe⟩ := hcase
          cases l' with
          | nil => cases hi
          | cons j l' =>
            obtain rfl : j.info = i := some.inj hi
            obtain ⟨fuel, rfl⟩ :=
              Nat.exists_eq_succ_of_ne_zero (Nat.ne_of_gt (Nat.zero_lt_of_lt hfuel))
            exact requestLoop_dangling hs hnodes hstays hle hframe hwaits fuel
        · rename_i hcase
          obtain ⟨q, hturn, hlength, hhead, hupTo, hfree⟩ :=
            hs.turn_free (m := m) hnodes hstays hle hcase
          rw [requestLoop_turn hs hnodes fuel hle, ← hhead, ← hupTo]
          exact requestLoop_free (hs.turn_leaves hnodes hstays).2 hfree hturn (by omega)

/-- The loop from `begin` on. -/
theorem handleRequests_exit (hs : s.Sound) :
    if Dangles n s.hal.mPendingReprocessResultList s.hal.mPendingRequestsList then
      s.handleRequests m n = some .erasedRead
    else ∃ t, s.handleRequests m n = some (.done t) ∧ t.Sound ∧
      t.hal = metadataLoop m n s.hal.mPendingRequestsList s.hal := by
  rw [metadataLoop_eq, ← hs.agree]
  exact requestLoop_exit (l := []) hs rfl (Nat.lt_succ_self _)

theorem dangles_map {results : List PendingReprocessResult} {g : PendingRequestInfo → PendingRequestInfo}
    (hg : ∀ i, (g i).frameNumber = i.frameNumber ∧ (g i).inputBuffer = i.inputBuffer) :
    Dangles n results (is.map g) ↔ Dangles n results is := by
  induction is with
  | nil => exact Iff.rfl
  | cons i is ih =>
    have hstays : Stays n (g i) ↔ Stays n i := by rw [Stays, Stays, (hg i).1, (hg i).2]
    have hhead : (∃ k ∈ (is.map g).head?, k.frameNumber = n + 1) ↔ ∃ k ∈ is.head?, k.frameNumber = n + 1 := by
      cases is with
      | nil => exact Iff.rfl
      | cons k is => simp [(hg k).1]
    rw [map_cons, Dangles, Dangles, (hg i).1]
    simp only [hstays, ih, hhead]

/-- The nodes of a list, in order. -/
def nodesOf (is : List PendingRequestInfo) : List PendingNode := is.mapIdx PendingNode.mk

theorem nodesOf_sound (is : List PendingRequestInfo) :
    ((nodesOf is).map PendingNode.id).Nodup ∧ (nodesOf is).map PendingNode.info = is := by
  have hids : (nodesOf is).map PendingNode.id = range is.length := by
    refine ext_getElem (by simp [nodesOf]) fun k _ _ => ?_
    simp [nodesOf]
  refine ⟨hids ▸ nodup_range, ext_getElem (by simp [nodesOf]) fun k _ _ => ?_⟩
  simp [nodesOf]

end NodeHal

namespace CaptureState

open HardwareInterface NodeHal

variable {s t : CaptureState}

/-! ### Every reachable state -/

/-- The frame numbers of the pending requests. -/
def pendingFrames (s : CaptureState) : List ℕ :=
  s.hal.mPendingRequestsList.map PendingRequestInfo.frameNumber

/-- The handlers work, and the pending requests are in the order of their frames, which were
requested. -/
structure Ordered (s : CaptureState) : Prop where
  working : s.hal.Working
  sorted : s.pendingFrames.Pairwise (· < ·)
  requested : ∀ f ∈ s.pendingFrames, f ∈ s.frames

theorem ordered_initial (h : s.Initial) : s.Ordered where
  working := ⟨h.flushPerf, h.state⟩
  sorted := by simp [pendingFrames, h.requests]
  requested := by simp [pendingFrames, h.requests]

theorem Ordered.left (h : s.Ordered) (hw : t.hal.Working) (htaken : t.taken = s.taken)
    (hsub : t.pendingFrames.Sublist s.pendingFrames) : t.Ordered where
  working := hw
  sorted := h.sorted.sublist hsub
  requested := fun f hf => by
    rw [frames, htaken]
    exact h.requested f (hsub.subset hf)

theorem sublist_frames_map {l : List PendingRequestInfo}
    {g : PendingRequestInfo → PendingRequestInfo} (hg : ∀ i, (g i).frameNumber = i.frameNumber) :
    ((l.map g).map PendingRequestInfo.frameNumber).Sublist (l.map PendingRequestInfo.frameNumber) := by
  rw [List.map_map]
  refine (List.map_congr_left fun i _ => ?_) ▸ List.Sublist.refl _
  exact (hg i).symm

theorem sublist_frames_metadataEntry (hal : HardwareInterface) (m : MetadataInfo) (n : ℕ) (i : PendingRequestInfo) :
    ((hal.metadataEntry m n i).mPendingRequestsList.map PendingRequestInfo.frameNumber).Sublist
      (hal.mPendingRequestsList.map PendingRequestInfo.frameNumber) := by
  rw [metadataEntry_eq]
  split
  · refine sublist_frames_map fun k => ?_
    split
    · rename_i hframe
      exact hframe.symm
    · rfl
  · refine (((sublist_handlePendingReprocResults _ _).1).map _).trans ?_
    rw [(answered_lists hal m n i).1]
    exact eraseP_sublist.map _

theorem sublist_frames_metadataTurns (hal : HardwareInterface) (m : MetadataInfo) (n : ℕ)
    (l : List PendingRequestInfo) :
    ((metadataTurns m n l hal).mPendingRequestsList.map PendingRequestInfo.frameNumber).Sublist
      (hal.mPendingRequestsList.map PendingRequestInfo.frameNumber) := by
  induction l generalizing hal with
  | nil => exact List.Sublist.refl _
  | cons i l ih => exact (ih _).trans (sublist_frames_metadataEntry hal m n i)

theorem sublist_frames_buffer {hal : HardwareInterface} (hw : hal.Working) (b : StreamBuffer)
    (f : ℕ) : ((hal.handleBufferWithLock b f).mPendingRequestsList.map PendingRequestInfo.frameNumber).Sublist
        (hal.mPendingRequestsList.map PendingRequestInfo.frameNumber) := by
  have hstate : ¬ (hal.mState = .error ∨ hal.mState = .deinit) := by
    rcases hw.state with hst | hst <;> simp [hst]
  rw [handleBufferWithLock, if_neg hstate, if_neg (by simp [hw.flushPerf])]
  split
  · exact List.Sublist.refl _
  · split
    · rw [handleReprocBuffer]
      dsimp only
      split
      · exact List.Sublist.refl _
      · exact eraseP_sublist.map _
    · refine sublist_frames_map fun k => ?_
      split <;> rfl

theorem sublist_frames_input (hal : HardwareInterface) (f : ℕ) :
    ((hal.handleInputBufferWithLock f).mPendingRequestsList.map PendingRequestInfo.frameNumber).Sublist
        (hal.mPendingRequestsList.map PendingRequestInfo.frameNumber) := by
  rw [handleInputBufferWithLock]
  split
  · split
    · dsimp only
      split <;> exact eraseP_sublist.map _
    · exact List.Sublist.refl _
  · exact List.Sublist.refl _

theorem sublist_notifyError (hal : HardwareInterface) :
    hal.notifyErrorForPendingRequests.mPendingRequestsList.Sublist hal.mPendingRequestsList := by
  have hloop (frameNum : ℕ) (map : List PendingBuffersInRequest) (input : Option StreamBuffer) (u : HardwareInterface) :
      (notifyErrorLoop frameNum map input u).mPendingRequestsList.Sublist u.mPendingRequestsList := by
    induction map generalizing input u with
    | nil => exact List.Sublist.refl _
    | cons e map ih =>
      rw [notifyErrorLoop]
      split
      · exact ih _ _
      · refine (ih _ _).trans ?_
        rw [notifyErrorRequest]
        dsimp only
        split
        · rename_i hnil
          exact hnil ▸ List.Sublist.refl _
        · rename_i i is hcons
          rw [hcons]
          split
          · exact sublist_cons_self i is
          · exact List.Sublist.refl _
  exact hloop _ _ _ _

theorem sublist_frames_notifyError (hal : HardwareInterface) :
    (hal.notifyErrorForPendingRequests.mPendingRequestsList.map PendingRequestInfo.frameNumber).Sublist
        (hal.mPendingRequestsList.map PendingRequestInfo.frameNumber) :=
  (sublist_notifyError hal).map _

theorem working_notifyError {hal : HardwareInterface} (hw : hal.Working) :
    hal.notifyErrorForPendingRequests.Working := by
  rw [notifyError_rest]
  exact ⟨hw.flushPerf, hw.state⟩

/-- A request is listed behind all the others. -/
theorem Ordered.request (h : s.Ordered) {calls : RequestCalls} {req : CaptureRequest}
    (hfresh : s.Fresh req) : (s.request calls req).Ordered := by
  have hbefore : (s.restarted calls req).Ordered ∧ (s.restarted calls req).hal = pendingBefore calls req s.hal := by
    rw [restarted, pendingBefore]
    split
    · exact ⟨h.left (working_notifyError h.working) rfl (sublist_frames_notifyError s.hal), rfl⟩
    · exact ⟨h, rfl⟩
  obtain ⟨hold, hhal⟩ := hbefore
  rcases processCaptureRequest_cases calls req h.working.state with
    ⟨r, hprep, hproc, -, hu⟩ | ⟨u, hprep, hu, hsub⟩
  · have heq : s.request calls req = { s.restarted calls req with hal := r.2 } := by
      rw [CaptureState.request, hprep, hproc]
    rw [← hhal] at hu
    rw [heq]
    refine hold.left (hu.working hold.working) rfl ?_
    rw [pendingFrames, hu]
    exact List.Sublist.refl _
  · have heq : s.request calls req = { s.restarted calls req with
        hal := (s.hal.processCaptureRequest calls req).2
        queued := (s.restarted calls req).queued ++ req.outs
        taken := s.taken ++ [req] } := by
      rw [CaptureState.request, hprep, restarted_taken]
    rw [← hhal] at hu
    have hframes : (s.request calls req).pendingFrames =
        (s.restarted calls req).pendingFrames ++ [req.frameNumber] := by
      have hmap : (s.hal.processCaptureRequest calls req).2.mPendingRequestsList.map
          PendingRequestInfo.frameNumber = (insertRequest req u).mPendingRequestsList.map
            PendingRequestInfo.frameNumber := by
        have hreq := congrArg (map Req.frame) hsub.requests
        rw [List.map_map, List.map_map] at hreq
        exact hreq
      rw [heq, pendingFrames, hmap, insertRequest, hu, map_append]
      rfl
    have hall : (s.request calls req).frames = s.frames ++ [req.frameNumber] := by
      rw [heq, CaptureState.frames, map_append]
      rfl
    have hrequested (f : ℕ) (hf : f ∈ (s.restarted calls req).pendingFrames) : f ∈ s.frames := by
      have hmem := hold.requested f hf
      rwa [CaptureState.frames, restarted_taken] at hmem
    refine ⟨?_, ?_, fun f hf => ?_⟩
    · rw [heq]
      exact hsub.working (by
        have hw := hu.working hold.working
        exact ⟨hw.flushPerf, hw.state⟩)
    · rw [hframes]
      refine pairwise_append.mpr ⟨hold.sorted, pairwise_singleton _ _, ?_⟩
      intro f hf f' hf'
      rw [mem_singleton.mp hf']
      exact hfresh.1 f (hrequested f hf)
    · rw [hframes] at hf
      rw [hall]
      rcases mem_append.mp hf with hf | hf
      · exact mem_append_left _ (hrequested f hf)
      · exact mem_append_right _ hf

/-- A metadata takes requests out. -/
theorem Ordered.metadata (h : s.Ordered) (m : MetadataInfo) : (s.metadata m).Ordered := by
  refine h.left ((handled_metadata s.hal m).working h.working) rfl ?_
  have hsorted : s.hal.mPendingRequestsList.Pairwise fun i k => i.frameNumber < k.frameNumber :=
    pairwise_map.mp h.sorted
  have hurgent : ((s.hal.urgentPart m).mPendingRequestsList.map
      PendingRequestInfo.frameNumber).Sublist s.pendingFrames := by
    rw [urgentPart_eq m hsorted]
    exact sublist_frames_map fun i => (urgentEntry_kept m i).1
  rw [pendingFrames, CaptureState.metadata, handleMetadata_eq h.working]
  refine (sublist_frames_map (g := fun i => { i with
    pipelineDepth := (i.pipelineDepth + 1) % 256 }) fun _ => rfl).trans (.trans ?_ hurgent)
  rw [normalPart]
  cases m.number with
  | none => exact List.Sublist.refl _
  | some n => exact sublist_frames_metadataTurns _ m n _

theorem Ordered.step (h : s.Ordered) {e : CaptureEvent} (hstep : s.step e = some t) : t.Ordered := by
  cases e with
  | request calls req =>
    simp only [CaptureState.step, ite_none_right_eq_some, some.injEq] at hstep
    obtain ⟨hfresh, rfl⟩ := hstep
    exact h.request hfresh
  | metadata m =>
    cases hstep
    exact h.metadata m
  | buffer o error =>
    simp only [CaptureState.step, ite_none_right_eq_some, some.injEq] at hstep
    obtain ⟨-, rfl⟩ := hstep
    exact h.left ((handled_buffer s.hal h.working.flushPerf _ _).working h.working) rfl
      (sublist_frames_buffer h.working _ _)
  | input frameNumber =>
    cases hstep
    exact h.left ((handled_inputBuffer s.hal _).working h.working) rfl (sublist_frames_input s.hal frameNumber)
  | flush =>
    cases hstep
    have hw := working_notifyError h.working
    exact h.left ⟨hw.flushPerf, hw.state⟩ rfl (sublist_frames_notifyError s.hal)

/-- **The loop of `handleMetadataWithLock` never reads an erased node**, in a reachable state, if and
only if it does not dangle: after older reprocess requests the first request that leaves is not the
last one up to the frame number, or the one after it is not erased with a reprocess result of the next
frame that waits. -/
theorem loop_valid_iff {s t : CaptureState} {es : List CaptureEvent} (hs : s.Initial)
    (h : Run (fires step) s es t) (m : MetadataInfo) (n : ℕ) {nodes : List PendingNode}
    (hids : (nodes.map PendingNode.id).Nodup)
    (hnodes : nodes.map PendingNode.info = (t.hal.urgentPart m).mPendingRequestsList) :
    (∃ u, handleRequests ⟨nodes, t.hal.urgentPart m⟩ m n = some (.done u)) ↔
      ¬ Dangles n t.hal.mPendingReprocessResultList t.hal.mPendingRequestsList := by
  have hordered : t.Ordered := h.invariant (fun _ _ _ hu hstep => hu.step hstep) (ordered_initial hs)
  have hsorted : t.hal.mPendingRequestsList.Pairwise fun i k => i.frameNumber < k.frameNumber :=
    pairwise_map.mp hordered.sorted
  have hurgent := urgentPart_eq m hsorted
  have hrequests : (t.hal.urgentPart m).mPendingRequestsList =
      t.hal.mPendingRequestsList.map (urgentEntry m) := by rw [hurgent]
  have hresults : (t.hal.urgentPart m).mPendingReprocessResultList =
      t.hal.mPendingReprocessResultList := by rw [hurgent]
  have hkept (i : PendingRequestInfo) := urgentEntry_kept m i
  have hdangles : Dangles n t.hal.mPendingReprocessResultList (t.hal.mPendingRequestsList.map (urgentEntry m)) ↔
        Dangles n t.hal.mPendingReprocessResultList t.hal.mPendingRequestsList :=
    dangles_map fun i => ⟨(hkept i).1, (hkept i).2.1⟩
  have hsound : NodeHal.Sound ⟨nodes, t.hal.urgentPart m⟩ := by
    refine ⟨hnodes, hids, ?_⟩
    have hpairs : (nodes.map PendingNode.info).Pairwise fun i k => i.frameNumber < k.frameNumber := by
      rw [hnodes, hrequests, pairwise_map]
      exact hsorted.imp fun hlt => by rwa [(hkept _).1, (hkept _).1]
    rw [pairwise_map] at hpairs
    exact hpairs
  have hexit := handleRequests_exit (m := m) (n := n) hsound
  change if Dangles n (t.hal.urgentPart m).mPendingReprocessResultList
    (t.hal.urgentPart m).mPendingRequestsList then _ else _ at hexit
  rw [hresults, hrequests] at hexit
  constructor
  · rintro ⟨u, hu⟩ hdangling
    rw [if_pos (hdangles.mpr hdangling), hu] at hexit
    cases hexit
  · intro hnot
    rw [if_neg fun hdangling => hnot (hdangles.mp hdangling)] at hexit
    obtain ⟨u, hu, -⟩ := hexit
    exact ⟨u, hu⟩

/-- Two live requests, and the metadata of the first: `loop_valid_iff` applies. -/
theorem loop_valid_two : ∃ t, Run (fires step) configured
      [liveRequest 1 11, liveRequest 2 12] t ∧ t.pendingFrames = [1, 2] ∧
    ∃ u, handleRequests ⟨nodesOf (t.hal.urgentPart {}).mPendingRequestsList, t.hal.urgentPart {}⟩
      {} 1 = some (.done u) := by
  refine (exists_run_fires (P := fun t => t.pendingFrames = [1, 2] ∧
    ¬ Dangles 1 t.hal.mPendingReprocessResultList t.hal.mPendingRequestsList) (by decide)).imp
    fun t h => ⟨h.1, h.2.1, ?_⟩
  obtain ⟨hids, hnodes⟩ := nodesOf_sound (t.hal.urgentPart {}).mPendingRequestsList
  exact (loop_valid_iff configured_initial h.1 {} 1 hids hnodes).mpr h.2.2

/-- A live request, and a reprocess request whose result waits for it. -/
def waitingResult : List CaptureEvent :=
  [liveRequest 1 11, reprocRequest 2 12, .buffer ⟨2, 2, 12⟩ false]

/-- The metadata of the live request. -/
def firstMetadata : MetadataInfo := { frameNumber := some 1 }

/-- Whether a node is read after it was erased. -/
def readsErased : Option LoopExit → Bool
  | some .erasedRead => true
  | _ => false

/-- With the metadata of the live request the reprocess request is erased, and then read. -/
theorem erased_read : ∃ t, Run (fires step) configured waitingResult t ∧ t.pendingFrames = [1, 2] ∧
    readsErased (handleRequests
      ⟨nodesOf (t.hal.urgentPart firstMetadata).mPendingRequestsList, t.hal.urgentPart firstMetadata⟩
      firstMetadata 1) = true :=
  exists_run_fires (by decide)

end CaptureState

end Marlin
