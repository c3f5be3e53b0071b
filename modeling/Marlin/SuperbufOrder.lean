import Marlin.SuperbufNodes

/-!
# The Order of the Super-Buffer Queue

The invariant behind `match_cnt` and the loops it guards: the matched nodes are in front,
the unmatched ones follow with increasing frame indices, `match_cnt` and `size` count them,
and there are at most `max_unmatched_frames + 1` unmatched ones.

A step can break it in one place only: a buffer that joins a metadata-only node makes the
node take over its frame index, and an unmatched node of a later frame may be in front of
it. `Act.Fits` excludes that. Without low-priority bundling it never happens; with it, the
runs that keep to the condition are fine, and `lowPriority_head_unmatched` is one that does
not.

## Main results

* `Bundle.Step.ordered`: a step that fits keeps the queue in order.
* `superbuf_run_ordered`: the queue of a channel without low priority is in order in every
  reachable state, and the loops of `bufdone_overflow` and `skip` end.
* `lowPriority_run_ordered`: the same for low priority, for the runs that fit.
-/

namespace Marlin

open MmChannelQueueNode List Option Bool Transition MmChannel

namespace Bundle

/-- An unmatched node is followed by unmatched nodes of later frames only. -/
def Precedes (m n : MmChannelQueueNode) : Prop :=
  m.matched = false → n.matched = false ∧ m.frameIdx < n.frameIdx

/-- The super-buffer queue is in order and its counters are right. -/
structure Ordered (B : Bundle) : Prop where
  order : B.que.Pairwise Precedes
  matchCnt : B.matchCnt = B.que.countP (·.matched)
  size : B.size = B.que.length
  room : B.attr.maxUnmatchedFrames < 255 → B.unmatched ≤ B.attr.maxUnmatchedFrames + 1
  single : B.bundledStreams.length = 1 → ∀ n ∈ B.que, n.matched = true

/-- A buffer that joins a node does not move it past another unmatched node: the frame index
the node has afterwards is not larger than before, and the unmatched nodes in front are of
older frames. -/
def Act.Fits (B : Bundle) : Act → Prop
  | .enqueue i b _ => ∀ pre n post, B.Found i b pre n post →
      (n.put i b).frameIdx ≤ n.frameIdx ∧
      ∀ m ∈ pre, m.matched = false → m.frameIdx < (n.put i b).frameIdx
  | _ => True

variable {B B' : Bundle} {pre post : List MmChannelQueueNode} {n : MmChannelQueueNode}

theorem Ordered.remove (hB : B.Ordered) (hq : B.que = pre ++ n :: post)
    (hque : B'.que = pre ++ post) (hsize : B'.size = B.size - 1)
    (hcnt : B'.matchCnt = if n.matched then B.matchCnt - 1 else B.matchCnt)
    (hattr : B'.attr = B.attr) (hstreams : B'.bundledStreams = B.bundledStreams) :
    B'.Ordered := by
  have hsub : B'.que.Sublist B.que := by
    rw [hque, hq]
    exact List.Sublist.append_left (sublist_cons_self n post) pre
  have hlen : B.que.length = B'.que.length + 1 := by
    rw [hque, hq]
    simp only [length_append, length_cons]
    omega
  have hcount : B.que.countP (·.matched) = B'.que.countP (·.matched) + if n.matched then 1 else 0 := by
    rw [hque, hq]
    simp only [countP_append, countP_cons]
    omega
  refine ⟨hB.order.sublist hsub, ?_, ?_, ?_, ?_⟩
  · rw [hcnt, hB.matchCnt, hcount]
    split <;> omega
  · rw [hsize, hB.size, hlen]
    omega
  · intro hmax
    rw [hattr] at hmax ⊢
    exact (hsub.countP_le).trans (hB.room hmax)
  · intro hone m hm
    rw [hstreams] at hone
    exact hB.single hone m (hsub.mem hm)

theorem Ordered.replace (hB : B.Ordered)
    {n' : MmChannelQueueNode} (hq : B.que = pre ++ n :: post) (hn : n.matched = false)
    (hn' : n'.matched = false) (hle : n'.frameIdx ≤ n.frameIdx)
    (hpre : ∀ m ∈ pre, m.matched = false → m.frameIdx < n'.frameIdx)
    (hque : B'.que = pre ++ n' :: post) (hsize : B'.size = B.size)
    (hcnt : B'.matchCnt = B.matchCnt) (hattr : B'.attr = B.attr)
    (hstreams : B'.bundledStreams = B.bundledStreams) : B'.Ordered := by
  have hord := hq ▸ hB.order
  obtain ⟨hpp, hnp, hcross⟩ := pairwise_append.mp hord
  obtain ⟨hnpost, hpost⟩ := pairwise_cons.mp hnp
  have hcount : ∀ p : MmChannelQueueNode → Bool, p n' = p n → B'.que.countP p = B.que.countP p := by
    intro p hp
    rw [hque, hq]
    simp only [countP_append, countP_cons, hp]
  refine ⟨?_, ?_, ?_, ?_, ?_⟩
  · rw [hque]
    refine pairwise_append.mpr ⟨hpp, pairwise_cons.mpr ⟨?_, hpost⟩, ?_⟩
    · intro m hm _
      have h := hnpost m hm hn
      exact ⟨h.1, by omega⟩
    · intro m hm c hc hmu
      rcases mem_cons.mp hc with rfl | hc
      · exact ⟨hn', hpre m hm hmu⟩
      · exact hcross m hm c (mem_cons_of_mem n hc) hmu
  · rw [hcnt, hB.matchCnt, hcount _ (by rw [hn, hn'])]
  · rw [hsize, hB.size, hque, hq]
    simp only [length_append, length_cons]
  · intro hmax
    rw [hattr] at hmax ⊢
    rw [unmatched, hcount _ (by rw [hn, hn'])]
    exact hB.room hmax
  · intro hone
    rw [hstreams] at hone
    have h := hB.single hone n (hq ▸ mem_append_right pre mem_cons_self)
    rw [hn] at h
    cases h

theorem put_frameIdx_le {i : ℕ} {b : MmCameraBufInfo}
    (hj : B.joins i b n = true) : (n.put i b).frameIdx ≤ b.frameIdx := by
  rw [put_frameIdx]
  split
  · exact le_refl _
  · rcases joins_cases hj with h | ⟨-, -, -, h⟩ | ⟨-, -, -, h⟩ <;> omega

theorem released_eq {frameIdx : ℕ} (hord : pre.Pairwise Precedes)
    (hpre : ∀ m ∈ pre, m.matched = false → m.frameIdx < frameIdx) :
    (∀ m ∈ MmChannelQueueNode.staying frameIdx pre, m.matched = true) ∧
    ∀ m ∈ MmChannelQueueNode.released frameIdx pre, m.matched = false := by
  induction pre with
  | nil => simp [staying, released]
  | cons m pre ih =>
    obtain ⟨hm, hrest⟩ := List.pairwise_cons.mp hord
    obtain ⟨hstay, hrel⟩ := ih hrest fun c hc => hpre c (List.mem_cons_of_mem m hc)
    cases hmm : m.matched with
    | true =>
      have hold : m.isOlder frameIdx = false := by
        simp [isOlder, hmm]
      simp only [staying, released, hold, Bool.not_false, List.takeWhile_cons_of_pos, List.dropWhile_cons_of_pos]
      refine ⟨fun c hc => ?_, hrel⟩
      rcases List.mem_cons.mp hc with rfl | hc
      · exact hmm
      · exact hstay c hc
    | false =>
      have hold : m.isOlder frameIdx = true := by
        simp [isOlder, hmm, hpre m List.mem_cons_self hmm]
      simp only [staying, released, hold,
        Bool.not_true, Bool.false_eq_true, not_false_eq_true, List.takeWhile_cons_of_neg,
        List.dropWhile_cons_of_neg]
      refine ⟨by simp, fun c hc => ?_⟩
      rcases List.mem_cons.mp hc with rfl | hc
      · exact hmm
      · exact (hm c hc hmm).1

theorem Ordered.complete (hB : B.Ordered)
    {n' : MmChannelQueueNode} (hq : B.que = pre ++ n :: post) (hn : n.matched = false)
    (hn' : n'.matched = true) {frameIdx : ℕ}
    (hpre : ∀ m ∈ pre, m.matched = false → m.frameIdx < frameIdx)
    (hque : B'.que = MmChannelQueueNode.staying frameIdx pre ++ n' :: post)
    (hsize : B'.size = B.size - (MmChannelQueueNode.released frameIdx pre).length)
    (hcnt : B'.matchCnt = B.matchCnt + 1) (hattr : B'.attr = B.attr)
    (hstreams : B'.bundledStreams = B.bundledStreams) : B'.Ordered := by
  have hord := hq ▸ hB.order
  obtain ⟨hpp, hnp, hcross⟩ := List.pairwise_append.mp hord
  obtain ⟨hstay, hrel⟩ := released_eq hpp hpre
  have hsplit : staying frameIdx pre ++ released frameIdx pre = pre := List.takeWhile_append_dropWhile
  set stay := staying frameIdx pre with hs
  set rel := released frameIdx pre with hr
  have hrel0 : rel.countP (·.matched) = 0 :=
    List.countP_eq_zero.mpr fun m hm => by simp [hrel m hm]
  have hmatched : B'.que.countP (·.matched) = B.que.countP (·.matched) + 1 := by
    rw [hque, hq, ← hsplit]
    simp only [List.countP_append, List.countP_cons, hn, hn', hrel0, if_true, Bool.false_eq_true, if_false]
    omega
  have hunmatched : B'.unmatched ≤ B.unmatched := by
    simp only [unmatched]
    rw [hque, hq, ← hsplit]
    simp only [List.countP_append, List.countP_cons, hn, hn', Bool.not_true, Bool.not_false,
      if_true, Bool.false_eq_true, if_false]
    omega
  refine ⟨?_, ?_, ?_, ?_, ?_⟩
  · rw [hque]
    refine List.pairwise_append.mpr ⟨?_, List.pairwise_cons.mpr ⟨?_, ?_⟩, ?_⟩
    · exact hpp.sublist (List.takeWhile_sublist _)
    · intro m _ hn'u
      rw [hn'] at hn'u
      cases hn'u
    · exact (List.pairwise_cons.mp hnp).2
    · intro m hm c _ hmu
      rw [hstay m hm] at hmu
      cases hmu
  · rw [hcnt, hB.matchCnt, hmatched]
  · rw [hsize, hB.size, hque, hq, ← hsplit]
    simp only [List.length_append, List.length_cons]
    omega
  · intro hmax
    rw [hattr] at hmax ⊢
    exact hunmatched.trans (hB.room hmax)
  · intro hone
    rw [hstreams] at hone
    have h := hB.single hone n (hq ▸ List.mem_append_right pre List.mem_cons_self)
    rw [hn] at h
    cases h

/-! ### Making room in a queue in order -/

section Room

variable {B : Bundle} {i : ℕ} {b : MmCameraBufInfo} {evicted : Option MmChannelQueueNode}
  {visits : ℕ} {fst snd : List MmChannelQueueNode}

theorem Room.sublist (h : B.Room i b evicted visits fst snd) : (fst ++ snd).Sublist B.que := by
  obtain ⟨as, cs, hq, hfst, hsnd, -⟩ := h.split
  exact hq ▸ hfst.append hsnd

theorem Room.evicted_unmatched (hB : B.Ordered) (h : B.Room i b evicted visits fst snd) :
    ∀ x ∈ evicted, x.matched = false := by
  intro x hx
  obtain ⟨-, -, o, hold, ho⟩ := h.evicts x hx
  have hou : o.matched = false := by
    simp only [isOlder, and_eq_true, not_eq_true'] at hold
    exact hold.1
  rcases ho with rfl | hsub
  · exact hou
  · have hpair := hB.order.sublist hsub
    exact ((pairwise_cons.mp hpair).1 x mem_cons_self hou).1

theorem Room.visits_eq (hB : B.Ordered) (h : B.Room i b evicted visits fst snd) : visits = evicted.toList.length := by
  cases evicted with
  | none => exact (h.calm rfl).1
  | some x =>
    obtain ⟨hmax, hv, -⟩ := h.evicts x rfl
    simp only [toList_some, length_singleton]
    rcases hv with hv | hv
    · exact hv
    · have hlt : B.unmatched % 256 < 256 := Nat.mod_lt _ (by decide)
      have hle : B.unmatched % 256 ≤ B.unmatched := Nat.mod_le _ _
      have hroom := hB.room (by omega)
      omega

theorem Room.counts (hB : B.Ordered) (h : B.Room i b evicted visits fst snd) :
    (fst ++ snd).countP (·.matched) = B.matchCnt ∧
    (fst ++ snd).length = B.size - visits ∧
    (fst ++ snd).countP (fun n => !n.matched) + evicted.toList.length = B.unmatched := by
  have hev := h.evicted_unmatched hB
  have hvisits := h.visits_eq hB
  have hmatched := h.perm.countP_eq (·.matched)
  have hunmatched := h.perm.countP_eq (fun n => !n.matched)
  have hlen := h.perm.length_eq
  rw [List.countP_append] at hmatched hunmatched
  rw [List.length_append] at hlen
  have hsize := hB.size
  have hcnt := hB.matchCnt
  cases evicted with
  | none =>
    simp only [Option.toList_none, List.countP_nil, List.length_nil] at *
    exact ⟨by omega, by omega, by simp only [unmatched]; omega⟩
  | some x =>
    have hx := hev x rfl
    simp only [Option.toList_some, List.countP_cons, List.countP_nil, hx,
      Bool.false_eq_true, if_false, Bool.not_false, if_true, List.length_singleton] at *
    exact ⟨by omega, by omega, by simp only [unmatched]; omega⟩

theorem Ordered.evict (hB : B.Ordered) (h : B.Room i b evicted visits fst snd) :
    (B.evict evicted visits (fst ++ snd)).Ordered := by
  obtain ⟨hcnt, hlen, hunm⟩ := h.counts hB
  refine ⟨hB.order.sublist h.sublist, hcnt.symm, hlen.symm, fun hmax => ?_, fun hone m hm => ?_⟩
  · have hroom := hB.room hmax
    change (fst ++ snd).countP (fun n => !n.matched) ≤ _
    exact le_trans (by omega) hroom
  · exact hB.single hone m (h.mem hm)

/-- The order around the place of a new node. -/
theorem Room.order (hB : B.Ordered) (h : B.Room i b evicted visits fst snd)
    {n : MmChannelQueueNode} (hn : n.frameIdx = b.frameIdx)
    (hm : B.bundledStreams.length ≠ 1 → n.matched = false)
    (hone : B.bundledStreams.length = 1 → n.matched = true) :
    (fst ++ n :: snd).Pairwise Precedes := by
  obtain ⟨as, cs, hq, hfst, hsnd, has, hcs⟩ := h.split
  obtain ⟨hfp, hsp, hcross⟩ := List.pairwise_append.mp (hB.order.sublist h.sublist)
  refine List.pairwise_append.mpr ⟨hfp, List.pairwise_cons.mpr ⟨?_, hsp⟩, ?_⟩
  · intro c hc hnu
    -- the first node behind the place is of a later frame, and the others follow it
    cases hcs' : cs with
    | nil =>
      rw [hcs'] at hsnd
      rw [List.eq_nil_of_sublist_nil hsnd] at hc
      cases hc
    | cons d ds =>
      have hd := hcs d (by simp [hcs'])
      simp only [isNewer, Bool.and_eq_true, Bool.not_eq_true',
        decide_eq_true_eq] at hd
      have hmem : c ∈ d :: ds := hcs' ▸ hsnd.mem hc
      rcases List.mem_cons.mp hmem with rfl | hmem
      · exact ⟨hd.1, by omega⟩
      · have hord := (List.pairwise_append.mp (hq ▸ hB.order)).2.1
        rw [hcs'] at hord
        have hdc := (List.pairwise_cons.mp hord).1 c hmem hd.1
        exact ⟨hdc.1, by omega⟩
  · intro m hm' c hc hmu
    rcases List.mem_cons.mp hc with rfl | hc
    · have hmem : m ∈ B.que := h.mem (List.mem_append_left snd hm')
      have hmulti : B.bundledStreams.length ≠ 1 := by
        intro h1
        rw [hB.single h1 m hmem] at hmu
        cases hmu
      refine ⟨hm hmulti, ?_⟩
      have hnewer := has m (hfst.mem hm')
      simp only [isNewer, hmu, Bool.not_false, Bool.true_and,
        decide_eq_false_iff_not, not_lt] at hnewer
      have hne : b.frameIdx ≠ m.frameIdx := by
        intro heq
        have hno := h.noJoin m hmem hmu
        rw [joins_of_eq heq] at hno
        cases hno
      omega
    · exact hcross m hm' c hc hmu

theorem Ordered.insert (hB : B.Ordered) (h : B.Room i b evicted visits fst snd) (expected : Bool) {B' : Bundle}
    (hque : B'.que = fst ++ B.newNode i b expected :: snd)
    (hsize : B'.size = B.size - visits + 1)
    (hcnt : B'.matchCnt = B.matchCnt + if B.bundledStreams.length = 1 then 1 else 0)
    (hattr : B'.attr = B.attr) (hstreams : B'.bundledStreams = B.bundledStreams) :
    B'.Ordered := by
  obtain ⟨hmatched, hlen, hunm⟩ := h.counts hB
  have hvisits := h.visits_eq hB
  rw [countP_append] at hmatched hunm
  rw [length_append] at hlen
  refine ⟨?_, ?_, ?_, fun hmax => ?_, fun hone m hm => ?_⟩
  · rw [hque]
    refine h.order hB rfl (fun hne => ?_) fun hone => ?_
    · simp [newNode, hne]
    · simp [newNode, hone]
  · rw [hcnt, hque]
    simp only [countP_append, countP_cons, newNode, beq_iff_eq]
    omega
  · rw [hsize, hque]
    simp only [length_append, length_cons]
    omega
  · rw [hattr] at hmax ⊢
    have hnew : B'.unmatched ≤ B.unmatched - evicted.toList.length + 1 := by
      simp only [unmatched]
      rw [hque]
      simp only [countP_append, countP_cons]
      split <;> simp only [unmatched] at hunm <;> omega
    have hroom := hB.room hmax
    cases evicted with
    | none =>
      have hle : B.unmatched % 256 ≤ B.attr.maxUnmatchedFrames := (h.calm rfl).2
      rw [Nat.mod_eq_of_lt (by omega)] at hle
      simp only [toList_none, length_nil] at hnew
      omega
    | some x =>
      simp only [toList_some, length_singleton] at hnew hunm
      omega
  · rw [hstreams] at hone
    rw [hque] at hm
    simp only [mem_append, mem_cons] at hm
    have hold : ∀ c ∈ fst ++ snd, c.matched = true := fun c hc => hB.single hone c (h.mem hc)
    rcases hm with hm | rfl | hm
    · exact hold m (mem_append_left snd hm)
    · simp [newNode, hone]
    · exact hold m (mem_append_right fst hm)

end Room

/-! ### The steps -/

/-- **A step that fits keeps the queue in order.** -/
theorem Step.ordered {a : Act} (h : Step B a B') (ha : a.Fits B) (hB : B.Ordered) : B'.Ordered := by
  cases h with
  | flush camType hq => exact hB.remove (hq.trans (nil_append _).symm) rfl rfl rfl rfl rfl
  | dequeue hq hm => exact hB.remove (hq.trans (nil_append _).symm) rfl rfl rfl rfl rfl
  | dequeueFrame hq hm => exact hB.remove hq rfl rfl (by rw [if_pos hm]) rfl rfl
  | send hq hm hd => exact hB.remove (hq.trans (nil_append _).symm) rfl rfl rfl rfl rfl
  | discard => exact ⟨hB.order, hB.matchCnt, hB.size, hB.room, hB.single⟩
  | @taken i b pre post n h hs =>
    obtain ⟨hle, hpre⟩ := ha pre n post h
    have hframe : (MmChannel.resetMetaOnly n b.frameIdx).frameIdx = (n.put i b).frameIdx := rfl
    have hmatched : (MmChannel.resetMetaOnly n b.frameIdx).matched = false := by
      simp only [MmChannel.resetMetaOnly]
      split <;> exact h.unmatched
    exact hB.replace h.que h.unmatched hmatched (hframe ▸ hle) (hframe ▸ hpre)
      rfl rfl rfl rfl rfl
  | @keep i b pre post n h hs hopen expected =>
    obtain ⟨hle, hpre⟩ := ha pre n post h
    have hmatched : { n.put i b with matched := false, expectedFrame := expected }.matched =
        false := rfl
    exact hB.replace h.que h.unmatched hmatched hle hpre rfl rfl rfl rfl rfl
  | @complete i b pre post n h hs hfull =>
    obtain ⟨-, hpre⟩ := ha pre n post h
    have hbound := put_frameIdx_le h.joins
    refine hB.complete h.que h.unmatched rfl (fun m hm hmu => ?_) rfl rfl rfl rfl rfl
    exact lt_of_lt_of_le (hpre m hm hmu) hbound
  | insert h expected =>
    simp only
    split
    · rename_i hone
      exact hB.insert h expected rfl rfl (by simp [hone, countMatch, evict, qbufs, log])
        rfl rfl
    · rename_i hone
      exact hB.insert h expected rfl rfl (by simp [hone, evict, qbufs, log]) rfl rfl
  | noMemory h =>
    have hevict := hB.evict h
    exact ⟨hevict.order, hevict.matchCnt, hevict.size, hevict.room, hevict.single⟩

theorem put_frameIdx_of_not_low {i : ℕ} {b : MmCameraBufInfo} (hj : B.joins i b n = true)
    (hp : B.attr.priority ≠ .low) :
    (n.put i b).frameIdx = b.frameIdx ∧ n.frameIdx = b.frameIdx := by
  have hframe : n.frameIdx = b.frameIdx := by
    rcases joins_cases hj with h | ⟨hlow, -⟩ | ⟨hlow, -⟩
    · exact h.symm
    · exact absurd hlow hp
    · exact absurd hlow hp
  rw [put_frameIdx]
  split
  · exact ⟨rfl, hframe⟩
  · exact ⟨hframe, hframe⟩

theorem fits_of_not_low (hB : B.Ordered) (hp : B.attr.priority ≠ .low) (a : Act) : a.Fits B := by
  cases a with
  | enqueue i b visits =>
    intro pre n post h
    obtain ⟨hput, hn⟩ := put_frameIdx_of_not_low h.joins hp
    rw [hput, ← hn]
    refine ⟨le_refl _, fun m hm hmu => ?_⟩
    have hcross := (pairwise_append.mp (h.que ▸ hB.order)).2.2
    exact (hcross m hm n mem_cons_self hmu).2
  | _ => trivial

theorem Ordered.head_matched (hB : B.Ordered) (hpos : 0 < B.matchCnt) :
    ∃ n rest, B.que = n :: rest ∧ n.matched = true := by
  rw [hB.matchCnt, countP_pos_iff] at hpos
  obtain ⟨m, hm, hmm⟩ := hpos
  cases hq : B.que with
  | nil => simp [hq] at hm
  | cons n rest =>
    refine ⟨n, rest, rfl, ?_⟩
    have hord := pairwise_cons.mp (hq ▸ hB.order)
    rcases mem_cons.mp (hq ▸ hm) with rfl | hm
    · exact hmm
    · by_contra hn
      rw [(hord.1 m hm (eq_false_iff.mpr hn)).1] at hmm
      cases hmm

theorem Ordered.split (hB : B.Ordered) : ∃ front back, B.que = front ++ back ∧ (∀ n ∈ front, n.matched = true) ∧
      (∀ n ∈ back, n.matched = false) ∧
      back.Pairwise (fun m n => m.frameIdx < n.frameIdx) ∧ back.length = B.unmatched := by
  have hord := hB.order
  simp only [unmatched]
  generalize B.que = que at hord
  clear hB
  induction que with
  | nil => exact ⟨[], [], rfl, by simp, by simp, List.Pairwise.nil, rfl⟩
  | cons m que ih =>
    obtain ⟨hm, hrest⟩ := pairwise_cons.mp hord
    cases hmm : m.matched with
    | true =>
      obtain ⟨front, back, rfl, hf, hb, hp, hl⟩ := ih hrest
      refine ⟨m :: front, back, rfl, fun n hn => ?_, hb, hp, by simpa [hmm] using hl⟩
      rcases mem_cons.mp hn with rfl | hn
      · exact hmm
      · exact hf n hn
    | false =>
      have hall : ∀ n ∈ m :: que, n.matched = false := by
        intro n hn
        rcases mem_cons.mp hn with rfl | hn
        · exact hmm
        · exact (hm n hn hmm).1
      refine ⟨[], m :: que, rfl, by simp, hall, ?_, ?_⟩
      · exact hord.imp_of_mem fun hn _ h => (h (hall _ hn)).2
      · exact (countP_eq_length.mpr fun n hn => by simp [hall n hn]).symm

end Bundle

/-! ### The loops guarded by `match_cnt` -/

namespace MmChannel

variable {bound : ℕ} {ch ch' : MmChannel}

theorem superbufReduceBody_yield (hord : ch.bundle.Ordered)
    (h : superbufReduceBody bound ch = .yield ch') : ch'.bundle.Ordered ∧ ch'.queue.matchCnt < ch.queue.matchCnt := by
  unfold superbufReduceBody at h
  split at h
  · rename_i hlt
    obtain ⟨n, rest, hq, hm⟩ := hord.head_matched (Nat.zero_lt_of_lt hlt)
    have hqueue : ch.queue.que = n :: rest := hq
    rcases superbufDequeueInternal_cases ch true with ⟨-, hfail⟩ | ⟨m, rest', hq', -, hd⟩
    · rcases hfail with h0 | ⟨m, rest', hq', -, hmu⟩
      · rw [hqueue] at h0
        cases h0
      · rw [hqueue, cons.injEq] at hq'
        rw [← hq'.1, hm] at hmu
        cases hmu
    · rw [hqueue, cons.injEq] at hq'
      obtain ⟨rfl, rfl⟩ := hq'
      simp only [hd, ForInStep.yield.injEq] at h
      subst h
      constructor
      · have hstep := dequeue_qbufs_step .default hqueue
        rw [flushedBufs_default] at hstep
        exact hstep.ordered trivial hord
      · simp only [qbufs_queue, afterDequeue_matchCnt, hm, if_true]
        omega
  · cases h

theorem superbufReduceBody_done (h : superbufReduceBody bound ch = .done ch') : ch'.queue.matchCnt ≤ bound := by
  unfold superbufReduceBody at h
  split at h
  · split at h <;> cases h
  · cases h
    omega

theorem superbufReduce_returns (hord : ch.bundle.Ordered) (bound : ℕ) :
    ∃ fuel ch', Loop.run (superbufReduceBody bound) fuel ch = some ch' ∧ ch'.queue.matchCnt ≤ bound := by
  obtain ⟨ch', h⟩ := Loop.returns_of_variant (I := fun ch : MmChannel => ch.bundle.Ordered)
    (fun ch => ch.queue.matchCnt)
    (fun _ _ => superbufReduceBody_yield) hord
  refine ⟨_, ch', h, ?_⟩
  exact Loop.run_induction (I := fun _ => True) (Q := fun ch' : MmChannel => ch'.queue.matchCnt ≤ bound)
    (fun _ _ _ _ => trivial) (fun _ _ _ hdone => superbufReduceBody_done hdone) trivial h

theorem superbufSkip_returns (hord : ch.bundle.Ordered) :
    ∃ fuel ch', ch.superbufSkip fuel = some ch' ∧ (ch.queue.attr.notifyMode ≠ .continuous →
        ch'.queue.matchCnt ≤ ch.queue.attr.lookBack) := by
  by_cases hc : ch.queue.attr.notifyMode = .continuous
  · exact ⟨0, ch, by simp [superbufSkip, hc], fun h => absurd hc h⟩
  · obtain ⟨fuel, ch', h, hle⟩ := superbufReduce_returns hord ch.queue.attr.lookBack
    exact ⟨fuel, ch', by simp [superbufSkip, hc, h], fun _ => hle⟩

theorem superbufBufdoneOverflow_returns (hord : ch.bundle.Ordered) :
    ∃ fuel ch', ch.superbufBufdoneOverflow fuel = some ch' ∧
      (ch.queue.attr.notifyMode ≠ .continuous → ch'.queue.matchCnt ≤ ch.queue.attr.waterMark) := by
  by_cases hc : ch.queue.attr.notifyMode = .continuous
  · exact ⟨0, ch, by simp [superbufBufdoneOverflow, hc], fun h => absurd hc h⟩
  · obtain ⟨fuel, ch', h, hle⟩ := superbufReduce_returns hord ch.queue.attr.waterMark
    exact ⟨fuel, ch', by simp [superbufBufdoneOverflow, hc, h], fun _ => hle⟩

/-! ### Runs of the queue functions -/

/-- The functions of the super-buffer queue. -/
inductive SuperbufOp
  | compAndEnqueue (bufInfo : MmCameraBufInfo)
  | dequeue
  | dequeueFrameInternal (frameIdx : ℕ)
  | flush (camType : CamStreamType)
  | flushMatched
  | skip
  | bufdoneOverflow

/-- One call of a function of the queue, with whatever budget its loop needs. -/
def SuperbufStep (ch : MmChannel) : SuperbufOp → MmChannel → Prop
  | .compAndEnqueue bufInfo, ch' => (ch.superbufCompAndEnqueue bufInfo).2 = ch'
  | .dequeue, ch' => ch.superbufDequeue.2 = ch'
  | .dequeueFrameInternal frameIdx, ch' => (ch.superbufDequeueFrameInternal frameIdx).2 = ch'
  | .flush camType, ch' => ch.superbufFlush camType = ch'
  | .flushMatched, ch' => ch.superbufFlushMatched = ch'
  | .skip, ch' => ∃ fuel, ch.superbufSkip fuel = some ch'
  | .bufdoneOverflow, ch' => ∃ fuel, ch.superbufBufdoneOverflow fuel = some ch'

/-- The steps of the bundle in a call of a function of the queue. -/
def OpAct (ch : MmChannel) (op : SuperbufOp) : Bundle.Act → Prop
  | .enqueue i b visits => op = .compAndEnqueue b ∧
      ch.queue.bundledStreams.findIdx? (b.streamId == ·) = some i ∧
      (ch.releasesTwice b = false → visits ≤ 1)
  | _ => True

theorem superbufStep_reaches {op : SuperbufOp} (h : SuperbufStep ch op ch') :
    Reaches Bundle.Step (OpAct ch op) ch.bundle ch'.bundle := by
  have hflush : ∀ {B B' : Bundle} {camType : CamStreamType}, Reaches Bundle.Step (· = .flush camType) B B' →
      Reaches Bundle.Step (OpAct ch op) B B' :=
    fun hf => hf.mono fun a ha => ha ▸ trivial
  cases op with
  | compAndEnqueue b =>
    subst h
    cases hi : ch.queue.bundledStreams.findIdx? (b.streamId == ·) with
    | none =>
      rw [superbufCompAndEnqueue_unbundled hi]
      exact Reaches.refl _
    | some i =>
      obtain ⟨B, visits, hf, hv, hs⟩ := superbufCompAndEnqueue_steps hi
      exact (hflush hf).trans (Reaches.single hs ⟨rfl, hi, hv⟩)
  | dequeue =>
    subst h
    rcases superbufDequeue_steps ch with hd | ⟨n, -, hs⟩
    · rw [hd]
      exact Reaches.refl _
    · exact Reaches.single hs trivial
  | dequeueFrameInternal frameIdx =>
    subst h
    rcases superbufDequeueFrameInternal_steps ch frameIdx with hd | ⟨n, -, -, hs⟩
    · rw [hd]
      exact Reaches.refl _
    · exact Reaches.single hs trivial
  | flush camType => exact h ▸ hflush (superbufFlush_reaches ch camType)
  | flushMatched => exact h ▸ hflush (superbufFlushMatched_reaches ch)
  | skip =>
    obtain ⟨fuel, h⟩ := h
    exact hflush (superbufSkip_reaches h)
  | bufdoneOverflow =>
    obtain ⟨fuel, h⟩ := h
    exact hflush (superbufBufdoneOverflow_reaches h)

/-- The channel after a list of buffers was enqueued. -/
def enqueueAll (ch : MmChannel) (bs : List MmCameraBufInfo) : MmChannel :=
  bs.foldl (fun ch b => (ch.superbufCompAndEnqueue b).2) ch

theorem run_enqueueAll (ch : MmChannel) (bs : List MmCameraBufInfo) :
    Run SuperbufStep ch (bs.map .compAndEnqueue) (ch.enqueueAll bs) := by
  induction bs generalizing ch with
  | nil => exact Run.nil
  | cons b bs ih => exact (Run.single (a := .compAndEnqueue b) rfl).trans (ih _)

/-- The empty queue is in order. -/
theorem EmptyQueue.ordered (h : ch.EmptyQueue) : ch.bundle.Ordered := by
  have hque : ch.bundle.que = [] := h.que
  refine ⟨?_, ?_, ?_, ?_, ?_⟩
  · simp [hque]
  · rw [hque]
    exact h.matchCnt
  · rw [hque]
    exact h.size
  · simp [Bundle.unmatched, hque]
  · simp [hque]

variable {ch₀ : MmChannel}

theorem superbuf_run_invariant {ops : List SuperbufOp} (hprio : ch₀.queue.attr.priority ≠ .low) (h₀ : ch₀.EmptyQueue)
    (hrun : Run SuperbufStep ch₀ ops ch) :
    ch.bundle.attr = ch₀.bundle.attr ∧ ch.bundle.Ordered := by
  refine hrun.invariant (I := fun ch : MmChannel => ch.bundle.attr = ch₀.bundle.attr ∧ ch.bundle.Ordered) ?_
    ⟨rfl, h₀.ordered⟩
  intro ch₁ op ch₂ h₁ hstep
  refine (superbufStep_reaches hstep).invariant (I := fun B => B.attr = ch₀.bundle.attr ∧ B.Ordered) ?_ h₁
  rintro B a B' - ⟨hattr, hB⟩ hs
  refine ⟨hs.fixed.2.trans hattr, hs.ordered (Bundle.fits_of_not_low hB ?_ a) hB⟩
  rw [hattr]
  exact hprio

/-- **The super-buffer queue is in order**, in every reachable state of a channel without
low priority: matched nodes in front, at most `max_unmatched_frames + 1` unmatched ones
behind with increasing frame indices, and counters that count them. So the loops of
`bufdone_overflow` and `skip` end. -/
theorem superbuf_run_ordered {ch₀ ch : MmChannel} {ops : List SuperbufOp} (hprio : ch₀.queue.attr.priority ≠ .low)
    (hmax : ch₀.queue.attr.maxUnmatchedFrames < 255) (h₀ : ch₀.EmptyQueue)
    (hrun : Run SuperbufStep ch₀ ops ch) :
    (∃ front back, ch.queue.que = front ++ back ∧ (∀ n ∈ front, n.matched = true) ∧ (∀ n ∈ back, n.matched = false) ∧
      back.Pairwise (fun m n => m.frameIdx < n.frameIdx) ∧
      back.length ≤ ch₀.queue.attr.maxUnmatchedFrames + 1) ∧
    ch.queue.matchCnt = ch.queue.que.countP (·.matched) ∧
    ch.queue.size = ch.queue.que.length ∧
    (∃ fuel ch', ch.superbufBufdoneOverflow fuel = some ch' ∧
      (ch.queue.attr.notifyMode ≠ .continuous → ch'.queue.matchCnt ≤ ch.queue.attr.waterMark)) ∧
    ∃ fuel ch', ch.superbufSkip fuel = some ch' ∧ (ch.queue.attr.notifyMode ≠ .continuous →
        ch'.queue.matchCnt ≤ ch.queue.attr.lookBack) := by
  obtain ⟨hattr, hord⟩ := superbuf_run_invariant hprio h₀ hrun
  refine ⟨?_, hord.matchCnt, hord.size, superbufBufdoneOverflow_returns hord, superbufSkip_returns hord⟩
  obtain ⟨front, back, hq, hfront, hback, hlt, hlen⟩ := hord.split
  refine ⟨front, back, hq, hfront, hback, hlt, hlen ▸ ?_⟩
  have hroom := hord.room
  rw [hattr] at hroom
  exact hroom hmax

/-- One complete and two incomplete super-buffers, in order. -/
theorem superbuf_run_ordered_sample : ∃ ch, Run SuperbufStep (sampleChannel .normal) ([previewBuf 2, previewBuf 1,
        snapshotBuf 1, metadataBuf 1, previewBuf 3].map .compAndEnqueue) ch ∧
      ch.queue.matchCnt = 1 ∧ ch.queue.size = 3 ∧
      ∃ front back, ch.queue.que = front ++ back ∧ (∀ n ∈ front, n.matched = true) ∧ (∀ n ∈ back, n.matched = false) ∧
        back.Pairwise (fun m n => m.frameIdx < n.frameIdx) ∧ back.length ≤ 6 := by
  have hrun := run_enqueueAll (sampleChannel .normal)
    [previewBuf 2, previewBuf 1, snapshotBuf 1, metadataBuf 1, previewBuf 3]
  obtain ⟨hsplit, -⟩ := superbuf_run_ordered (by decide) (by decide) ⟨rfl, rfl, rfl⟩ hrun
  exact ⟨_, hrun, by decide, by decide, hsplit⟩

/-! ### Low priority -/

/-- The buffer joins a metadata-only node, and an unmatched node of a later frame than the
buffer is in front of it. -/
def joinsBehindNewer (ch : MmChannel) (b : MmCameraBufInfo) : Bool :=
  match ch.queue.bundledStreams.findIdx? (b.streamId == ·) with
  | none => false
  | some bufSIdx =>
    match ((ch.handleMetadata b).2.scan bufSIdx b).superBuf with
    | none => false
    | some n => decide (0 < n.unmatchedMetaIdx) &&
        ((ch.handleMetadata b).2.scan bufSIdx b).insertBeforeBuf.isSome

/-- The calls that do not put a buffer behind a node of a later frame. -/
def KeepsOrder (ch : MmChannel) (op : SuperbufOp) : Prop :=
  ∀ b, op = .compAndEnqueue b → ch.joinsBehindNewer b = false

variable {metaIdx : ℕ}

theorem fits_of_keepsOrder {bufSIdx visits : ℕ} {b : MmCameraBufInfo} (hord : ch.bundle.Ordered)
    (hw : ∀ n ∈ ch.bundle.que, n.WellFormed ch.bundle.bundledStreams)
    (hal : ∀ n ∈ ch.bundle.que, n.Aligned (ch.bundle.attr.priority = .low) metaIdx)
    (hkind : ch.bundle.attr.priority = .low → (b.buf.streamType = .metadata ↔ bufSIdx = metaIdx))
    (hnew : ∀ n, (ch.scan bufSIdx b).superBuf = some n → 0 < n.unmatchedMetaIdx →
      (ch.scan bufSIdx b).insertBeforeBuf = none) :
    (Bundle.Act.enqueue bufSIdx b visits).Fits ch.bundle := by
  intro pre n post h
  have hcross : ∀ m ∈ pre, m.matched = false → m.frameIdx < n.frameIdx := fun m hm hmu =>
    ((List.pairwise_append.mp (h.que ▸ hord.order)).2.2 m hm n List.mem_cons_self hmu).2
  rw [put_frameIdx]
  split
  · rename_i hmeta
    obtain ⟨hown, ⟨c, hc⟩, -⟩ := (hal n h.mem).metaOnly hmeta
    rcases Bundle.joins_cases h.joins with heq | ⟨hlow, h0, htype, -⟩ | ⟨-, -, -, hlt⟩
    · exact ⟨heq.le, heq ▸ hcross⟩
    · -- metadata joins no metadata-only node: its slot is taken there
      have hslot := (hw n h.mem).slotFrameIdx_eq_zero.mp h0
      exact absurd ((hkind hlow).mp htype ▸ hc) (hslot c)
    · refine ⟨by omega, fun m hm hmu => ?_⟩
      obtain ⟨hscan, hins⟩ := found_scan h
      rw [hnew n hscan hmeta] at hins
      have hnewer := List.findIdx?_eq_none_iff.mp hins.symm m hm
      simp only [isNewer, hmu, Bool.not_false, Bool.true_and,
        decide_eq_false_iff_not, not_lt] at hnewer
      have hne : b.frameIdx ≠ m.frameIdx := by
        intro heq
        have hno := h.passed m hm hmu
        rw [Bundle.joins_of_eq heq] at hno
        cases hno
      omega
  · exact ⟨le_refl _, hcross⟩

/-- The metadata buffers among the calls are those of one stream. -/
def OneMetaStream (streams : List ℕ) (metaHdl : ℕ) (ops : List SuperbufOp) : Prop :=
  ∀ b, .compAndEnqueue b ∈ ops → b.streamId ∈ streams → (b.buf.streamType = .metadata ↔ b.streamId = metaHdl)

/-- What holds of the bundle of a channel in the runs that keep the order: the streams and
attributes are those of `ch₀`, the queue is in order, and its nodes are well formed and aligned. -/
structure InOrder (ch₀ : MmChannel) (metaIdx : ℕ) (B : Bundle) : Prop where
  streams : B.bundledStreams = ch₀.bundle.bundledStreams
  attr : B.attr = ch₀.bundle.attr
  ordered : B.Ordered
  wellFormed : ∀ n ∈ B.que, n.WellFormed B.bundledStreams
  aligned : ∀ n ∈ B.que, n.Aligned (B.attr.priority = .low) metaIdx

/-- A step that fits keeps it. -/
theorem InOrder.step {B B' : Bundle} {a : Bundle.Act}
    (hB : InOrder ch₀ metaIdx B) (h : Bundle.Step B a B') (hfits : a.Fits B)
    (hproper : a.Proper B metaIdx) : InOrder ch₀ metaIdx B' :=
  ⟨h.fixed.1.trans hB.streams, h.fixed.2.trans hB.attr, h.ordered hfits hB.ordered,
    h.wellFormed hproper.1 hB.wellFormed, h.aligned hproper hB.wellFormed hB.aligned⟩

theorem InOrder.flush {B B' : Bundle} (hB : InOrder ch₀ metaIdx B) (h : Flushes B B') : InOrder ch₀ metaIdx B' :=
  h.invariant (fun _ _ _ ha hI hs => hI.step hs (ha ▸ trivial)
    (Bundle.Act.proper_of_ne fun _ _ _ h => by rw [ha] at h; cases h)) hB

theorem InOrder.superbufStep {metaHdl : ℕ} {op : SuperbufOp}
    (hB : InOrder ch₀ (ch₀.queue.bundledStreams.findIdx (metaHdl == ·)) ch.bundle)
    (hmeta : OneMetaStream ch₀.queue.bundledStreams metaHdl [op])
    (hkeep : ch.KeepsOrder op) (h : SuperbufStep ch op ch') :
    InOrder ch₀ (ch₀.queue.bundledStreams.findIdx (metaHdl == ·)) ch'.bundle := by
  cases op with
  | compAndEnqueue b =>
    subst h
    cases hi : ch.queue.bundledStreams.findIdx? (b.streamId == ·) with
    | none =>
      rw [superbufCompAndEnqueue_unbundled hi]
      exact hB
    | some i =>
      rcases superbufCompAndEnqueue_cases hi with ⟨B, hf, hret⟩ | ⟨hb, -, hcomp⟩
      · have hBf := hB.flush hf
        rw [hret]
        exact ⟨hBf.streams, hBf.attr, ⟨hBf.ordered.order, hBf.ordered.matchCnt,
          hBf.ordered.size, hBf.ordered.room, hBf.ordered.single⟩, hBf.wellFormed,
          hBf.aligned⟩
      · have hBm := hB.flush (handleMetadata_reaches ch b)
        set ch₁ := (ch.handleMetadata b).2 with h₁
        have hi₀ : ch₀.queue.bundledStreams.findIdx? (b.streamId == ·) = some i :=
          (congrArg (findIdx? (b.streamId == ·)) hB.streams).symm.trans hi
        have hslot := ChannelThread.stream_of_slot hi₀
        have hin : ch₁.bundle.bundledStreams[i]? = some b.streamId := by
          rw [hBm.streams]
          exact hslot
        have hkind : b.buf.streamType = .metadata ↔ i = ch₀.queue.bundledStreams.findIdx (metaHdl == ·) := by
          rw [ChannelThread.slot_eq_iff hi₀]
          exact hmeta b (by simp) (mem_of_getElem? hslot)
        have hnew : ∀ n, (ch₁.scan i b).superBuf = some n → 0 < n.unmatchedMetaIdx →
            (ch₁.scan i b).insertBeforeBuf = none := by
          intro n hn hpos
          have hkb := hkeep b rfl
          simpa [joinsBehindNewer, hi, ← h₁, hn, hpos] using hkb
        rw [hcomp]
        refine hBm.step (superbufComp_step hb) ?_ ⟨hin, ?_⟩
        swap
        · rintro _ _ _ ⟨⟩ -
          exact hkind
        exact fits_of_keepsOrder hBm.ordered hBm.wellFormed hBm.aligned (fun _ => hkind) hnew
  | _ =>
    refine (superbufStep_reaches h).invariant (fun B a B' ha hI hs => ?_) hB
    cases a with
    | enqueue i b visits => cases ha.1
    | _ => exact hI.step hs trivial (Bundle.Act.proper_of_ne (by simp))

theorem keepsOrder_run_invariant {ops : List SuperbufOp} {metaHdl : ℕ}
    (h₀ : ch₀.EmptyQueue) (hmeta : OneMetaStream ch₀.queue.bundledStreams metaHdl ops)
    (hrun : Run (guarded KeepsOrder SuperbufStep) ch₀ ops ch) :
    InOrder ch₀ (ch₀.queue.bundledStreams.findIdx (metaHdl == ·)) ch.bundle := by
  refine hrun.history (P := fun ops ch => OneMetaStream ch₀.queue.bundledStreams metaHdl ops →
    InOrder ch₀ (ch₀.queue.bundledStreams.findIdx (metaHdl == ·)) ch.bundle) ?_ ?_ hmeta
  · intro _
    have hque : ch₀.bundle.que = [] := h₀.que
    exact ⟨rfl, rfl, h₀.ordered, by simp [hque], by simp [hque]⟩
  · rintro ops ch₁ op ch₂ - ih ⟨hkeep, hstep⟩ hmeta
    have hprev : OneMetaStream ch₀.queue.bundledStreams metaHdl ops :=
      fun b hb => hmeta b (mem_append_left _ hb)
    have hlast : OneMetaStream ch₀.queue.bundledStreams metaHdl [op] :=
      fun b hb => hmeta b (mem_append_right _ hb)
    exact (ih hprev).superbufStep hlast hkeep hstep

/-- **Low-priority bundling keeps the queue in order** in the runs in which no buffer joins
a metadata-only node behind an unmatched node of a later frame: `match_cnt` counts the
matched nodes, the head is matched whenever there are any, and `skip` and
`bufdone_overflow` end whatever the attributes. -/
theorem lowPriority_run_ordered {ch₀ ch : MmChannel} {ops : List SuperbufOp} {metaHdl : ℕ}
    (h₀ : ch₀.EmptyQueue) (hmeta : OneMetaStream ch₀.queue.bundledStreams metaHdl ops)
    (hrun : Run (guarded KeepsOrder SuperbufStep) ch₀ ops ch) :
    ch.queue.matchCnt = ch.queue.que.countP (·.matched) ∧
    (0 < ch.queue.matchCnt → ∃ n rest, ch.queue.que = n :: rest ∧ n.matched = true) ∧
    (∀ lookBack, ∃ fuel ch', { ch with queue.attr.lookBack := lookBack }.superbufSkip fuel = some ch') ∧
    ∀ waterMark, ∃ fuel ch', { ch with queue.attr.waterMark := waterMark }.superbufBufdoneOverflow fuel = some ch' := by
  have hord := (keepsOrder_run_invariant h₀ hmeta hrun).ordered
  refine ⟨hord.matchCnt, hord.head_matched, fun lookBack => ?_, fun waterMark => ?_⟩
  · have hord' : { ch with queue.attr.lookBack := lookBack }.bundle.Ordered :=
      ⟨hord.order, hord.matchCnt, hord.size, hord.room, hord.single⟩
    obtain ⟨fuel, ch', h, -⟩ := superbufSkip_returns hord'
    exact ⟨fuel, ch', h⟩
  · have hord' : { ch with queue.attr.waterMark := waterMark }.bundle.Ordered :=
      ⟨hord.order, hord.matchCnt, hord.size, hord.room, hord.single⟩
    obtain ⟨fuel, ch', h, -⟩ := superbufBufdoneOverflow_returns hord'
    exact ⟨fuel, ch', h⟩

/-- A low-priority super-buffer with metadata of a later frame. -/
theorem lowPriority_run_ordered_sample : ∃ ch, Run (guarded KeepsOrder SuperbufStep) (sampleChannel .low)
        ([previewBuf 5, metadataBuf 6, snapshotBuf 5].map .compAndEnqueue) ch ∧
      ch.queue.matchCnt = 1 ∧ ch.queue.matchCnt = ch.queue.que.countP (·.matched) := by
  have hstep : ∀ ch b, ch.joinsBehindNewer b = false → Run (guarded KeepsOrder SuperbufStep) ch [.compAndEnqueue b]
        (ch.superbufCompAndEnqueue b).2 := by
    intro ch b hb
    refine Run.single ⟨fun c hc => ?_, rfl⟩
    cases hc
    exact hb
  have hrun := ((hstep (sampleChannel .low) (previewBuf 5) (by decide)).trans
    (hstep _ (metadataBuf 6) (by decide))).trans (hstep _ (snapshotBuf 5) (by decide))
  have hmeta : OneMetaStream [10, 11, 12] 12 ([previewBuf 5, metadataBuf 6, snapshotBuf 5].map .compAndEnqueue) := by
    simp [OneMetaStream, previewBuf, metadataBuf, snapshotBuf]
  exact ⟨_, hrun, by decide, (lowPriority_run_ordered ⟨rfl, rfl, rfl⟩ hmeta hrun).1⟩

theorem superbufReduce_diverges {n : MmChannelQueueNode}
    {rest : List MmChannelQueueNode} (hlt : bound < ch.queue.matchCnt)
    (hq : ch.queue.que = n :: rest) (hn : n.matched = false) :
    Loop.Diverges (superbufReduceBody bound) ch := by
  refine Loop.diverges_of_fixed ?_
  simp [superbufReduceBody, hlt, superbufDequeueInternal, hq, hn]

/-- At low priority, snapshot and preview of frame 3 join a metadata-only node behind the
node of frame 5. The completed node is not at the head, so that `skip` spins, and
`bufdone_overflow` does with a water mark of zero; and completing frame 7 releases it without counting it off. -/
theorem lowPriority_head_unmatched :
    (∃ ch, Run SuperbufStep (sampleChannel .low) ([previewBuf 5, metadataBuf 6, metadataBuf 9,
        snapshotBuf 3, previewBuf 3].map .compAndEnqueue) ch ∧
      0 < ch.queue.matchCnt ∧ (∃ n rest, ch.queue.que = n :: rest ∧ n.matched = false) ∧
      ∀ fuel, ch.superbufSkip fuel = none ∧ { ch with queue.attr.waterMark := 0 }.superbufBufdoneOverflow fuel = none) ∧
    ∃ ch, Run SuperbufStep (sampleChannel .low) ([previewBuf 5, metadataBuf 6, metadataBuf 9,
        snapshotBuf 3, previewBuf 3, previewBuf 7, snapshotBuf 7, metadataBuf 8].map .compAndEnqueue) ch ∧
      ch.queue.matchCnt = 2 ∧ ch.queue.que.countP (·.matched) = 1 := by
  refine ⟨⟨_, run_enqueueAll _ _, ?_⟩, ⟨_, run_enqueueAll _ _, by decide, by decide⟩⟩
  set ch := (sampleChannel .low).enqueueAll
    [previewBuf 5, metadataBuf 6, metadataBuf 9, snapshotBuf 3, previewBuf 3] with hch
  have hcnt : 0 < ch.queue.matchCnt := by
    rw [hch]
    decide
  have hhead : ch.queue.que.head?.map matched = some false := by
    rw [hch]
    decide
  obtain ⟨n, hn, hnm⟩ := map_eq_some_iff.mp hhead
  obtain ⟨rest, hq⟩ : ∃ rest, ch.queue.que = n :: rest :=
    ⟨ch.queue.que.tail, (cons_head?_tail hn).symm⟩
  have hspin := superbufReduce_diverges hcnt hq hnm
  have hspin' : Loop.Diverges (superbufReduceBody 0) { ch with queue.attr.waterMark := 0 } :=
    superbufReduce_diverges hcnt hq hnm
  have hmode : ¬ ch.queue.attr.notifyMode = .continuous := by
    rw [hch]
    decide
  refine ⟨hcnt, ⟨n, rest, hq, hnm⟩, fun fuel => ⟨?_, ?_⟩⟩
  · exact (if_neg hmode).trans (hspin fuel)
  · exact (if_neg hmode).trans (hspin' fuel)

end MmChannel

end Marlin
