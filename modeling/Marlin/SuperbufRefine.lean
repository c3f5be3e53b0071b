import Marlin.SuperbufBundle
import Mathlib.Data.List.TakeWhile
import Mathlib.Data.List.Perm.Basic

/-!
# The Channel Functions Refine the Bundle

Each function of the super-buffer queue is a run of `Bundle.Step` on `MmChannel.bundle`.

## Main results

* `superbufScan_eq`: the scan of the queue in closed form.
* `superbufComp_step`: an enqueue is one step, with the number of eviction rounds
  `evictionRounds` that the scan leads to.
* `superbufCompAndEnqueue_steps`, `superbufFlush_reaches`, `superbufSkip_reaches` and
  their kind: every function is a run of steps.
-/

namespace Marlin

open Option Marlin.Bundle MmChannelQueueNode List Function Transition

namespace MmChannel

/-! ### The scan in closed form -/

/-- The scan passes this node: it is matched, or the buffer does not join it. -/
def passes (join : MmChannelQueueNode → Bool) (n : MmChannelQueueNode) : Bool :=
  n.matched || !join n

theorem first_pass (p : MmChannelQueueNode → Bool) (n : MmChannelQueueNode)
    (rest : List MmChannelQueueNode) (first : Option ℕ) (pos : ℕ) :
    (if first = none ∧ p n = true then some pos else first).or ((rest.findIdx? p).map (pos + 1 + ·)) =
      first.or (((n :: rest).findIdx? p).map (pos + ·)) := by
  cases first with
  | some k => simp
  | none =>
    cases hp : p n with
    | true => simp [findIdx?_cons, hp]
    | false =>
      simp [findIdx?_cons, hp, Option.map_map, comp_def, Nat.add_assoc, Nat.add_comm 1]

theorem superbufScan_from (join : MmChannelQueueNode → Bool) (frameIdx : ℕ)
    (l : List MmChannelQueueNode) (s : SuperbufScan) (hs : s.superBuf = none)
    (hu : s.unmatchedBundles < 256) :
    superbufScan join frameIdx l s =
      { pos := s.pos + (l.takeWhile (passes join)).length
        superBuf := (l.dropWhile (passes join)).head?
        unmatchedBundles := (s.unmatchedBundles +
          (l.takeWhile (passes join)).countP fun n => !n.matched) % 256
        lastBuf := s.lastBuf.or (((l.takeWhile (passes join)).findIdx? (·.isOlder frameIdx)).map (s.pos + ·))
        insertBeforeBuf := s.insertBeforeBuf.or
          (((l.takeWhile (passes join)).findIdx? (·.isNewer frameIdx)).map (s.pos + ·)) } := by
  induction l generalizing s with
  | nil =>
    obtain ⟨pos, superBuf, unmatched, lastBuf, insertBefore⟩ := s
    simp only at hs hu
    simp [superbufScan, hs, Nat.mod_eq_of_lt hu]
  | cons n rest ih =>
    cases hm : n.matched with
    | true =>
      have hp : passes join n = true := by simp [passes, hm]
      simp only [superbufScan, hm, if_true]
      rw [ih { s with pos := s.pos + 1 } hs hu]
      simp [hp, hm, findIdx?_cons, isOlder, isNewer, Option.map_map, comp_def, Nat.add_assoc, Nat.add_comm 1]
    | false =>
      cases hj : join n with
      | true =>
        have hp : passes join n = false := by simp [passes, hm, hj]
        simp [superbufScan, hm, hj, hp, Nat.mod_eq_of_lt hu]
      | false =>
        have hp : passes join n = true := by simp [passes, hj]
        have ho := first_pass (·.isOlder frameIdx) n (rest.takeWhile (passes join)) s.lastBuf s.pos
        have hn := first_pass (·.isNewer frameIdx) n (rest.takeWhile (passes join)) s.insertBeforeBuf s.pos
        simp only [isOlder, isNewer, hm, Bool.not_false, Bool.true_and, decide_eq_true_eq] at ho hn
        simp only [superbufScan, hm, hj, Bool.false_eq_true, if_false]
        rw [ih _ rfl (Nat.mod_lt _ (by decide))]
        simp only [SuperbufScan.pass, takeWhile_cons_of_pos hp, dropWhile_cons_of_pos hp, length_cons, countP_cons, hm,
          isOlder, isNewer, ho, hn]
        congr 1
        · omega
        · simp only [Bool.not_false, if_true]
          omega

/-- **The scan in closed form**: it stops at the first unmatched node that the buffer
joins, and what it counted and noted is about the nodes before. -/
theorem superbufScan_eq (join : MmChannelQueueNode → Bool) (frameIdx : ℕ)
    (que : List MmChannelQueueNode) :
    superbufScan join frameIdx que {} =
      { pos := (que.takeWhile (passes join)).length
        superBuf := (que.dropWhile (passes join)).head?
        unmatchedBundles :=
          ((que.takeWhile (passes join)).countP fun n => !n.matched) % 256
        lastBuf := (que.takeWhile (passes join)).findIdx? (·.isOlder frameIdx)
        insertBeforeBuf := (que.takeWhile (passes join)).findIdx? (·.isNewer frameIdx) } := by
  rw [superbufScan_from join frameIdx que {} rfl (by decide)]
  simp

/-! ### The bundle after the building blocks -/

theorem bundle_call_control (ch : MmChannel) {a : Action} (ha : a.isTraffic = false) :
    (ch.call a).bundle = ch.bundle := by
  simp [bundle, call, ha]

theorem bundle_call_traffic (ch : MmChannel) {a : Action} (ha : a.isTraffic = true) :
    (ch.call a).bundle = ch.bundle.log [a] := by
  simp [bundle, call, log, ha]

@[simp] theorem bundle_qbufs (ch : MmChannel) (bs : List MmCameraBufDef) :
    (ch.qbufs bs).bundle = ch.bundle.qbufs bs := by
  have h : (bs.map Action.qbuf).filter Action.isTraffic = bs.map Action.qbuf := by
    simp [filter_eq_self, Action.isTraffic]
  simp [bundle, qbufs, Bundle.qbufs, Bundle.log, h]

@[simp] theorem bundle_afterDequeue (ch : MmChannel) (n : MmChannelQueueNode) (rest : List MmChannelQueueNode) :
    (ch.afterDequeue n rest).bundle = ch.bundle.pop n rest := by
  simp only [afterDequeue, Bundle.pop]
  cases n.matched <;> cases hf : ch.queue.attr.enableFrameSync <;>
    simp [bundle, call, Bundle.log, MmCameraChannelAttr.fixed, hf, Action.isTraffic]

@[simp] theorem bundle_countMatch (ch : MmChannel) (frameIdx : ℕ) :
    (ch.countMatch frameIdx).bundle = ch.bundle.countMatch frameIdx := by
  simp only [countMatch, Bundle.countMatch]
  cases hf : ch.queue.attr.enableFrameSync <;>
    simp [bundle, call, Bundle.log, MmCameraChannelAttr.fixed, hf, Action.isTraffic]

@[simp] theorem bundle_expectNext (ch : MmChannel) (frameIdx : ℕ) : (ch.expectNext frameIdx).bundle = ch.bundle := by
  unfold expectNext
  split <;> rfl

theorem staying_eq_take (frameIdx : ℕ) (l : List MmChannelQueueNode) :
    MmChannelQueueNode.staying frameIdx l = l.take (l.findIdx (·.isOlder frameIdx)) := by
  simp [staying, takeWhile_eq_take_findIdx_not]

theorem released_eq_drop (frameIdx : ℕ) (l : List MmChannelQueueNode) :
    MmChannelQueueNode.released frameIdx l = l.drop (l.findIdx (·.isOlder frameIdx)) := by
  simp [released, dropWhile_eq_drop_findIdx_not]

variable {n : MmChannelQueueNode} {pre post : List MmChannelQueueNode}

theorem bundle_releaseOlder (ch : MmChannel) (frameIdx : ℕ) (hq : ch.queue.que = pre ++ n :: post) :
    (ch.releaseOlder (pre.findIdx? (·.isOlder frameIdx)) pre.length).bundle = { ch.bundle with
        que := staying frameIdx pre ++ n :: post
        size := ch.bundle.size - (released frameIdx pre).length }.qbufs
        ((released frameIdx pre).flatMap filledBufs) := by
  rw [staying_eq_take, released_eq_drop]
  cases hl : pre.findIdx? (·.isOlder frameIdx) with
  | none =>
    have hfind : pre.findIdx (·.isOlder frameIdx) = pre.length :=
      findIdx?_eq_none_iff_findIdx_eq.mp hl
    simp [releaseOlder, hfind, Bundle.qbufs, Bundle.log, bundle, hq]
  | some l =>
    obtain ⟨hlt, hfind⟩ := findIdx?_eq_some_iff_findIdx_eq.mp hl
    have htake : (pre ++ n :: post).take l = pre.take l :=
      take_append_of_le_length hlt.le
    have hb := bundle_qbufs ch ((pre.drop l).flatMap filledBufs)
    simp only [releaseOlder, hfind, hq, take_left]
    simp only [bundle, Bundle.qbufs, Bundle.log, qbufs_queue, Bundle.mk.injEq, true_and] at hb ⊢
    exact ⟨by rw [hq, htake, drop_left], hb⟩

/-! ### Joining a node -/

/-- The scan of a channel for a buffer. -/
def scan (ch : MmChannel) (bufSIdx : ℕ) (b : MmCameraBufInfo) : SuperbufScan :=
  superbufScan (joins ch.queue.attr.priority bufSIdx b) b.frameIdx ch.queue.que {}

variable {ch : MmChannel} {bufSIdx : ℕ} {b : MmCameraBufInfo}

theorem superbufComp_of_none (h : (ch.scan bufSIdx b).superBuf = none) :
    ch.superbufComp bufSIdx b = ch.insertNew bufSIdx b (ch.scan bufSIdx b) := by
  rw [scan] at h ⊢
  simp only [superbufComp, h]

theorem superbufComp_of_some (h : (ch.scan bufSIdx b).superBuf = some n) :
    ch.superbufComp bufSIdx b = ch.joinNode bufSIdx b (ch.scan bufSIdx b) n := by
  rw [scan] at h ⊢
  simp only [superbufComp, h]

theorem scan_found (hb : b.frameIdx ≠ 0) (h : (ch.scan bufSIdx b).superBuf = some n) :
    ∃ pre post, ch.bundle.Found bufSIdx b pre n post ∧
      (ch.scan bufSIdx b).pos = pre.length ∧
      (ch.scan bufSIdx b).lastBuf = pre.findIdx? (·.isOlder b.frameIdx) := by
  set p := passes (joins ch.queue.attr.priority bufSIdx b) with hp
  simp only [scan, superbufScan_eq, ← hp] at h ⊢
  obtain ⟨post, hpost⟩ : ∃ post, ch.queue.que.dropWhile p = n :: post := by
    cases hd : ch.queue.que.dropWhile p with
    | nil => simp [hd] at h
    | cons m post => exact ⟨post, by simp_all⟩
  have hn : p n = false := by
    have := head?_dropWhile_not p ch.queue.que
    simpa [hpost] using this
  simp only [hp, passes, Bool.or_eq_false_iff, Bool.not_eq_false'] at hn
  refine ⟨ch.queue.que.takeWhile p, post, ⟨hb, ?_, hn.1, hn.2, ?_⟩, rfl, rfl⟩
  · change ch.queue.que = _
    rw [← hpost, takeWhile_append_dropWhile]
  · intro m hm hmu
    have hpm := mem_takeWhile_imp hm
    simp only [hp, passes, hmu, Bool.false_or, Bool.not_eq_true'] at hpm
    exact hpm

variable {s : SuperbufScan}

theorem bundle_completeNode {frameIdx : ℕ} (hq : ch.queue.que = pre ++ n :: post) (hpos : s.pos = pre.length)
    (hlast : s.lastBuf = pre.findIdx? (·.isOlder frameIdx)) (n' : MmChannelQueueNode) :
    (ch.completeNode s frameIdx n').bundle = ({ ch.bundle with
          que := staying frameIdx pre ++ { n' with matched := true, expectedFrame := false } :: post
          size := ch.bundle.size - (released frameIdx pre).length
        }.countMatch frameIdx).qbufs
        ((released frameIdx pre).flatMap filledBufs) := by
  set ch₁ := { ch.expectNext frameIdx with
    queue.que := pre ++ { n' with matched := true, expectedFrame := false } :: post } with h₁
  have hexp : (ch.expectNext frameIdx).queue.que = pre ++ n :: post :=
    (congrArg que (bundle_expectNext ch frameIdx)).trans hq
  have hcomplete : ch.completeNode s frameIdx n' =
      (ch₁.countMatch frameIdx).releaseOlder (pre.findIdx? (·.isOlder frameIdx)) pre.length := by
    simp [completeNode, hexp, hpos, hlast, h₁]
  have hb₁ : ch₁.bundle = { ch.bundle with
      que := pre ++ { n' with matched := true, expectedFrame := false } :: post } := by
    rw [← bundle_expectNext ch frameIdx]
    rfl
  have hque : (ch₁.countMatch frameIdx).queue.que = ch₁.queue.que :=
    congrArg que (bundle_countMatch ch₁ frameIdx)
  rw [hcomplete, bundle_releaseOlder _ _ hque, bundle_countMatch, hb₁]
  rfl

theorem found_scan (h : ch.bundle.Found bufSIdx b pre n post) :
    (ch.scan bufSIdx b).superBuf = some n ∧
    (ch.scan bufSIdx b).insertBeforeBuf = pre.findIdx? (·.isNewer b.frameIdx) := by
  set p := passes (joins ch.queue.attr.priority bufSIdx b) with hp
  have hq : ch.queue.que = pre ++ n :: post := h.que
  have hpre : ∀ m ∈ pre, p m = true := by
    intro m hm
    cases hmm : m.matched with
    | true => simp [hp, passes, hmm]
    | false =>
      have hno : joins ch.queue.attr.priority bufSIdx b m = false := h.passed m hm hmm
      simp [hp, passes, hno]
  have hn : p n = false := by
    have hj : joins ch.queue.attr.priority bufSIdx b n = true := h.joins
    simp [hp, passes, h.unmatched, hj]
  simp only [scan, superbufScan_eq, ← hp]
  rw [hq, dropWhile_append_of_pos hpre, takeWhile_append_of_pos hpre]
  simp [hn]

theorem joinNode_step (h : ch.bundle.Found bufSIdx b pre n post) (hpos : s.pos = pre.length)
    (hlast : s.lastBuf = pre.findIdx? (·.isOlder b.frameIdx)) :
    Bundle.Step ch.bundle (.enqueue bufSIdx b 0) (ch.joinNode bufSIdx b s n).bundle := by
  have hq : ch.queue.que = pre ++ n :: post := h.que
  have hset : ∀ m, ch.queue.que.set s.pos m = pre ++ m :: post := by
    intro m
    simp [hq, hpos]
  have hslot : (resetMetaOnly n b.frameIdx).slotFrameIdx bufSIdx = n.slotFrameIdx bufSIdx := by
    simp only [resetMetaOnly, slotFrameIdx]
    split <;> rfl
  have hput : { resetMetaOnly n b.frameIdx with
      superBuf := (resetMetaOnly n b.frameIdx).superBuf.set bufSIdx (some b) } =
      n.put bufSIdx b := by
    simp only [resetMetaOnly, put]
    split <;> rfl
  simp only [joinNode, hslot, hput]
  by_cases hs : n.slotFrameIdx bufSIdx = 0
  · rw [if_neg (not_not.mpr hs)]
    cases hfull : (n.put bufSIdx b).allFilled with
    | true =>
      rw [if_pos rfl, bundle_completeNode h.que hpos hlast]
      exact Bundle.Step.complete h hs hfull
    | false =>
      have hstep := Bundle.Step.keep h hs hfull
      rw [if_neg Bool.false_ne_true, keepNode]
      split
      · exact hset _ ▸ hstep true
      · exact hset _ ▸ hstep _
  · rw [if_pos hs, bundle_qbufs]
    exact hset _ ▸ Bundle.Step.taken h hs

/-! ### A new node -/

theorem scan_none (h : (ch.scan bufSIdx b).superBuf = none) :
    (∀ m ∈ ch.bundle.que, m.matched = false → ch.bundle.joins bufSIdx b m = false) ∧
    (ch.scan bufSIdx b).unmatchedBundles = ch.bundle.unmatched % 256 ∧
    (ch.scan bufSIdx b).lastBuf = ch.queue.que.findIdx? (·.isOlder b.frameIdx) ∧
    (ch.scan bufSIdx b).insertBeforeBuf = ch.queue.que.findIdx? (·.isNewer b.frameIdx) := by
  set p := passes (joins ch.queue.attr.priority bufSIdx b) with hp
  simp only [scan, superbufScan_eq, ← hp] at h ⊢
  have hall : ∀ m ∈ ch.queue.que, p m = true :=
    dropWhile_eq_nil_iff.mp (head?_eq_none_iff.mp h)
  rw [takeWhile_eq_self_iff.mpr hall]
  refine ⟨fun m hm hmu => ?_, rfl, rfl, rfl⟩
  have hpm := hall m hm
  simp only [hp, passes, hmu, Bool.false_or, Bool.not_eq_true'] at hpm
  exact hpm

variable {k : ℕ}

theorem evictable_some {insertBefore : Option ℕ} {l : List MmChannelQueueNode} {i : ℕ}
    (h : evictable insertBefore l i = some (k, n)) :
    i ≤ k ∧ l[k - i]? = some n ∧ insertBefore ≠ some k := by
  induction l generalizing i with
  | nil => simp [evictable] at h
  | cons m rest ih =>
    simp only [evictable] at h
    split at h
    · simp only [some.injEq, Prod.mk.injEq] at h
      obtain ⟨rfl, rfl⟩ := h
      rename_i hm
      simpa using hm.2
    · obtain ⟨hle, hget, hne⟩ := ih h
      refine ⟨by omega, ?_, hne⟩
      obtain ⟨d, rfl⟩ : ∃ d, k = i + 1 + d := ⟨k - (i + 1), by omega⟩
      simpa [show i + 1 + d - i = d + 1 by omega] using hget

theorem evictee_some {visits : ℕ} {x : MmChannelQueueNode} (h : ch.evictee s = some (k, x, visits)) :
    ∃ l, s.lastBuf = some l ∧ l ≤ k ∧ ch.queue.que[k]? = some x ∧ (k = l ∨ s.insertBeforeBuf ≠ some k) ∧
      ch.queue.attr.maxUnmatchedFrames < s.unmatchedBundles ∧
      (visits = 1 ∨ visits = s.unmatchedBundles - ch.queue.attr.maxUnmatchedFrames) := by
  unfold evictee at h
  cases hl : s.lastBuf with
  | none => simp [hl] at h
  | some l =>
    simp only [hl] at h
    split at h
    · rename_i hmax
      cases he : evictable s.insertBeforeBuf (ch.queue.que.drop l) l with
      | none =>
        simp only [he, map_eq_some_iff, Prod.mk.injEq] at h
        obtain ⟨n, hn, rfl, rfl, rfl⟩ := h
        exact ⟨l, rfl, le_refl l, hn, Or.inl rfl, hmax, Or.inl rfl⟩
      | some p =>
        obtain ⟨i, n⟩ := p
        simp only [he, some.injEq, Prod.mk.injEq] at h
        obtain ⟨rfl, rfl, rfl⟩ := h
        obtain ⟨hle, hget, hne⟩ := evictable_some he
        rw [getElem?_drop, Nat.add_sub_cancel' hle] at hget
        exact ⟨l, rfl, hle, hget, Or.inr hne, hmax, Or.inr rfl⟩
    · simp at h

theorem evictee_none (h : ch.evictee s = none) (hl : ∀ l, s.lastBuf = some l → l < ch.queue.que.length)
    (hgo : ¬ (ch.queue.attr.maxUnmatchedFrames < s.unmatchedBundles ∧ s.lastBuf = none)) :
    s.unmatchedBundles ≤ ch.queue.attr.maxUnmatchedFrames := by
  by_contra hmax
  rw [not_le] at hmax
  cases hlast : s.lastBuf with
  | none => exact hgo ⟨hmax, hlast⟩
  | some l =>
    have hlt := hl l hlast
    simp only [evictee, hlast, hmax, if_true] at h
    split at h
    · simp at h
    · simp [hlt] at h

theorem pair_sublist {que : List MmChannelQueueNode} {l : ℕ} {o x : MmChannelQueueNode}
    (hlk : l < k) (ho : que[l]? = some o) (hx : que[k]? = some x) : [o, x].Sublist que := by
  obtain ⟨hl, rfl⟩ := List.getElem?_eq_some_iff.mp ho
  have hdrop : (que.drop (l + 1))[k - (l + 1)]? = some x := by
    rw [getElem?_drop, Nat.add_sub_cancel' hlk, hx]
  have hmem : x ∈ que.drop (l + 1) := mem_of_getElem? hdrop
  have hcons : [que[l], x].Sublist (que.drop l) := by
    rw [drop_eq_getElem_cons hl]
    exact (singleton_sublist.mpr hmem).cons_cons _
  exact hcons.trans (drop_sublist l que)

/-- The evicted node, if there is one. -/
def evicted (ch : MmChannel) (s : SuperbufScan) : Option MmChannelQueueNode :=
  (ch.evictee s).map (·.2.1)

/-- The number of rounds of the eviction that release a node. -/
def visits (ch : MmChannel) (s : SuperbufScan) : ℕ := (ch.evictee s).elim 0 (·.2.2)

theorem split_isNewer (frameIdx : ℕ) (que : List MmChannelQueueNode) :
    (∀ m ∈ que.take (que.findIdx (·.isNewer frameIdx)), m.isNewer frameIdx = false) ∧
    ∀ c ∈ (que.drop (que.findIdx (·.isNewer frameIdx))).head?, c.isNewer frameIdx = true := by
  constructor
  · intro m hm
    obtain ⟨j, hj, rfl⟩ := mem_iff_getElem.mp hm
    rw [length_take, Nat.lt_min] at hj
    rw [getElem_take]
    simpa using not_of_lt_findIdx hj.1
  · intro c hc
    rw [head?_drop] at hc
    obtain ⟨hlt, rfl⟩ := List.getElem?_eq_some_iff.mp hc
    exact findIdx_getElem (w := hlt)

theorem eraseIdx_split {que : List MmChannelQueueNode} {p : ℕ} (hp : p ≤ que.length) :
    ∃ fst snd, fst.Sublist (que.take p) ∧ snd.Sublist (que.drop p) ∧
      fst ++ snd = que.eraseIdx k ∧ fst.length = if k < p then p - 1 else p := by
  have hlen : (que.take p).length = p := length_take_of_le hp
  have hsplit : que.eraseIdx k = (que.take p ++ que.drop p).eraseIdx k := by
    rw [take_append_drop]
  by_cases hk : k < p
  · refine ⟨(que.take p).eraseIdx k, que.drop p, eraseIdx_sublist _ _, .refl _, ?_, ?_⟩
    · rw [hsplit, eraseIdx_append_of_lt_length (by omega)]
    · rw [if_pos hk, length_eraseIdx_of_lt (by omega), hlen]
  · refine ⟨que.take p, (que.drop p).eraseIdx (k - p), .refl _, eraseIdx_sublist _ _, ?_, ?_⟩
    · rw [hsplit, eraseIdx_append_of_length_le (by omega), hlen]
    · rw [if_neg hk, hlen]

/-- **Making room**: what is left of the queue on both sides of the new node's place. -/
theorem makeRoom_room (hb : b.frameIdx ≠ 0) (hnone : (ch.scan bufSIdx b).superBuf = none)
    (hgo : ¬ (ch.queue.attr.maxUnmatchedFrames < (ch.scan bufSIdx b).unmatchedBundles ∧
      (ch.scan bufSIdx b).lastBuf = none)) :
    ∃ fst snd, ch.bundle.Room bufSIdx b (ch.evicted (ch.scan bufSIdx b)) (ch.visits (ch.scan bufSIdx b)) fst snd ∧
      ch.insertPos (ch.scan bufSIdx b) = fst.length ∧
      (ch.makeRoom (ch.scan bufSIdx b)).bundle =
        ch.bundle.evict (ch.evicted (ch.scan bufSIdx b)) (ch.visits (ch.scan bufSIdx b)) (fst ++ snd) := by
  obtain ⟨hno, hunm, hlast, hins⟩ := scan_none hnone
  set s := ch.scan bufSIdx b with hs
  set p := ch.queue.que.findIdx (·.isNewer b.frameIdx) with hp
  have hpos : s.insertBeforeBuf.getD ch.queue.que.length = p := by
    rw [hins, hp, findIdx_eq_getD_findIdx?]
  have hple : p ≤ ch.queue.que.length := findIdx_le_length
  have hsplit : ch.bundle.que = ch.queue.que.take p ++ ch.queue.que.drop p :=
    (take_append_drop p ch.queue.que).symm
  obtain ⟨htake, hdrop⟩ := split_isNewer b.frameIdx ch.queue.que
  cases he : ch.evictee s with
  | none =>
    have hlt : ∀ l, s.lastBuf = some l → l < ch.queue.que.length := by
      intro l hl
      rw [hlast] at hl
      exact (findIdx?_eq_some_iff_findIdx_eq.mp hl).1
    have hmax := evictee_none he hlt hgo
    refine ⟨ch.queue.que.take p, ch.queue.que.drop p,
      ⟨hb, hno, ⟨_, _, hsplit, .refl _, .refl _, htake, hdrop⟩, ?_, ?_, ?_⟩, ?_, ?_⟩
    · simp [evicted, he, bundle]
    · intro _
      exact ⟨by simp [visits, he], hunm ▸ hmax⟩
    · simp [evicted, he]
    · simp only [insertPos, he]
      rw [hpos, length_take_of_le hple]
    · simp [makeRoom, he, evicted, visits, Bundle.evict, Bundle.qbufs, Bundle.log, bundle]
  | some q =>
    obtain ⟨k, x, v⟩ := q
    obtain ⟨l, hl, hlk, hkx, hne, hmax, hv⟩ := evictee_some he
    rw [hlast] at hl
    obtain ⟨hlt, hfind⟩ := findIdx?_eq_some_iff_findIdx_eq.mp hl
    have holder : (ch.queue.que[l]).isOlder b.frameIdx = true := by
      subst hfind
      exact findIdx_getElem (w := hlt)
    obtain ⟨fst, snd, hfst, hsnd, happ, hlen⟩ := eraseIdx_split (k := k) hple
    obtain ⟨hklt, hkget⟩ := List.getElem?_eq_some_iff.mp hkx
    refine ⟨fst, snd, ⟨hb, hno, ⟨_, _, hsplit, hfst, hsnd, htake, hdrop⟩, ?_, ?_, ?_⟩, ?_, ?_⟩
    · simp only [evicted, he, happ, map_some, toList_some, singleton_append, ← hkget]
      exact getElem_cons_eraseIdx_perm hklt
    · simp [evicted, he]
    · intro y hy
      simp only [evicted, he, map_some, mem_def, some.injEq] at hy
      subst hy
      refine ⟨hunm ▸ hmax, ?_, ch.queue.que[l], holder, ?_⟩
      · simp only [visits, he, elim_some]
        rw [hunm] at hv
        exact hv
      · rcases hlk.eq_or_lt with rfl | hlk
        · exact Or.inl hkget
        · exact Or.inr (pair_sublist hlk (getElem?_eq_getElem hlt) hkx)
    · simp only [insertPos, he]
      rw [hpos, hlen]
    · have hevict : (ch.evict k x v).bundle = { ch.bundle with que := fst ++ snd, size := ch.bundle.size - v }.qbufs
            (replicate v x.filledBufs).flatten := by
        rw [happ]
        have hb := bundle_qbufs ch (replicate v x.filledBufs).flatten
        simp only [bundle, evict, Bundle.qbufs, Bundle.log, Bundle.mk.injEq, true_and, qbufs_queue] at hb ⊢
        exact hb
      simp only [makeRoom, he, evicted, visits]
      exact hevict

theorem bundle_linkNode (ch : MmChannel) (bufSIdx : ℕ) (b : MmCameraBufInfo) (i : ℕ) :
    ∃ expected, (ch.linkNode bufSIdx b i).bundle = (let B' := { ch.bundle with
          que := ch.queue.que.insertIdx i (ch.bundle.newNode bufSIdx b expected)
          size := ch.bundle.size + 1 }
      if ch.bundle.bundledStreams.length = 1 then B'.countMatch b.frameIdx else B') := by
  refine ⟨(ch.newNode bufSIdx b).expectedFrame, ?_⟩
  have hstreams : ch.bundle.bundledStreams = ch.queue.bundledStreams := rfl
  simp only [linkNode, MmChannelQueue.numStreams, hstreams]
  by_cases hone : ch.queue.bundledStreams.length = 1
  · simp only [hone, if_true]
    rw [bundle_countMatch]
    rfl
  · simp only [hone, if_false]
    rfl

theorem insertIdx_between (fst snd : List MmChannelQueueNode) (n : MmChannelQueueNode) :
    (fst ++ snd).insertIdx fst.length n = fst ++ n :: snd := by
  induction fst with
  | nil => rfl
  | cons m fst ih => simp [ih]

theorem insertNew_step (hb : b.frameIdx ≠ 0) (hnone : (ch.scan bufSIdx b).superBuf = none) :
    Bundle.Step ch.bundle (.enqueue bufSIdx b (ch.visits (ch.scan bufSIdx b)))
      (ch.insertNew bufSIdx b (ch.scan bufSIdx b)).bundle := by
  unfold insertNew
  split
  · rename_i hfull
    have hvisits : ch.visits (ch.scan bufSIdx b) = 0 := by
      simp [visits, evictee, hfull.2]
    rw [hvisits, bundle_qbufs]
    exact Bundle.Step.discard
  · rename_i hgo
    obtain ⟨fst, snd, hroom, hpos, hmake⟩ := makeRoom_room hb hnone hgo
    set s := ch.scan bufSIdx b with hs
    set ch₁ := { ch.makeRoom s with mallocs := (ch.makeRoom s).mallocs + 2 } with h₁
    have hb₁ : ch₁.bundle = ch.bundle.evict (ch.evicted s) (ch.visits s) (fst ++ snd) := hmake
    have hque : ch₁.queue.que = fst ++ snd := congrArg que hb₁
    simp only [hpos]
    split
    · obtain ⟨expected, hlink⟩ := bundle_linkNode ch₁ bufSIdx b fst.length
      rw [hlink, hque, hb₁, insertIdx_between]
      exact Bundle.Step.insert hroom expected
    · rw [bundle_qbufs]
      exact hb₁ ▸ Bundle.Step.noMemory hroom

/-- The number of rounds of the eviction that release a node, in the whole of an
enqueue. -/
def evictionRounds (ch : MmChannel) (bufSIdx : ℕ) (b : MmCameraBufInfo) : ℕ :=
  if (ch.scan bufSIdx b).superBuf = none then ch.visits (ch.scan bufSIdx b) else 0

/-- **An enqueue is one step of the bundle.** -/
theorem superbufComp_step (hb : b.frameIdx ≠ 0) :
    Bundle.Step ch.bundle (.enqueue bufSIdx b (ch.evictionRounds bufSIdx b)) (ch.superbufComp bufSIdx b).bundle := by
  cases h : (ch.scan bufSIdx b).superBuf with
  | none =>
    rw [superbufComp_of_none h, evictionRounds, if_pos h]
    exact insertNew_step hb h
  | some n =>
    obtain ⟨pre, post, hfound, hpos, hlast⟩ := scan_found hb h
    rw [superbufComp_of_some h, evictionRounds, if_neg (by simp [h])]
    exact joinNode_step hfound hpos hlast

/-! ### Runs of the functions -/

/-- The bundle steps that flush the queue. -/
def Flushes : Bundle → Bundle → Prop := Reaches Bundle.Step (· = .flush .default)

@[simp] theorem flushedBufs_default (n : MmChannelQueueNode) : flushedBufs .default n = n.bufs := by
  simp [flushedBufs]

theorem dequeue_qbufs_step {rest : List MmChannelQueueNode} (camType : CamStreamType) (hq : ch.queue.que = n :: rest) :
    Bundle.Step ch.bundle (.flush camType) ((ch.afterDequeue n rest).qbufs (flushedBufs camType n)).bundle := by
  rw [bundle_qbufs, bundle_afterDequeue]
  exact Bundle.Step.flush camType hq

variable {ch' : MmChannel}

theorem superbufFlushBody_reaches {camType : CamStreamType}
    (h : superbufFlushBody camType ch = .yield ch' ∨ superbufFlushBody camType ch = .done ch') :
    Reaches Bundle.Step (· = .flush camType) ch.bundle ch'.bundle := by
  unfold superbufFlushBody at h
  rcases superbufDequeueInternal_cases ch false with ⟨hd, -⟩ | ⟨n, rest, hq, -, hd⟩
  · simp only [hd, reduceCtorEq, false_or, ForInStep.done.injEq] at h
    exact h ▸ Reaches.refl _
  · simp only [hd, reduceCtorEq, or_false, ForInStep.yield.injEq] at h
    exact Reaches.single (h ▸ dequeue_qbufs_step camType hq) rfl

/-- `mm_channel_superbuf_flush`. -/
theorem superbufFlush_reaches (ch : MmChannel) (camType : CamStreamType) :
    Reaches Bundle.Step (· = .flush camType) ch.bundle (ch.superbufFlush camType).bundle :=
  Loop.iterate_relates (R := fun ch₁ ch₂ : MmChannel =>
      Reaches Bundle.Step (· = .flush camType) ch₁.bundle ch₂.bundle)
    (fun _ => Reaches.refl _) (fun _ _ _ => Reaches.trans)
    (fun _ _ => superbufFlushBody_reaches) _ _

theorem superbufFlushMatchedBody_reaches
    (h : superbufFlushMatchedBody ch = .yield ch' ∨ superbufFlushMatchedBody ch = .done ch') :
    Flushes ch.bundle ch'.bundle := by
  unfold superbufFlushMatchedBody at h
  rcases superbufDequeueInternal_cases ch true with ⟨hd, -⟩ | ⟨n, rest, hq, -, hd⟩
  · simp only [hd, reduceCtorEq, false_or, ForInStep.done.injEq] at h
    exact h ▸ Reaches.refl _
  · simp only [hd, reduceCtorEq, or_false, ForInStep.yield.injEq, ← flushedBufs_default] at h
    exact Reaches.single (h ▸ dequeue_qbufs_step .default hq) rfl

theorem superbufFlushMatched_reaches (ch : MmChannel) : Flushes ch.bundle ch.superbufFlushMatched.bundle :=
  Loop.iterate_relates (R := fun ch₁ ch₂ : MmChannel => Flushes ch₁.bundle ch₂.bundle)
    (fun _ => Reaches.refl _) (fun _ _ _ => Reaches.trans)
    (fun _ _ => superbufFlushMatchedBody_reaches) _ _

theorem superbufReduceBody_reaches {bound : ℕ}
    (h : superbufReduceBody bound ch = .yield ch' ∨ superbufReduceBody bound ch = .done ch') :
    Flushes ch.bundle ch'.bundle := by
  unfold superbufReduceBody at h
  split at h
  · rcases superbufDequeueInternal_cases ch true with ⟨hd, -⟩ | ⟨n, rest, hq, -, hd⟩
    · simp only [hd, reduceCtorEq, or_false, ForInStep.yield.injEq] at h
      exact h ▸ Reaches.refl _
    · simp only [hd, reduceCtorEq, or_false, ForInStep.yield.injEq, ← flushedBufs_default] at h
      exact Reaches.single (h ▸ dequeue_qbufs_step .default hq) rfl
  · simp only [reduceCtorEq, false_or, ForInStep.done.injEq] at h
    exact h ▸ Reaches.refl _

variable {fuel : ℕ}

theorem superbufReduce_reaches {bound : ℕ} (h : Loop.run (superbufReduceBody bound) fuel ch = some ch') :
    Flushes ch.bundle ch'.bundle :=
  Loop.run_relates (R := fun ch₁ ch₂ : MmChannel => Flushes ch₁.bundle ch₂.bundle)
    (fun _ => Reaches.refl _) (fun _ _ _ => Reaches.trans)
    (fun _ _ => superbufReduceBody_reaches) h

/-- `mm_channel_superbuf_skip`. -/
theorem superbufSkip_reaches (h : ch.superbufSkip fuel = some ch') : Flushes ch.bundle ch'.bundle := by
  unfold superbufSkip at h
  split at h
  · exact some.inj h ▸ Reaches.refl _
  · exact superbufReduce_reaches h

theorem superbufBufdoneOverflow_reaches (h : ch.superbufBufdoneOverflow fuel = some ch') :
    Flushes ch.bundle ch'.bundle := by
  unfold superbufBufdoneOverflow at h
  split at h
  · exact some.inj h ▸ Reaches.refl _
  · exact superbufReduce_reaches h

/-! ### Runs of the metadata handler -/

@[simp] theorem bundle_noteDivertInfo (ch : MmChannel) (frameIdx : ℕ) (info : Option ℕ) :
    (ch.noteDivertInfo frameIdx info).bundle = ch.bundle := by
  cases info <;> rfl

theorem zoom1xFrame_reaches (ch : MmChannel) (frameIdx : ℕ) (found : Bool) :
    Flushes ch.bundle (ch.zoom1xFrame frameIdx found).bundle := by
  cases found with
  | true => exact Reaches.refl _
  | false =>
    exact superbufFlushMatched_reaches { ch with
      queue.expectedFrameId := addU32 ch.queue.expectedFrameId mmCameraMaxFutureFrameWait }

theorem prepSnapshotDone_reaches (ch : MmChannel) (state : Option ℤ) :
    Flushes ch.bundle (ch.prepSnapshotDone state).bundle := by
  cases state with
  | none => exact Reaches.refl _
  | some st =>
    simp only [prepSnapshotDone]
    split
    · exact superbufFlush_reaches { ch with
        bWaitForPrepSnapshotDone := false
        queue.expectedFrameId :=
          addU32 ch.queue.expectedFrameId mmCameraMaxFutureFrameWait } .default
    · exact Reaches.refl _

theorem goodFrameRange_reaches (ch : MmChannel) (range : Option CamFrameIdxRange)
    (prepValid : Bool) : Flushes ch.bundle (ch.goodFrameRange range prepValid).bundle := by
  cases range with
  | some r =>
    simp only [goodFrameRange]
    split <;> exact Reaches.refl _
  | none =>
    simp only [goodFrameRange]
    split
    · exact superbufFlushMatched_reaches ch
    · exact Reaches.refl _

@[simp] theorem bundle_goodFrameBracketing (ch : MmChannel) (range : Option CamFrameIdxRange) :
    (ch.goodFrameBracketing range).bundle = ch.bundle := by
  cases range with
  | none => rfl
  | some r =>
    simp only [goodFrameBracketing]
    split <;> rfl

@[simp] theorem bundle_frameConfigId (ch : MmChannel) (range : Option CamFrameIdxRange) :
    (ch.frameConfigId range).bundle = ch.bundle := by
  cases range with
  | none => rfl
  | some r =>
    simp only [frameConfigId]
    split
    · split
      · rfl
      · exact bundle_call_control _ rfl
    · rfl

@[simp] theorem bundle_ledOffFrame (ch : MmChannel) (frameIdx : ℕ) : (ch.ledOffFrame frameIdx).bundle = ch.bundle := by
  unfold ledOffFrame
  split <;> rfl

@[simp] theorem bundle_lowLightLevel (ch : MmChannel) (level : Option ℕ) :
    (ch.lowLightLevel level).bundle = ch.bundle := by
  cases level <;> rfl

@[simp] theorem bundle_userExpectedFrame (ch : MmChannel) (frameIdx : ℕ) (aecSettled : Option Bool) :
    (ch.userExpectedFrame frameIdx aecSettled).bundle = ch.bundle := by
  unfold userExpectedFrame
  split_ifs <;> rfl

theorem applyMetadata_reaches (ch : MmChannel) (frameIdx : ℕ) (metadata : MetadataBuffer) :
    Flushes ch.bundle (ch.applyMetadata frameIdx metadata).bundle := by
  set ch₁ := ch.noteDivertInfo frameIdx metadata.bufDivertInfo with h₁
  have hb : ch.bundle = ch₁.bundle := (bundle_noteDivertInfo ch _ _).symm
  simp only [applyMetadata, ← h₁]
  split
  · exact hb ▸ zoom1xFrame_reaches ch₁ frameIdx _
  · simp only [bundle_userExpectedFrame, bundle_lowLightLevel, bundle_ledOffFrame,
      bundle_frameConfigId, bundle_goodFrameBracketing]
    exact (hb ▸ prepSnapshotDone_reaches ch₁ _).trans (goodFrameRange_reaches _ _ _)

theorem handleMetadata_reaches (ch : MmChannel) (b : MmCameraBufInfo) :
    Flushes ch.bundle (ch.handleMetadata b).2.bundle := by
  unfold handleMetadata
  split
  · exact Reaches.refl _
  · split
    · exact Reaches.refl _
    · split
      · split
        · exact Reaches.refl _
        · exact applyMetadata_reaches ch _ _
      · exact Reaches.refl _

/-! ### Runs of an enqueue -/

/-- The checks before the scan of the queue do not return the buffer. -/
def isOffered (ch : MmChannel) (b : MmCameraBufInfo) : Bool :=
  b.frameIdx != 0 && decide (0 ≤ (ch.handleMetadata b).1) && !(decide (utilSeqCompWRollover b.frameIdx
        (ch.handleMetadata b).2.queue.expectedFrameId < 0) &&
      decide ((ch.handleMetadata b).2.validateSuperBuf b ≤ 0))

/-- The eviction loop that makes room for the buffer finds a node to release while there is
more than one unmatched node too many. -/
def releasesTwice (ch : MmChannel) (b : MmCameraBufInfo) : Bool :=
  match ch.queue.bundledStreams.findIdx? (b.streamId == ·) with
  | none => false
  | some bufSIdx =>
    let ch' := (ch.handleMetadata b).2
    let s := ch'.scan bufSIdx b
    ch.isOffered b && s.superBuf.isNone &&
      decide (ch'.queue.attr.maxUnmatchedFrames + 1 < s.unmatchedBundles) &&
      s.lastBuf.any fun l => (evictable s.insertBeforeBuf (ch'.queue.que.drop l) l).isSome

theorem evictionRounds_le_one (h : ((ch.scan bufSIdx b).superBuf.isNone &&
      decide (ch.queue.attr.maxUnmatchedFrames + 1 < (ch.scan bufSIdx b).unmatchedBundles) &&
      (ch.scan bufSIdx b).lastBuf.any fun l =>
        (evictable (ch.scan bufSIdx b).insertBeforeBuf (ch.queue.que.drop l) l).isSome) =
      false) : ch.evictionRounds bufSIdx b ≤ 1 := by
  unfold evictionRounds visits evictee
  split
  · rename_i hnone
    simp only [hnone, isNone_none, Bool.true_and] at h
    cases hl : (ch.scan bufSIdx b).lastBuf with
    | none => simp
    | some l =>
      simp only [hl, any_some] at h
      simp only
      split
      · cases he : evictable (ch.scan bufSIdx b).insertBeforeBuf (ch.queue.que.drop l) l with
        | none => cases ch.queue.que[l]? <;> simp
        | some p =>
          simp only [he, isSome_some, Bool.and_true, decide_eq_false_iff_not] at h
          simp only [elim_some]
          omega
      · simp
  · omega

theorem superbufCompAndEnqueue_cases (hi : ch.queue.bundledStreams.findIdx? (b.streamId == ·) = some bufSIdx) :
    (∃ B, Flushes ch.bundle B ∧ (ch.superbufCompAndEnqueue b).2.bundle = B.qbufs [b.buf]) ∨
    (b.frameIdx ≠ 0 ∧ ch.isOffered b = true ∧
      (ch.superbufCompAndEnqueue b).2 = (ch.handleMetadata b).2.superbufComp bufSIdx b) := by
  simp only [superbufCompAndEnqueue, hi]
  split
  · exact Or.inl ⟨ch.bundle, Reaches.refl _, bundle_qbufs _ _⟩
  · rename_i hb
    have hmeta := handleMetadata_reaches ch b
    split
    · exact Or.inl ⟨_, hmeta, bundle_qbufs _ _⟩
    · rename_i hrc
      split
      · exact Or.inl ⟨_, hmeta, bundle_qbufs _ _⟩
      · rename_i hold
        refine Or.inr ⟨hb, ?_, rfl⟩
        simp only [isOffered, Bool.and_eq_true, bne_iff_ne, ne_eq, hb, not_false_iff,
          decide_eq_true_eq, Bool.not_eq_true', ← Bool.decide_and, decide_eq_false_iff_not]
        exact ⟨⟨trivial, by omega⟩, hold⟩

/-- An enqueue is a step of the bundle, once the metadata handler has run. -/
theorem superbufCompAndEnqueue_steps (hi : ch.queue.bundledStreams.findIdx? (b.streamId == ·) = some bufSIdx) :
    ∃ B visits, Flushes ch.bundle B ∧ (ch.releasesTwice b = false → visits ≤ 1) ∧
      Bundle.Step B (.enqueue bufSIdx b visits) (ch.superbufCompAndEnqueue b).2.bundle := by
  rcases superbufCompAndEnqueue_cases hi with ⟨B, hf, hB⟩ | ⟨hb, hoff, hcomp⟩
  · exact ⟨B, 0, hf, fun _ => Nat.zero_le 1, hB ▸ Bundle.Step.discard⟩
  · refine ⟨_, _, handleMetadata_reaches ch b, fun h => ?_, hcomp ▸ superbufComp_step hb⟩
    simp only [releasesTwice, hi, hoff, Bool.true_and] at h
    exact evictionRounds_le_one h

theorem superbufCompAndEnqueue_unbundled (hi : ch.queue.bundledStreams.findIdx? (b.streamId == ·) = none) :
    (ch.superbufCompAndEnqueue b).2 = ch := by
  simp only [superbufCompAndEnqueue, hi]

/-! ### Runs of a dequeue -/

theorem superbufDequeue_steps (ch : MmChannel) : ch.superbufDequeue = (none, ch) ∨ ∃ n, ch.superbufDequeue.1 = some n ∧
      Bundle.Step ch.bundle (.dequeue n) ch.superbufDequeue.2.bundle := by
  unfold superbufDequeue
  rcases superbufDequeueInternal_cases ch true with ⟨hd, -⟩ | ⟨n, rest, hq, hm, hd⟩
  · exact Or.inl hd
  · refine Or.inr ⟨n, by rw [hd], ?_⟩
    rw [hd, bundle_afterDequeue]
    exact Bundle.Step.dequeue hq (hm rfl)

theorem superbufDequeueFrameInternal_steps (ch : MmChannel) (frameIdx : ℕ) :
    ch.superbufDequeueFrameInternal frameIdx = (none, ch) ∨
    ∃ n, (ch.superbufDequeueFrameInternal frameIdx).1 = some n ∧ n.frameIdx = frameIdx ∧
      Bundle.Step ch.bundle (.dequeueFrame n) (ch.superbufDequeueFrameInternal frameIdx).2.bundle := by
  unfold superbufDequeueFrameInternal
  cases hf : ch.queue.que.findIdx? fun n => n.matched && n.frameIdx == frameIdx with
  | none => exact Or.inl rfl
  | some i =>
    obtain ⟨hlt, hp, -⟩ := findIdx?_eq_some_iff_getElem.mp hf
    simp only [Bool.and_eq_true, beq_iff_eq] at hp
    refine Or.inr ⟨ch.queue.que[i], getElem?_eq_getElem hlt, hp.2, ?_⟩
    have hsplit : ch.queue.que = ch.queue.que.take i ++ ch.queue.que[i] :: ch.queue.que.drop (i + 1) := by
      rw [getElem_cons_drop, take_append_drop]
    have hstep := Bundle.Step.dequeueFrame (B := ch.bundle) hsplit hp.1
    rw [← eraseIdx_eq_take_drop_succ] at hstep
    exact hstep

end MmChannel

end Marlin
