import Marlin.SuperbufOrder

/-!
# The Account of the Buffers

Where the buffers are that were passed to the channel: in a slot of a queued node, returned
to their stream, or enqueued to the callback thread. Each step of the bundle moves buffers
between these places and adds the one that it is offered, as long as the eviction releases
a node once (`Act.Keeps`).

The eviction loop may come back to the node it has just freed and return its buffers a
second time. That takes more than one unmatched node too many, which an ordered queue never
has; at low priority a matched node can be evicted in place of an unmatched one, and then
`lowPriority_returned_twice` shows what happens.

## Main results

* `Bundle.Step.account`: a step keeps the account.
* `processStreamBuf_account`: after every run of commands each buffer passed in is in
  exactly one place, except that at low priority the runs are those without a second
  release.
-/

namespace Marlin

open Marlin.Action MmChannelQueueNode List Option Transition MmChannel

namespace MmChannelQueueNode

variable {i : ℕ}

theorem bufs_set {l : List (Option MmCameraBufInfo)} (b : MmCameraBufInfo) (h : l[i]? = some none) :
    ((l.set i (some b)).filterMap fun s => s.map MmCameraBufInfo.buf).Perm
      (b.buf :: l.filterMap fun s => s.map MmCameraBufInfo.buf) := by
  obtain ⟨hlt, hi⟩ := List.getElem?_eq_some_iff.mp h
  have hl : l = l.take i ++ none :: l.drop (i + 1) := by
    rw [← hi, getElem_cons_drop, take_append_drop]
  have hset : l.set i (some b) = l.take i ++ some b :: l.drop (i + 1) :=
    set_eq_take_append_cons_drop.trans (if_pos hlt)
  rw [hset]
  conv => rhs; rw [hl]
  simp only [filterMap_append, filterMap_cons, map_some, map_none]
  exact perm_middle

variable {n : MmChannelQueueNode}

theorem WellFormed.slot_none {streams : List ℕ} {hdl : ℕ}
    (h : n.WellFormed streams) (hi : streams[i]? = some hdl) (hs : n.slotFrameIdx i = 0) :
    n.superBuf[i]? = some none := by
  obtain ⟨hlt, -⟩ := List.getElem?_eq_some_iff.mp hi
  rw [← h.length] at hlt
  have hempty := h.slotFrameIdx_eq_zero.mp hs
  cases hb : n.superBuf[i] with
  | none => rw [getElem?_eq_getElem hlt, hb]
  | some b => exact absurd (by rw [Holds, getElem?_eq_getElem hlt, hb]) (hempty b)

theorem WellFormed.bufs_put {streams : List ℕ}
    {b : MmCameraBufInfo} (h : n.WellFormed streams) (hi : streams[i]? = some b.streamId)
    (hs : n.slotFrameIdx i = 0) : (n.put i b).bufs.Perm (b.buf :: n.bufs) :=
  bufs_set b (h.slot_none hi hs)

theorem bufs_resetMetaOnly (n : MmChannelQueueNode) (frameIdx : ℕ) :
    (MmChannel.resetMetaOnly n frameIdx).bufs = n.bufs := by
  unfold MmChannel.resetMetaOnly
  split <;> rfl

end MmChannelQueueNode

namespace Bundle

/-- The buffers in the nodes of the queue. -/
def queued (B : Bundle) : List MmCameraBufDef := B.que.flatMap MmChannelQueueNode.bufs

/-- The buffers in each of their places. -/
def held (B : Bundle) : List MmCameraBufDef := B.queued ++ (B.returned ++ B.delivered)

/-- The buffer that a step offers. -/
def Act.offered : Act → List MmCameraBufDef
  | .enqueue _ b _ => [b.buf]
  | _ => []

/-- A step that neither hands a node to a caller nor releases a node twice. -/
def Act.Keeps : Act → Prop
  | .flush camType => camType = .default
  | .send _ => True
  | .enqueue _ _ visits => visits ≤ 1
  | .dequeue _ | .dequeueFrame _ => False

variable {B : Bundle} {i : ℕ}

theorem bufs_newNode (b : MmCameraBufInfo) (expected : Bool) (hi : B.bundledStreams[i]? = some b.streamId) :
    (B.newNode i b expected).bufs.Perm [b.buf] := by
  obtain ⟨hlt, -⟩ := List.getElem?_eq_some_iff.mp hi
  have h := bufs_set (i := i) b (l := replicate B.bundledStreams.length none) (by simp [hlt])
  simpa [bufs, newNode] using h

variable {b : MmCameraBufInfo} {visits : ℕ}

theorem Room.evicted_bufs {evicted : Option MmChannelQueueNode} {fst snd : List MmChannelQueueNode}
    (h : B.Room i b evicted visits fst snd) (hv : visits ≤ 1)
    (hw : ∀ n ∈ B.que, n.WellFormed B.bundledStreams) :
    (List.replicate visits (evicted.elim [] MmChannelQueueNode.filledBufs)).flatten =
      evicted.toList.flatMap MmChannelQueueNode.bufs := by
  cases evicted with
  | none =>
    obtain rfl := (h.calm rfl).1
    rfl
  | some x =>
    obtain ⟨hmax, hvisits, -⟩ := h.evicts x rfl
    obtain rfl : visits = 1 := by omega
    have hx := hw x (h.perm.mem_iff.mp (by simp))
    simp [hx.filledBufs_eq]

theorem Room.held_evict {evicted : Option MmChannelQueueNode} {fst snd : List MmChannelQueueNode}
    (h : B.Room i b evicted visits fst snd) (hv : visits ≤ 1)
    (hw : ∀ n ∈ B.que, n.WellFormed B.bundledStreams) :
    (B.evict evicted visits (fst ++ snd)).held.Perm B.held := by
  have hque := List.Perm.flatMap_right bufs h.perm
  rw [perm_iff_count] at hque ⊢
  intro c
  have hc := hque c
  simp only [held, queued, evict, qbufs_returned, qbufs_delivered, h.evicted_bufs hv hw,
    flatMap_append, count_append] at hc ⊢
  change _ + (B.returned.count c + _ + B.delivered.count c) = _
  change count c ((fst ++ snd).flatMap bufs) + _ = _
  simp only [flatMap_append, count_append]
  omega

theorem released_bufs {streams : List ℕ} {frameIdx : ℕ} {pre : List MmChannelQueueNode}
    (hw : ∀ n ∈ pre, n.WellFormed streams) :
    (MmChannelQueueNode.released frameIdx pre).flatMap MmChannelQueueNode.filledBufs =
      (MmChannelQueueNode.released frameIdx pre).flatMap MmChannelQueueNode.bufs := by
  refine flatMap_congr fun n hn => ?_
  exact (hw n ((dropWhile_sublist _).mem hn)).filledBufs_eq

theorem held_countMatch (B : Bundle) (frameIdx : ℕ) : (B.countMatch frameIdx).held = B.held := by
  simp only [held, countMatch_returned, countMatch_delivered]
  rfl

theorem count_held_qbufs (B : Bundle) (bs : List MmCameraBufDef) (c : MmCameraBufDef) :
    (B.qbufs bs).held.count c = B.held.count c + bs.count c := by
  simp only [held, qbufs_returned, qbufs_delivered, count_append]
  change count c B.queued + _ = _
  omega

variable {B' : Bundle}

theorem count_held_que (h : B'.traffic = B.traffic) (c : MmCameraBufDef) :
    B'.held.count c + B.queued.count c = B.held.count c + B'.queued.count c := by
  simp only [held, returned, delivered, count_append, h]
  omega

theorem count_held_pop (B : Bundle) {n : MmChannelQueueNode} {rest : List MmChannelQueueNode}
    (hq : B.que = n :: rest) (c : MmCameraBufDef) :
    (B.pop n rest).held.count c + n.bufs.count c = B.held.count c := by
  simp only [held, queued, pop_returned, pop_delivered, hq, flatMap_cons, count_append]
  change count c (rest.flatMap bufs) + _ + _ = _
  omega

theorem count_held_send (B : Bundle) {n : MmChannelQueueNode} {delivery : List Action}
    (hd : (∃ ready unlock, delivery = [.cbEnq n.bufs ready unlock]) ∨
      delivery = n.bufs.map .qbuf) (c : MmCameraBufDef) :
    (B.log (.sendSuperBuf n :: delivery)).held.count c = B.held.count c + n.bufs.count c := by
  rcases hd with ⟨ready, unlock, rfl⟩ | rfl
  · simp only [held, queued, log, returned, delivered, Action.returned, Action.delivered,
      flatMap_append, flatMap_cons, flatMap_nil, append_nil,
      nil_append, count_append]
    omega
  · have hlog : B.log (.sendSuperBuf n :: n.bufs.map .qbuf) =
        (B.log [.sendSuperBuf n]).qbufs n.bufs := by simp [qbufs, log]
    have hsent : (B.log [.sendSuperBuf n]).held = B.held := by
      simp [held, queued, log, returned, delivered, Action.returned, Action.delivered]
    rw [hlog, count_held_qbufs, hsent]

/-- **Every step keeps the account**: the buffers stay in their places or move between
them, and the one that is offered is in one of them. -/
theorem Step.account {a : Act} (h : Step B a B') (ha : a.InSlot B)
    (hk : a.Keeps) (hw : ∀ n ∈ B.que, n.WellFormed B.bundledStreams) :
    B'.held.Perm (B.held ++ a.offered) := by
  rw [perm_iff_count]
  intro c
  rw [count_append]
  cases h with
  | @flush n rest camType hq =>
    obtain rfl : camType = .default := hk
    have hpop := count_held_pop B hq c
    rw [count_held_qbufs, flushedBufs_default]
    exact hpop
  | dequeue hq hm => exact absurd hk id
  | dequeueFrame hq hm => exact absurd hk id
  | send hq hm hd =>
    have hpop := count_held_pop B hq c
    rw [count_held_send _ hd]
    exact hpop
  | discard => exact count_held_qbufs B _ c
  | @taken i b pre post n h hs =>
    have hque := @count_held_que B { B with que := pre ++ MmChannel.resetMetaOnly n b.frameIdx :: post } rfl c
    rw [count_held_qbufs]
    simp only [queued, h.que, flatMap_append, flatMap_cons, count_append, bufs_resetMetaOnly, Act.offered] at hque ⊢
    omega
  | @keep i b pre post n h hs hopen expected =>
    have hput := ((hw n h.mem).bufs_put ha hs).count_eq c
    have hsame : { n.put i b with matched := false, expectedFrame := expected }.bufs = (n.put i b).bufs := rfl
    have hque := @count_held_que B { B with
      que := pre ++ { n.put i b with matched := false, expectedFrame := expected } :: post }
      rfl c
    simp only [queued, h.que, flatMap_append, flatMap_cons, count_append,
      hsame, hput, count_cons, count_nil, Act.offered] at hque ⊢
    omega
  | @complete i b pre post n h hs hfull =>
    have hput := ((hw n h.mem).bufs_put ha hs).count_eq c
    have hsame : { n.put i b with matched := true, expectedFrame := false }.bufs = (n.put i b).bufs := rfl
    have hpre : ∀ m ∈ pre, m.WellFormed B.bundledStreams := fun m hm =>
      hw m (h.que ▸ mem_append_left _ hm)
    have hsplit : pre.flatMap bufs = (staying b.frameIdx pre).flatMap bufs ++
        (released b.frameIdx pre).flatMap bufs := by
      rw [← flatMap_append, staying, released, takeWhile_append_dropWhile]
    rw [count_held_qbufs, held_countMatch, released_bufs hpre]
    have hque := @count_held_que B { B with
      que := staying b.frameIdx pre ++ { n.put i b with matched := true, expectedFrame := false } :: post
      size := B.size - (released b.frameIdx pre).length } rfl c
    simp only [queued, h.que, hsplit, flatMap_append, flatMap_cons,
      count_append, hsame, hput, count_cons, count_nil, Act.offered] at hque ⊢
    omega
  | @insert i b evicted visits fst snd h expected =>
    have hevict := (h.held_evict hk hw).count_eq c
    have hnew := (bufs_newNode (i := i) b expected ha).count_eq c
    have hheld : ∀ B' : Bundle, B'.que = fst ++ B.newNode i b expected :: snd →
        B'.traffic = (B.evict evicted visits (fst ++ snd)).traffic →
        B'.held.count c = B.held.count c + [b.buf].count c := by
      intro B' hq ht
      have hque := count_held_que ht c
      have hq₀ : (B.evict evicted visits (fst ++ snd)).que = fst ++ snd := rfl
      simp only [queued, hq, hq₀, flatMap_append, flatMap_cons, count_append, hnew] at hque
      omega
    simp only
    split
    · rw [held_countMatch]
      exact hheld _ rfl rfl
    · exact hheld _ rfl rfl
  | noMemory h =>
    rw [count_held_qbufs, (h.held_evict hk hw).count_eq c, Act.offered]

theorem Step.visits_le_one (h : Step B (.enqueue i b visits) B') (hB : B.Ordered) : visits ≤ 1 := by
  have hroom : ∀ {evicted : Option MmChannelQueueNode} {fst snd : List MmChannelQueueNode},
      B.Room i b evicted visits fst snd → visits ≤ 1 := by
    intro evicted fst snd h
    rw [h.visits_eq hB]
    cases evicted <;> simp
  cases h with
  | insert h expected => exact hroom h
  | noMemory h => exact hroom h
  | _ => exact Nat.zero_le 1

/-- The buffers `passed` are accounted for, in a bundle that came from `B₀`. -/
structure Accounted (B₀ : Bundle) (passed : List MmCameraBufDef) (B : Bundle) : Prop where
  streams : B.bundledStreams = B₀.bundledStreams
  attr : B.attr = B₀.attr
  wellFormed : ∀ n ∈ B.que, n.WellFormed B.bundledStreams
  ordered : B₀.attr.priority ≠ .low → B.Ordered
  held : B.held.Perm passed

/-- A step accounts for the buffer that it is offered. -/
theorem Accounted.step {B₀ : Bundle} {passed : List MmCameraBufDef} {a : Act}
    (hB : Accounted B₀ passed B) (hs : Step B a B') (ha : a.InSlot B) (hk : a.Keeps) :
    Accounted B₀ (passed ++ a.offered) B' := by
  refine ⟨hs.fixed.1.trans hB.streams, hs.fixed.2.trans hB.attr, hs.wellFormed ha hB.wellFormed,
    fun hp => ?_, (hs.account ha hk hB.wellFormed).trans (hB.held.append_right _)⟩
  have hord := hB.ordered hp
  rw [← hB.attr] at hp
  exact hs.ordered (fits_of_not_low hord hp a) hord

theorem Accounted.dispatches {B₀ : Bundle} {passed : List MmCameraBufDef}
    (hB : Accounted B₀ passed B) (h : Dispatches B B') : Accounted B₀ passed B' := by
  refine h.invariant (I := Accounted B₀ passed) (fun B a B' ha hI hs => ?_) hB
  rcases ha with rfl | ⟨n, rfl⟩
  · exact append_nil passed ▸ hI.step hs trivial rfl
  · exact append_nil passed ▸ hI.step hs trivial trivial

end Bundle

/-- The buffer that a command passes in. -/
def MmCameraCmdcb.passed : MmCameraCmdcb → List MmCameraBufDef
  | .dataCb b => [b.buf]
  | _ => []

namespace ChannelThread

/-- At low priority, no node is released twice to make room for the buffer of a command. -/
def evictsOnce (t : ChannelThread) : MmCameraCmdcb → Bool
  | .dataCb b => t.ch.queue.attr.priority != .low || !t.ch.releasesTwice b
  | _ => true

theorem held_bundle (ch : MmChannel) : ch.bundle.held = ch.queue.que.flatMap MmChannelQueueNode.bufs ++
      (ch.out.flatMap Action.returned ++ ch.out.flatMap Action.delivered) := by
  have hret := flatMap_traffic (f := returned) (by rintro ⟨⟩ h <;> first | rfl | cases h) ch.out
  have hdel := flatMap_traffic (f := delivered) (by rintro ⟨⟩ h <;> first | rfl | cases h) ch.out
  rw [← hret, ← hdel]
  rfl

theorem accounted_step {B₀ : Bundle} {t t' : ChannelThread} {cmd : MmCameraCmdcb}
    {passed : List MmCameraBufDef} (hoff : t.FrameSyncOff)
    (hB : Bundle.Accounted B₀ passed t.ch.bundle)
    (hbundled : ∀ b, cmd = .dataCb b → b.streamId ∈ B₀.bundledStreams)
    (hflush : ∀ frameIdx camType, cmd = .flushQueue frameIdx camType → camType = .default)
    (honce : t.evictsOnce cmd = true) (hstep : Step t cmd t') :
    t'.FrameSyncOff ∧ Bundle.Accounted B₀ (passed ++ cmd.passed) t'.ch.bundle := by
  obtain ⟨fuel, hstep⟩ := hstep
  obtain ⟨ch, hcmd, hdisp, hoff'⟩ := processStreamBuf_steps hoff hstep
  refine ⟨hoff', Bundle.Accounted.dispatches ?_ hdisp⟩
  cases hcmd with
  | @dataCb b i visits B ch' hi hf hv hs =>
    have hBf := hB.dispatches hf.dispatches
    have hin : B.bundledStreams[i]? = some b.streamId := by
      have hst : B.bundledStreams = t.ch.bundle.bundledStreams :=
        hBf.streams.trans hB.streams.symm
      rw [hst]
      exact stream_of_slot hi
    refine hBf.step hs hin ?_
    by_cases hlow : B₀.attr.priority = .low
    · refine hv ?_
      have hp : t.ch.queue.attr.priority = .low :=
        (congrArg MmCameraChannelAttr.priority hB.attr).trans hlow
      simpa [evictsOnce, hp] using honce
    · exact hs.visits_le_one (hBf.ordered hlow)
  | @unbundled b hi =>
    have hmem := hbundled b rfl
    rw [← hB.streams] at hmem
    have hnone := findIdx?_eq_none_iff.mp hi b.streamId hmem
    simp at hnone
  | @flushQueue frameIdx camType ch' hf =>
    obtain rfl := hflush frameIdx camType rfl
    exact (append_nil passed).symm ▸ hB.dispatches (Flushes.dispatches hf)
  | other hdata hf =>
    have hnone : cmd.passed = [] := by
      cases cmd with
      | dataCb b => exact absurd rfl (hdata b)
      | _ => rfl
    rw [hnone, append_nil]
    exact hB.dispatches hf.dispatches

/-- **No buffer is lost, returned twice, or both returned and dispatched.** After every run
of commands with frame sync off, the buffers passed in are, each once, in the slots of the
queued nodes, returned to their streams, or enqueued to the callback thread. At low priority
this holds of the runs in which no node is released twice to make room. -/
theorem processStreamBuf_account {t₀ t : ChannelThread} {cmds : List MmCameraCmdcb} (h₀ : t₀.Initial)
    (hbundled : ∀ b, .dataCb b ∈ cmds → b.streamId ∈ t₀.ch.queue.bundledStreams)
    (hflush : ∀ frameIdx camType, .flushQueue frameIdx camType ∈ cmds → camType = .default)
    (hrun : Run (guarded (fun t cmd => t.evictsOnce cmd = true) Step) t₀ cmds t) :
    (t.ch.queue.que.flatMap MmChannelQueueNode.bufs ++
      (t.ch.out.flatMap Action.returned ++ t.ch.out.flatMap Action.delivered)).Perm
    (cmds.flatMap MmCameraCmdcb.passed) := by
  rw [← held_bundle]
  have hinv : t.FrameSyncOff ∧ Bundle.Accounted t₀.ch.bundle (cmds.flatMap MmCameraCmdcb.passed) t.ch.bundle := by
    refine hrun.history (P := fun cmds t =>
      (∀ b, .dataCb b ∈ cmds → b.streamId ∈ t₀.ch.queue.bundledStreams) →
      (∀ frameIdx camType, .flushQueue frameIdx camType ∈ cmds → camType = .default) →
      t.FrameSyncOff ∧ Bundle.Accounted t₀.ch.bundle (cmds.flatMap MmCameraCmdcb.passed) t.ch.bundle)
      ?_ ?_ hbundled hflush
    · intro _ _
      have hque : t₀.ch.bundle.que = [] := h₀.queue.que
      refine ⟨h₀.frameSyncOff, rfl, rfl, by simp [hque], fun _ => h₀.queue.ordered, ?_⟩
      rw [held_bundle, h₀.queue.que, h₀.out]
      exact List.Perm.refl _
    · rintro cmds t cmd t' - ih ⟨honce, hstep⟩ hbundled hflush
      obtain ⟨hoff, hB⟩ := ih (fun b hb => hbundled b (by simp [hb]))
        (fun frameIdx camType hf => hflush frameIdx camType (by simp [hf]))
      rw [flatMap_append, flatMap_singleton]
      refine accounted_step hoff hB (fun b hb => hbundled b (by simp [hb]))
        (fun frameIdx camType hf => hflush frameIdx camType (by simp [hf])) honce hstep
  exact hinv.2.held

/-- A low-priority super-buffer that is delivered, and the buffer of a second one. -/
theorem processStreamBuf_account_sample : ∃ t, Run (guarded (fun t cmd => t.evictsOnce cmd = true) Step)
        { ch := sampleChannel .low } [.reqDataCb { numBufRequested := 1 },
          .dataCb (previewBuf 5), .dataCb (metadataBuf 6), .dataCb (snapshotBuf 5),
          .dataCb (previewBuf 4), .dataCb (previewBuf 7)] t ∧
      t.ch.out.flatMap returned = [(previewBuf 4).buf] ∧
      (t.ch.queue.que.flatMap bufs ++ ([(previewBuf 4).buf] ++
        t.ch.out.flatMap delivered)).Perm [(previewBuf 5).buf, (metadataBuf 6).buf,
          (snapshotBuf 5).buf, (previewBuf 4).buf, (previewBuf 7).buf] := by
  have hret : (runCmds evictsOnce 5 { ch := sampleChannel .low }
      [.reqDataCb { numBufRequested := 1 }, .dataCb (previewBuf 5), .dataCb (metadataBuf 6),
        .dataCb (snapshotBuf 5), .dataCb (previewBuf 4), .dataCb (previewBuf 7)]).map
      (fun t => t.ch.out.flatMap returned) = some [(previewBuf 4).buf] := by decide
  obtain ⟨t, ht, hret⟩ := map_eq_some_iff.mp hret
  have hrun := run_of_runCmds ht
  refine ⟨t, hrun, hret, ?_⟩
  have h := @processStreamBuf_account { ch := sampleChannel .low } t _ ⟨⟨rfl, rfl, rfl⟩, rfl, rfl, by decide⟩
    (by simp [previewBuf, metadataBuf, snapshotBuf, sampleChannel]) (by simp) hrun
  rwa [hret] at h

/-- A metadata buffer that diverts its own frame. -/
def divertMetadata (frameIdx : ℕ) : MmCameraBufInfo :=
  { metadataBuf frameIdx with
    buf.buffer := some { bufDivertInfo := some frameIdx } }

/-- The low-priority channel with room for two unmatched nodes. -/
def narrowChannel : MmChannel :=
  { sampleChannel .low with queue.attr.maxUnmatchedFrames := 1 }

/-- The diverted frame 5 keeps its node. Frame 3 is completed behind it and evicted for frame
8, in place of an unmatched node; then there are two too many, and the preview buffer of
frame 7 is returned twice to make room for frame 9. -/
theorem lowPriority_returned_twice : ({ ch := narrowChannel } : ChannelThread).Initial ∧
    ∃ t, Run Step { ch := narrowChannel } [.dataCb (divertMetadata 5), .dataCb (previewBuf 5),
        .dataCb (metadataBuf 9), .dataCb (snapshotBuf 3), .dataCb (previewBuf 3),
        .dataCb (previewBuf 7), .dataCb (previewBuf 8), .dataCb (previewBuf 9)] t ∧
      (t.ch.out.flatMap returned).count (previewBuf 7).buf = 2 ∧
      ¬ (t.ch.queue.que.flatMap bufs ++ (t.ch.out.flatMap returned ++ t.ch.out.flatMap delivered)).Perm
        [(divertMetadata 5).buf, (previewBuf 5).buf, (metadataBuf 9).buf, (snapshotBuf 3).buf,
          (previewBuf 3).buf, (previewBuf 7).buf, (previewBuf 8).buf, (previewBuf 9).buf] := by
  have hret : (runCmds (fun _ _ => true) 5 { ch := narrowChannel }
      [.dataCb (divertMetadata 5), .dataCb (previewBuf 5), .dataCb (metadataBuf 9),
        .dataCb (snapshotBuf 3), .dataCb (previewBuf 3), .dataCb (previewBuf 7),
        .dataCb (previewBuf 8), .dataCb (previewBuf 9)]).map
      (fun t => (t.ch.out.flatMap returned).count (previewBuf 7).buf) = some 2 := by
    decide
  obtain ⟨t, ht, hret⟩ := map_eq_some_iff.mp hret
  refine ⟨⟨⟨rfl, rfl, rfl⟩, rfl, rfl, by decide⟩, t, (run_of_runCmds ht).of_guarded, hret, fun hperm => ?_⟩
  have hcount := hperm.count_eq (previewBuf 7).buf
  rw [count_append, count_append, hret] at hcount
  have hone : count (previewBuf 7).buf [(divertMetadata 5).buf, (previewBuf 5).buf,
    (metadataBuf 9).buf, (snapshotBuf 3).buf, (previewBuf 3).buf, (previewBuf 7).buf,
    (previewBuf 8).buf, (previewBuf 9).buf] = 1 := by decide
  omega

end ChannelThread

end Marlin
