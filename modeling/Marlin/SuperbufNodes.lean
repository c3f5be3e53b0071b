import Marlin.ChannelRefine

/-!
# What the Nodes of a Bundle Hold

Two invariants of the nodes of the super-buffer queue. `MmChannelQueueNode.WellFormed`: a
node has one slot per bundled stream, a filled slot holds a buffer of its stream, and a
matched node has no empty slot. `MmChannelQueueNode.Aligned`: the buffers of a node are of
one frame; under low-priority bundling the metadata may be of a later one.

The invariants hold after every run of commands, and what they say of a matched node is
what the callback thread is sent.

## Main results

* `Bundle.Step.wellFormed`, `Bundle.Step.aligned`: every step preserves them.
* `sent_superBuf_complete`: a super-buffer that is sent is complete and of one frame.
* `run_refines`: a run of the thread is a run of the bundle.
-/

namespace Marlin

open MmChannelQueueNode List Option Transition MmChannel

namespace MmChannelQueueNode

/-- Slot `i` of the node is filled, with buffer `b`. -/
def Holds (n : MmChannelQueueNode) (i : ℕ) (b : MmCameraBufInfo) : Prop :=
  n.superBuf[i]? = some (some b)

/-- The slots of a node, one for each bundled stream. -/
structure WellFormed (streams : List ℕ) (n : MmChannelQueueNode) : Prop where
  length : n.superBuf.length = streams.length
  slot : ∀ i b, n.Holds i b → b.frameIdx ≠ 0 ∧ streams[i]? = some b.streamId
  full : n.matched = true → n.allFilled = true

/-- The frames of a node. `low` says that the bundling is of low priority, and `metaIdx` is
the slot of the metadata stream. -/
structure Aligned (low : Prop) (metaIdx : ℕ) (n : MmChannelQueueNode) : Prop where
  kind : low → ∀ i b, n.Holds i b → (b.buf.streamType = .metadata ↔ i = metaIdx)
  same : ∀ i b, n.Holds i b → (low → i ≠ metaIdx) → b.frameIdx = n.frameIdx
  later : ∀ b, n.Holds metaIdx b → n.frameIdx ≤ b.frameIdx
  metaOnly : 0 < n.unmatchedMetaIdx → n.frameIdx = n.unmatchedMetaIdx ∧
    (∃ b, n.Holds metaIdx b) ∧ ∀ i b, n.Holds i b → i = metaIdx

variable {streams : List ℕ} {n : MmChannelQueueNode} {i : ℕ}

theorem WellFormed.slotFrameIdx_eq_zero (h : n.WellFormed streams) : n.slotFrameIdx i = 0 ↔ ∀ b, ¬ n.Holds i b := by
  unfold slotFrameIdx
  constructor
  · intro h0 b hb
    have hget : n.superBuf[i]? = some (some b) := hb
    simp only [hget, join_some, map_some, getD_some] at h0
    exact (h.slot i b hb).1 h0
  · intro hnone
    cases hs : n.superBuf[i]? with
    | none => rfl
    | some s =>
      cases s with
      | none => rfl
      | some b => exact absurd hs (hnone b)

theorem WellFormed.filledBufs_eq (h : n.WellFormed streams) : n.filledBufs = n.bufs := by
  unfold filledBufs bufs
  refine filterMap_congr fun s hs => ?_
  cases s with
  | none => rfl
  | some b =>
    obtain ⟨i, hi⟩ := mem_iff_getElem?.mp hs
    simp [(h.slot i b hi).1]

theorem holds_of_allFilled (h : n.allFilled = true) (hi : i < n.superBuf.length) : ∃ b, n.Holds i b := by
  have hs := all_eq_true.mp h n.superBuf[i] (getElem_mem hi)
  cases hb : n.superBuf[i] with
  | none => simp [hb] at hs
  | some b => exact ⟨b, by rw [Holds, getElem?_eq_getElem hi, hb]⟩

theorem put_holds {j : ℕ} {b c : MmCameraBufInfo}
    (h : (n.put i b).Holds j c) : (j = i ∧ c = b) ∨ (j ≠ i ∧ n.Holds j c) := by
  simp only [Holds, put, getElem?_set] at h
  split at h
  · rename_i hij
    split at h
    · simp only [some.injEq] at h
      exact Or.inl ⟨hij.symm, h.symm⟩
    · simp at h
  · rename_i hij
    exact Or.inr ⟨fun hji => hij hji.symm, h⟩

@[simp] theorem put_unmatchedMetaIdx (n : MmChannelQueueNode) (i : ℕ) (b : MmCameraBufInfo) :
    (n.put i b).unmatchedMetaIdx = 0 := by
  simp only [put, resetMetaOnly]
  split
  · rfl
  · simp_all

theorem put_frameIdx (n : MmChannelQueueNode) (i : ℕ) (b : MmCameraBufInfo) :
    (n.put i b).frameIdx = if 0 < n.unmatchedMetaIdx then b.frameIdx else n.frameIdx := by
  simp only [put, resetMetaOnly]
  split <;> rfl

theorem WellFormed.put {b : MmCameraBufInfo} (h : n.WellFormed streams) (hb : b.frameIdx ≠ 0)
    (hi : streams[i]? = some b.streamId) {matched expected : Bool}
    (hfull : matched = true → (n.put i b).allFilled = true) :
    WellFormed streams { n.put i b with matched := matched, expectedFrame := expected } := by
  refine ⟨?_, fun j c hc => ?_, hfull⟩
  · simp only [MmChannelQueueNode.put, length_set]
    exact h.length
  · rcases put_holds hc with ⟨rfl, rfl⟩ | ⟨-, hc⟩
    · exact ⟨hb, hi⟩
    · exact h.slot j c hc

theorem WellFormed.resetMetaOnly (frameIdx : ℕ) (h : n.WellFormed streams) :
    (MmChannel.resetMetaOnly n frameIdx).WellFormed streams := by
  unfold MmChannel.resetMetaOnly
  split
  · exact ⟨h.length, h.slot, h.full⟩
  · exact h

end MmChannelQueueNode

namespace Bundle

variable {B : Bundle} {i : ℕ} {b : MmCameraBufInfo}

theorem newNode_holds {j : ℕ} {c : MmCameraBufInfo} {expected : Bool}
    (h : (B.newNode i b expected).Holds j c) : j = i ∧ c = b := by
  simp only [MmChannelQueueNode.Holds, newNode, getElem?_set, length_replicate, getElem?_replicate] at h
  split at h
  · rename_i hij
    split at h
    · simp only [some.injEq] at h
      exact ⟨hij.symm, h.symm⟩
    · simp at h
  · split at h <;> simp at h

theorem newNode_holds_self (b : MmCameraBufInfo) (expected : Bool)
    (hi : i < B.bundledStreams.length) : (B.newNode i b expected).Holds i b := by
  simp [MmChannelQueueNode.Holds, newNode, hi]

theorem newNode_wellFormed (expected : Bool) (hb : b.frameIdx ≠ 0) (hi : B.bundledStreams[i]? = some b.streamId) :
    (B.newNode i b expected).WellFormed B.bundledStreams := by
  obtain ⟨hlt, -⟩ := List.getElem?_eq_some_iff.mp hi
  refine ⟨by simp [newNode], fun j c hc => ?_, fun hm => ?_⟩
  · obtain ⟨rfl, rfl⟩ := newNode_holds hc
    exact ⟨hb, hi⟩
  · have hone : B.bundledStreams.length = 1 := by simpa [newNode] using hm
    have hi0 : i = 0 := by omega
    subst hi0
    simp [newNode, hone, allFilled, hb]

/-- The buffer that is offered is of the stream of its slot. -/
def Act.InSlot (B : Bundle) : Act → Prop
  | .enqueue i b _ => B.bundledStreams[i]? = some b.streamId
  | _ => True

/-- A buffer is offered in its slot, and under low-priority bundling the metadata buffers
are those of slot `metaIdx`. -/
def Act.Proper (B : Bundle) (metaIdx : ℕ) (a : Act) : Prop :=
  a.InSlot B ∧ ∀ i b visits, a = .enqueue i b visits → B.attr.priority = .low →
    (b.buf.streamType = .metadata ↔ i = metaIdx)

variable {metaIdx : ℕ} {a : Act}

theorem Act.proper_of_ne (h : ∀ i b visits, a ≠ .enqueue i b visits) : a.Proper B metaIdx := by
  refine ⟨?_, fun i b visits ha => absurd ha (h i b visits)⟩
  cases a with
  | enqueue i b visits => exact absurd rfl (h i b visits)
  | _ => trivial

variable {B' : Bundle}

theorem Step.fixed (h : Step B a B') : B'.bundledStreams = B.bundledStreams ∧ B'.attr = B.attr := by
  cases h with
  | insert h expected =>
    simp only
    split <;> exact ⟨rfl, rfl⟩
  | _ => exact ⟨rfl, rfl⟩

/-- The nodes that an enqueue can bring about: the node that the buffer joins, with its slot
taken or with the buffer put into it, or a new node. -/
inductive Fresh (B : Bundle) (i : ℕ) (b : MmCameraBufInfo) : MmChannelQueueNode → Prop
  | reset {n : MmChannelQueueNode} (hn : n ∈ B.que) (hj : B.joins i b n = true)
      (hs : n.slotFrameIdx i ≠ 0) : Fresh B i b (MmChannel.resetMetaOnly n b.frameIdx)
  | put {n : MmChannelQueueNode} (hn : n ∈ B.que) (hj : B.joins i b n = true)
      (hs : n.slotFrameIdx i = 0) (hb : b.frameIdx ≠ 0) {matched expected : Bool}
      (hfull : matched = true → (n.put i b).allFilled = true) :
      Fresh B i b { n.put i b with matched := matched, expectedFrame := expected }
  | new (hb : b.frameIdx ≠ 0) (expected : Bool) : Fresh B i b (B.newNode i b expected)

/-- **Where nodes come from**: a node was there before the step, or an enqueue brought it
about. -/
theorem Step.mem (h : Step B a B') {m : MmChannelQueueNode} (hm : m ∈ B'.que) :
    m ∈ B.que ∨ ∃ i b visits, a = .enqueue i b visits ∧ B.Fresh i b m := by
  have between : ∀ {pre post : List MmChannelQueueNode} {n n' : MmChannelQueueNode},
      B.que = pre ++ n :: post → m ∈ pre ++ n' :: post → m ∈ B.que ∨ m = n' := by
    intro pre post n n' hq hm
    rw [hq]
    simp only [mem_append, mem_cons] at hm ⊢
    tauto
  cases h with
  | flush camType hq => exact Or.inl (hq ▸ mem_cons_of_mem _ hm)
  | dequeue hq hn => exact Or.inl (hq ▸ mem_cons_of_mem _ hm)
  | dequeueFrame hq hn =>
    rcases mem_append.mp hm with hm | hm
    · exact Or.inl (hq ▸ mem_append_left _ hm)
    · exact Or.inl (hq ▸ mem_append_right _ (mem_cons_of_mem _ hm))
  | send hq hn hd => exact Or.inl (hq ▸ mem_cons_of_mem _ hm)
  | discard => exact Or.inl hm
  | taken h hs =>
    have hn := h.mem
    rcases between h.que hm with hm | rfl
    · exact Or.inl hm
    · exact Or.inr ⟨_, _, _, rfl, .reset hn h.joins hs⟩
  | keep h hs hopen expected =>
    have hn := h.mem
    rcases between h.que hm with hm | rfl
    · exact Or.inl hm
    · exact Or.inr ⟨_, _, _, rfl, .put hn h.joins hs h.frame (by simp)⟩
  | @complete i b pre post n h hs hfull =>
    have hn := h.mem
    have hm : m ∈ pre ++ { n.put i b with matched := true, expectedFrame := false } ::
        post := by
      refine (List.Sublist.append_right ?_ _).mem hm
      exact takeWhile_sublist _
    rcases between h.que hm with hm | rfl
    · exact Or.inl hm
    · exact Or.inr ⟨_, _, _, rfl, .put hn h.joins hs h.frame (fun _ => hfull)⟩
  | @insert i b evicted visits fst snd h expected =>
    have hm : m ∈ fst ++ B.newNode i b expected :: snd := by
      simp only at hm
      split at hm <;> exact hm
    have hold := h.mem (m := m)
    simp only [mem_append, mem_cons] at hm hold
    rcases hm with hm | rfl | hm
    · exact Or.inl (hold (Or.inl hm))
    · exact Or.inr ⟨_, _, _, rfl, .new h.frame expected⟩
    · exact Or.inl (hold (Or.inr hm))
  | noMemory h => exact Or.inl (h.mem hm)

/-- **Every step keeps the nodes well formed.** -/
theorem Step.wellFormed (h : Step B a B') (ha : a.InSlot B) (hB : ∀ n ∈ B.que, n.WellFormed B.bundledStreams) :
    ∀ n ∈ B'.que, n.WellFormed B'.bundledStreams := by
  intro m hm
  rw [h.fixed.1]
  rcases h.mem hm with hm | ⟨i, b, visits, rfl, hfresh⟩
  · exact hB m hm
  · cases hfresh with
    | reset hn hj hs => exact (hB _ hn).resetMetaOnly b.frameIdx
    | put hn hj hs hb hfull => exact (hB _ hn).put hb ha hfull
    | new hb expected => exact newNode_wellFormed expected hb ha

/-! ### The frames of a node -/

variable {n : MmChannelQueueNode}

theorem joins_cases (h : B.joins i b n = true) : b.frameIdx = n.frameIdx ∨
    (B.attr.priority = .low ∧ n.slotFrameIdx i = 0 ∧ b.buf.streamType = .metadata ∧ n.frameIdx < b.frameIdx) ∨
    (B.attr.priority = .low ∧ b.buf.streamType ≠ .metadata ∧ n.slotFrameIdx i = 0 ∧
      b.frameIdx < n.unmatchedMetaIdx) := by
  simp only [joins, MmChannel.joins, Bool.or_eq_true, Bool.and_eq_true, beq_iff_eq,
    decide_eq_true_eq, bne_iff_ne, ne_eq, and_assoc] at h
  rcases h with (h | h) | h
  · exact Or.inl h
  · exact Or.inr (Or.inl h)
  · exact Or.inr (Or.inr h)

theorem joins_of_eq (h : b.frameIdx = n.frameIdx) : B.joins i b n = true := by
  simp [joins, MmChannel.joins, h]

theorem frameIdx_of_taken (h : B.joins i b n = true) (hs : n.slotFrameIdx i ≠ 0) : b.frameIdx = n.frameIdx := by
  rcases joins_cases h with h | ⟨-, h0, -⟩ | ⟨-, -, h0, -⟩
  · exact h
  · exact absurd h0 hs
  · exact absurd h0 hs

theorem aligned_put (hn : n.Aligned (B.attr.priority = .low) metaIdx)
    (hw : n.WellFormed B.bundledStreams) (hj : B.joins i b n = true)
    (hs : n.slotFrameIdx i = 0)
    (hkind : B.attr.priority = .low → (b.buf.streamType = .metadata ↔ i = metaIdx))
    (matched expected : Bool) :
    MmChannelQueueNode.Aligned (B.attr.priority = .low) metaIdx
      { n.put i b with matched := matched, expectedFrame := expected } := by
  have hempty := hw.slotFrameIdx_eq_zero.mp hs
  -- the frame index of the node, and where it comes from
  have hframe := put_frameIdx n i b
  constructor
  · intro hlow j c hc
    rcases put_holds hc with ⟨rfl, rfl⟩ | ⟨-, hc⟩
    · exact hkind hlow
    · exact hn.kind hlow j c hc
  · intro j c hc hne
    change c.frameIdx = (n.put i b).frameIdx
    rw [hframe]
    rcases put_holds hc with ⟨rfl, rfl⟩ | ⟨-, hc⟩
    · split
      · rfl
      · rename_i hmeta
        rcases joins_cases hj with h | ⟨hlow, -, htype, -⟩ | ⟨-, -, -, hlt⟩
        · exact h
        · exact absurd ((hkind hlow).mp htype) (hne hlow)
        · omega
    · split
      · rename_i hmeta
        have hjm : j = metaIdx := (hn.metaOnly hmeta).2.2 j c hc
        rcases joins_cases hj with h | ⟨hlow, -⟩ | ⟨hlow, -⟩
        · rw [h]
          by_cases hlow : B.attr.priority = .low
          · exact absurd hjm (hne hlow)
          · exact hn.same j c hc (fun hl => absurd hl hlow)
        · exact absurd hjm (hne hlow)
        · exact absurd hjm (hne hlow)
      · exact hn.same j c hc hne
  · intro c hc
    change (n.put i b).frameIdx ≤ c.frameIdx
    rw [hframe]
    rcases put_holds hc with ⟨rfl, rfl⟩ | ⟨hne, hc⟩
    · split
      · exact le_refl _
      · rename_i hmeta
        rcases joins_cases hj with h | ⟨-, -, -, hlt⟩ | ⟨-, -, -, hlt⟩ <;> omega
    · have hlater := hn.later c hc
      split
      · rename_i hmeta
        have hown := (hn.metaOnly hmeta).1
        rcases joins_cases hj with h | ⟨hlow, -, htype, -⟩ | ⟨-, -, -, hlt⟩
        · omega
        · exact absurd ((hkind hlow).mp htype) (Ne.symm hne)
        · omega
      · exact hlater
  · intro hpos
    exact absurd hpos (by simp)

/-- Every step keeps the frames of the nodes together. -/
theorem Step.aligned (h : Step B a B') (ha : a.Proper B metaIdx) (hw : ∀ n ∈ B.que, n.WellFormed B.bundledStreams)
    (hB : ∀ n ∈ B.que, n.Aligned (B.attr.priority = .low) metaIdx) :
    ∀ n ∈ B'.que, n.Aligned (B'.attr.priority = .low) metaIdx := by
  intro m hm
  rw [h.fixed.2]
  rcases h.mem hm with hm | ⟨i, b, visits, rfl, hfresh⟩
  · exact hB m hm
  · cases hfresh with
    | @reset n hn hj hs =>
      have hframe := frameIdx_of_taken hj hs
      have hal := hB n hn
      unfold MmChannel.resetMetaOnly
      split
      · exact ⟨hal.kind, hframe ▸ hal.same, hframe ▸ hal.later, by simp⟩
      · exact hal
    | put hn hj hs hb hfull =>
      exact aligned_put (hB _ hn) (hw _ hn) hj hs (ha.2 i b visits rfl) _ _
    | new hb expected =>
      have hi : B.bundledStreams[i]? = some b.streamId := ha.1
      have hkind := ha.2 i b visits rfl
      obtain ⟨hlt, -⟩ := List.getElem?_eq_some_iff.mp hi
      constructor
      · intro hlow j c hc
        obtain ⟨rfl, rfl⟩ := newNode_holds hc
        exact hkind hlow
      · intro j c hc _
        obtain ⟨-, rfl⟩ := newNode_holds hc
        rfl
      · intro c hc
        obtain ⟨-, rfl⟩ := newNode_holds hc
        exact le_refl _
      · intro hpos
        simp only [newNode] at hpos ⊢
        split at hpos
        · rename_i hmeta
          have him := (hkind hmeta.1).mp hmeta.2
          refine ⟨by rw [if_pos hmeta], ⟨b, him ▸ newNode_holds_self b expected hlt⟩, ?_⟩
          intro j c hc
          exact (newNode_holds hc).1.trans him
        · simp at hpos

/-! ### What is sent -/

/-- The nodes of the queue are well formed and aligned, and so is every node that was sent,
which is complete. -/
structure Sound (metaIdx : ℕ) (B : Bundle) : Prop where
  wellFormed : ∀ n ∈ B.que, n.WellFormed B.bundledStreams
  aligned : ∀ n ∈ B.que, n.Aligned (B.attr.priority = .low) metaIdx
  sent : ∀ n ∈ B.sent, n.WellFormed B.bundledStreams ∧ n.Aligned (B.attr.priority = .low) metaIdx ∧ n.matched = true

/-- The nodes sent after a step: those sent before, and a matched node of the queue. -/
theorem Step.sent (h : Step B a B') : B'.sent = B.sent ∨ ∃ n ∈ B.que, n.matched = true ∧ B'.sent = B.sent ++ [n] := by
  cases h with
  | @send n rest delivery hq hm hd =>
    refine Or.inr ⟨n, hq ▸ mem_cons_self, hm, ?_⟩
    have hnone : delivery.flatMap Action.sent = [] := by
      rcases hd with ⟨ready, unlock, rfl⟩ | rfl <;>
        simp [flatMap_map, Action.sent]
    have hpop := pop_sent B n rest
    simp only [Bundle.sent, log, flatMap_append, flatMap_cons, Action.sent, hnone, append_nil] at hpop ⊢
    rw [hpop]
  | dequeueFrame hq hm => exact Or.inl rfl
  | keep h hs hopen expected => exact Or.inl rfl
  | insert h expected =>
    left
    simp only
    split
    · rw [countMatch_sent]
      exact qbufs_sent _ _
    · exact qbufs_sent _ _
  | noMemory h =>
    left
    rw [qbufs_sent]
    exact qbufs_sent _ _
  | complete h hs hfull =>
    left
    rw [qbufs_sent, countMatch_sent]
    rfl
  | dequeue hq hm => exact Or.inl (pop_sent _ _ _)
  | flush camType hq => exact Or.inl ((qbufs_sent _ _).trans (pop_sent _ _ _))
  | discard => exact Or.inl (qbufs_sent _ _)
  | taken h hs => exact Or.inl (qbufs_sent _ _)

theorem Step.sound (h : Step B a B') (ha : a.Proper B metaIdx) (hB : B.Sound metaIdx) : B'.Sound metaIdx := by
  refine ⟨h.wellFormed ha.1 hB.wellFormed, h.aligned ha hB.wellFormed hB.aligned, ?_⟩
  intro n hn
  rw [h.fixed.1, h.fixed.2]
  rcases h.sent with hs | ⟨m, hm, hmm, hs⟩
  · exact hB.sent n (hs ▸ hn)
  · rw [hs, mem_append, mem_singleton] at hn
    rcases hn with hn | rfl
    · exact hB.sent n hn
    · exact ⟨hB.wellFormed n hm, hB.aligned n hm, hmm⟩

end Bundle

namespace MmChannel

/-- The empty queue with which a bundle starts. -/
structure EmptyQueue (ch : MmChannel) : Prop where
  que : ch.queue.que = []
  size : ch.queue.size = 0
  matchCnt : ch.queue.matchCnt = 0

/-! ### Sample channels -/

/-- A stream of a sample channel. -/
def sampleStream (hdl : ℕ) (streamType : CamStreamType) : MmStream where
  myHdl := hdl
  state := .active
  streamInfo := some { streamType := streamType }
  chObj := 1

/-- A channel that bundles preview, snapshot and metadata. -/
def sampleChannel (priority : SuperBufPriority) : MmChannel where
  myHdl := 1
  streams := [sampleStream 10 .preview, sampleStream 11 .snapshot, sampleStream 12 .metadata]
  queue := {
    bundledStreams := [10, 11, 12]
    attr := { waterMark := 1, maxUnmatchedFrames := 5, priority := priority } }

/-- A preview buffer of a frame. -/
def previewBuf (frameIdx : ℕ) : MmCameraBufInfo where
  streamId := 10
  frameIdx := frameIdx
  buf := { streamId := 10, streamType := .preview, bufIdx := frameIdx }

/-- A snapshot buffer of a frame. -/
def snapshotBuf (frameIdx : ℕ) : MmCameraBufInfo where
  streamId := 11
  frameIdx := frameIdx
  buf := { streamId := 11, streamType := .snapshot, bufIdx := frameIdx }

/-- A metadata buffer of a frame. -/
def metadataBuf (frameIdx : ℕ) : MmCameraBufInfo where
  streamId := 12
  frameIdx := frameIdx
  buf := { streamId := 12, streamType := .metadata, bufIdx := frameIdx, buffer := some {} }

end MmChannel

namespace ChannelThread

/-- A thread that is about to start: its queue is empty, it has made no calls, and frame
sync is off. -/
structure Initial (t : ChannelThread) : Prop where
  queue : t.ch.EmptyQueue
  out : t.ch.out = []
  sync : t.ch.queue.attr.enableFrameSync = false
  table : ∀ n ∈ t.fs.node, n.matched = false

variable {t : ChannelThread}

theorem Initial.frameSyncOff (h : t.Initial) : t.FrameSyncOff := by
  refine ⟨⟨h.sync, fun frameIdx => ?_⟩, h.table⟩
  simp [bundle, h.out]

theorem Initial.sound (h : t.Initial) (metaIdx : ℕ) : t.ch.bundle.Sound metaIdx := by
  have hque : t.ch.bundle.que = [] := h.queue.que
  refine ⟨by simp [hque], by simp [hque], ?_⟩
  simp [Bundle.sent, bundle, h.out]

theorem slot_eq_iff {streams : List ℕ} {hdl metaHdl i : ℕ} (hi : streams.findIdx? (hdl == ·) = some i) :
    i = streams.findIdx (metaHdl == ·) ↔ hdl = metaHdl := by
  obtain ⟨hlt, hfind⟩ := findIdx?_eq_some_iff_findIdx_eq.mp hi
  constructor
  · intro h
    have h₁ : (hdl == streams[i]) = true := by
      subst hfind
      exact findIdx_getElem (w := hlt)
    have h₂ : (metaHdl == streams[i]) = true := by
      subst h
      exact findIdx_getElem (w := hlt)
    rw [beq_iff_eq] at h₁ h₂
    rw [h₁, h₂]
  · rintro rfl
    exact hfind.symm

theorem stream_of_slot {streams : List ℕ} {hdl i : ℕ}
    (hi : streams.findIdx? (hdl == ·) = some i) : streams[i]? = some hdl := by
  obtain ⟨hlt, hp, -⟩ := findIdx?_eq_some_iff_getElem.mp hi
  rw [beq_iff_eq] at hp
  rw [getElem?_eq_getElem hlt, hp]

/-- The metadata buffers of the bundled streams are those of one stream. -/
def MetaStream (streams : List ℕ) (metaHdl : ℕ) (cmds : List MmCameraCmdcb) : Prop :=
  ∀ b, .dataCb b ∈ cmds → b.streamId ∈ streams → (b.buf.streamType = .metadata ↔ b.streamId = metaHdl)

theorem run_sound {t₀ : ChannelThread} {cmds : List MmCameraCmdcb} {metaHdl : ℕ} (h₀ : t₀.Initial)
    (hmeta : t₀.ch.queue.attr.priority = .low → MetaStream t₀.ch.queue.bundledStreams metaHdl cmds)
    (hrun : Run Step t₀ cmds t) :
    t.FrameSyncOff ∧ t.ch.bundle.bundledStreams = t₀.ch.bundle.bundledStreams ∧ t.ch.bundle.attr = t₀.ch.bundle.attr ∧
      t.ch.bundle.Sound (t₀.ch.queue.bundledStreams.findIdx (metaHdl == ·)) := by
  set metaIdx := t₀.ch.queue.bundledStreams.findIdx (metaHdl == ·) with hidx
  refine hrun.history (P := fun cmds t => (t₀.ch.queue.attr.priority = .low →
      MetaStream t₀.ch.queue.bundledStreams metaHdl cmds) →
    t.FrameSyncOff ∧ t.ch.bundle.bundledStreams = t₀.ch.bundle.bundledStreams ∧
      t.ch.bundle.attr = t₀.ch.bundle.attr ∧ t.ch.bundle.Sound metaIdx) ?_ ?_ hmeta
  · exact fun _ => ⟨h₀.frameSyncOff, rfl, rfl, h₀.sound metaIdx⟩
  · rintro cmds t cmd t' - ih ⟨fuel, hstep⟩ hmeta
    obtain ⟨hoff, hstreams, hattr, hsound⟩ := ih fun hlow b hb =>
      hmeta hlow b (mem_append_left _ hb)
    obtain ⟨hreach, hoff'⟩ := processStreamBuf_reaches hoff hstep
    refine ⟨hoff', ?_⟩
    refine hreach.invariant (I := fun B => B.bundledStreams = t₀.ch.bundle.bundledStreams ∧
      B.attr = t₀.ch.bundle.attr ∧ B.Sound metaIdx) ?_ ⟨hstreams, hattr, hsound⟩
    rintro B a B' hact ⟨hBs, hBa, hB⟩ hs
    refine ⟨hs.fixed.1.trans hBs, hs.fixed.2.trans hBa, hs.sound ?_ hB⟩
    cases a with
    | enqueue i b visits =>
      obtain ⟨rfl, hi, -⟩ := hact
      have hi₀ : t₀.ch.queue.bundledStreams.findIdx? (b.streamId == ·) = some i :=
        (congrArg (findIdx? (b.streamId == ·)) hstreams).symm.trans hi
      have hslot := stream_of_slot hi₀
      have hin : B.bundledStreams[i]? = some b.streamId := by
        rw [hBs]
        exact hslot
      refine ⟨hin, ?_⟩
      rintro _ _ _ ⟨⟩ hlow
      rw [hidx, slot_eq_iff hi₀]
      exact hmeta (by rw [hBa] at hlow; exact hlow) b (by simp) (mem_of_getElem? hslot)
    | _ => exact Bundle.Act.proper_of_ne (by simp)

/-- **A super-buffer that is sent is complete and of one frame.** In every run of commands
with frame sync off, a node handed to `mm_channel_send_super_buf` holds one buffer of each
bundled stream, in the order of the streams. All are of the frame of the node; only under
low-priority bundling, the metadata buffer may be of a later one. -/
theorem sent_superBuf_complete {t₀ t : ChannelThread} {cmds : List MmCameraCmdcb} {metaHdl : ℕ} (h₀ : t₀.Initial)
    (hmeta : t₀.ch.queue.attr.priority = .low → MetaStream t₀.ch.queue.bundledStreams metaHdl cmds)
    (hrun : Run Step t₀ cmds t) {n : MmChannelQueueNode} (hn : .sendSuperBuf n ∈ t.ch.out) :
    n.numOfBufs = t₀.ch.queue.numStreams ∧
    ∀ i hdl : ℕ, t₀.ch.queue.bundledStreams[i]? = some hdl →
      ∃ b : MmCameraBufInfo, n.superBuf[i]? = some (some b) ∧ b.streamId = hdl ∧
        (t₀.ch.queue.attr.priority ≠ .low → b.frameIdx = n.frameIdx) ∧
        (t₀.ch.queue.attr.priority = .low → (b.buf.streamType ≠ .metadata → b.frameIdx = n.frameIdx) ∧
          (b.buf.streamType = .metadata → n.frameIdx ≤ b.frameIdx)) := by
  obtain ⟨-, hstreams, hattr, hsound⟩ := run_sound h₀ hmeta hrun
  have hsent : n ∈ t.ch.bundle.sent :=
    Bundle.mem_sent.mpr (mem_filter.mpr ⟨hn, rfl⟩)
  obtain ⟨hw, hal, hm⟩ := hsound.sent n hsent
  rw [hstreams] at hw
  rw [hattr] at hal
  have hlow : t₀.ch.bundle.attr.priority = t₀.ch.queue.attr.priority := rfl
  rw [hlow] at hal
  refine ⟨hw.length, fun i hdl hi => ?_⟩
  obtain ⟨hlt, -⟩ := List.getElem?_eq_some_iff.mp hi
  obtain ⟨b, hb⟩ := holds_of_allFilled (hw.full hm) (hw.length ▸ hlt)
  have hstream : some b.streamId = some hdl := (hw.slot i b hb).2.symm.trans hi
  refine ⟨b, hb, some.inj hstream, fun hp => ?_, fun hp => ⟨fun ht => ?_, fun ht => ?_⟩⟩
  · exact hal.same i b hb fun h => absurd h hp
  · exact hal.same i b hb fun h him => ht ((hal.kind h i b hb).mpr him)
  · have him := (hal.kind hp i b hb).mp ht
    exact hal.later b (him ▸ hb)

/-- A low-priority super-buffer is sent with metadata of a later frame. -/
theorem sent_superBuf_complete_sample :
    ∃ t n, Run Step { ch := sampleChannel .low } [.reqDataCb { numBufRequested := 1 },
        .dataCb (previewBuf 5), .dataCb (metadataBuf 6), .dataCb (snapshotBuf 5)] t ∧
      .sendSuperBuf n ∈ t.ch.out ∧ n.numOfBufs = 3 ∧
      ∀ i hdl : ℕ, [10, 11, 12][i]? = some hdl →
        ∃ b : MmCameraBufInfo, n.superBuf[i]? = some (some b) ∧ b.streamId = hdl ∧
          (b.buf.streamType ≠ .metadata → b.frameIdx = n.frameIdx) ∧
          (b.buf.streamType = .metadata → n.frameIdx ≤ b.frameIdx) := by
  have hcount : (runCmds (fun _ _ => true) 5 { ch := sampleChannel .low } [.reqDataCb { numBufRequested := 1 },
      .dataCb (previewBuf 5), .dataCb (metadataBuf 6), .dataCb (snapshotBuf 5)]).map
        (fun t => (t.ch.out.flatMap Action.sent).length) = some 1 := by decide
  obtain ⟨t, ht, hlen⟩ := map_eq_some_iff.mp hcount
  have hrun := (run_of_runCmds ht).of_guarded
  have hmeta : MetaStream [10, 11, 12] 12 [.reqDataCb { numBufRequested := 1 },
      .dataCb (previewBuf 5), .dataCb (metadataBuf 6), .dataCb (snapshotBuf 5)] := by
    simp [MetaStream, previewBuf, metadataBuf, snapshotBuf]
  obtain ⟨n, hn⟩ : ∃ n, n ∈ t.ch.out.flatMap Action.sent :=
    exists_mem_of_length_pos (by omega)
  have hsent : .sendSuperBuf n ∈ t.ch.out := by
    obtain ⟨a, ha, hna⟩ := mem_flatMap.mp hn
    cases a <;> simp_all [Action.sent]
  obtain ⟨hnum, hslots⟩ := @sent_superBuf_complete { ch := sampleChannel .low } t _ 12
    ⟨⟨rfl, rfl, rfl⟩, rfl, rfl, by decide⟩ (fun _ => hmeta) hrun n hsent
  refine ⟨t, n, hrun, hsent, hnum, fun i hdl hi => ?_⟩
  obtain ⟨b, hb, hstream, -, hlow⟩ := hslots i hdl hi
  exact ⟨b, hb, hstream, hlow rfl⟩

/-! ### Whole runs of the thread -/

/-- The buffer that a step offers to the queue, with its slot. -/
def offered : Bundle.Act → Option (ℕ × MmCameraBufInfo)
  | .enqueue bufSIdx b _ => some (bufSIdx, b)
  | _ => none

/-- The buffer of a bundled stream that comes with a command. -/
def offeredBy (streams : List ℕ) : MmCameraCmdcb → Option (ℕ × MmCameraBufInfo)
  | .dataCb b => (streams.findIdx? (b.streamId == ·)).map (·, b)
  | _ => none

theorem run_of_silent {A : Bundle.Act → Prop} {B B' : Bundle} (hA : ∀ a, A a → offered a = none)
    (h : Reaches Bundle.Step A B B') : ∃ acts, Run Bundle.Step B acts B' ∧ acts.filterMap offered = [] := by
  obtain ⟨acts, hrun, hall⟩ := h
  exact ⟨acts, hrun, filterMap_eq_nil_iff.mpr fun a ha => hA a (hall a ha)⟩

/-- One command is a run of the bundle that is offered the command's buffer. -/
theorem processStreamBuf_offers {t' : ChannelThread} {fuel : ℕ} {cmd : MmCameraCmdcb} (hoff : t.FrameSyncOff)
    (h : t.processStreamBuf fuel cmd = some t') : t'.FrameSyncOff ∧
      ∃ acts, Run Bundle.Step t.ch.bundle acts t'.ch.bundle ∧
        acts.filterMap offered = (offeredBy t.ch.queue.bundledStreams cmd).toList := by
  obtain ⟨ch, hcmd, hdisp, hoff'⟩ := processStreamBuf_steps hoff h
  obtain ⟨rest, hrest, hnone⟩ := run_of_silent (by rintro _ (rfl | ⟨n, rfl⟩) <;> rfl) hdisp
  refine ⟨hoff', ?_⟩
  cases hcmd with
  | dataCb hi hf hv hs =>
    obtain ⟨acts, hacts, hflush⟩ := run_of_silent (by rintro _ rfl; rfl) hf
    exact ⟨_, (hacts.snoc hs).trans hrest, by simp [hflush, hnone, offered, offeredBy, hi]⟩
  | unbundled hi => exact ⟨rest, hrest, by simp [hnone, offeredBy, hi]⟩
  | flushQueue hf =>
    obtain ⟨acts, hacts, hflush⟩ := run_of_silent (by rintro _ rfl; rfl) hf
    exact ⟨_, hacts.trans hrest, by simp [hflush, hnone, offeredBy]⟩
  | other hdata hf =>
    obtain ⟨acts, hacts, hflush⟩ := run_of_silent (by rintro _ rfl; rfl) hf
    refine ⟨_, hacts.trans hrest, ?_⟩
    cases cmd with
    | dataCb b => exact absurd rfl (hdata b)
    | _ => simp [hflush, hnone, offeredBy]

/-- **A run of the thread is a run of the bundle**, which is offered the buffers of the commands that are of bundled
streams, each once and in order. -/
theorem run_refines {t₀ : ChannelThread} {cmds : List MmCameraCmdcb} (hoff : t₀.FrameSyncOff)
    (hrun : Run Step t₀ cmds t) : ∃ acts, Run Bundle.Step t₀.ch.bundle acts t.ch.bundle ∧
      acts.filterMap offered = cmds.filterMap (offeredBy t₀.ch.queue.bundledStreams) := by
  refine (hrun.history (P := fun cmds t => t.FrameSyncOff ∧ ∃ acts, Run Bundle.Step t₀.ch.bundle acts t.ch.bundle ∧
      acts.filterMap offered = cmds.filterMap (offeredBy t₀.ch.queue.bundledStreams)) ⟨hoff, [], .nil, rfl⟩ ?_).2
  rintro cmds t cmd t' - ⟨hoff, acts, hacts, heq⟩ ⟨fuel, hstep⟩
  obtain ⟨hoff', more, hmore, hcmd⟩ := processStreamBuf_offers hoff hstep
  have hstreams : t.ch.queue.bundledStreams = t₀.ch.queue.bundledStreams :=
    hacts.invariant (I := fun B => B.bundledStreams = t₀.ch.queue.bundledStreams)
      (fun _ _ _ hB hs => hs.fixed.1.trans hB) rfl
  refine ⟨hoff', acts ++ more, hacts.trans hmore, ?_⟩
  rw [filterMap_append, filterMap_append, heq, hcmd, hstreams]
  cases hoffer : offeredBy t₀.ch.queue.bundledStreams cmd <;> simp [hoffer]

theorem run_refines_sample : ∃ t acts, Run Step { ch := sampleChannel .low } [.dataCb (previewBuf 5), .stopZsl] t ∧
    Run Bundle.Step (sampleChannel .low).bundle acts t.ch.bundle ∧ acts.filterMap offered = [(0, previewBuf 5)] := by
  have hsome : (runCmds (fun _ _ => true) 5 { ch := sampleChannel .low }
      [.dataCb (previewBuf 5), .stopZsl]).isSome = true := by decide
  obtain ⟨t, ht⟩ := Option.isSome_iff_exists.mp hsome
  have hrun := (run_of_runCmds ht).of_guarded
  obtain ⟨acts, hacts, heq⟩ := run_refines (Initial.frameSyncOff ⟨⟨rfl, rfl, rfl⟩, rfl, rfl, by decide⟩) hrun
  exact ⟨t, acts, hrun, hacts, heq⟩

end ChannelThread

end Marlin
