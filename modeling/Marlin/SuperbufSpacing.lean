import Marlin.SuperbufAccount

/-!
# The Spacing of the Matched Super-Buffers

What is matched comes in the order of the frames. As long as nothing steers the queue (no
control tag in the metadata, no bracketing, no 1x zoom), `expected_frame_id` moves only
when a super-buffer is matched, to its frame plus `post_frame_skip`, and no older buffer is
let in. With streams that deliver each frame once and in order the matched frames are
therefore increasing, at least `max(1, post_frame_skip)` apart; and in a queue in order they
leave it in the order in which they were matched.

## Main results

* `Bundle.Step.ready`: an enqueue adds at most its own frame behind the matched ones.
* `superbufCompAndEnqueue_calm`: what an enqueue does to `expected_frame_id`.
* `matchedFrames_spaced`: the spacing of the matched frames and the order of the dequeues, in
  every run.
-/

namespace Marlin

open MmChannelQueueNode List Transition MmChannel

/-- The frame that is reported complete. -/
def Action.matched : Action → List ℕ
  | .superBufMatched frameIdx => [frameIdx]
  | _ => []

namespace Bundle

/-- The frames of the matched nodes, front first. -/
def ready (B : Bundle) : List ℕ := (B.que.filter (·.matched)).map MmChannelQueueNode.frameIdx

/-- The frames matched so far. -/
def matchedFrames (B : Bundle) : List ℕ := B.traffic.flatMap Action.matched

@[simp] theorem qbufs_matchedFrames (B : Bundle) (bs : List MmCameraBufDef) :
    (B.qbufs bs).matchedFrames = B.matchedFrames := by
  simp [qbufs, log, matchedFrames, flatMap_map, Action.matched]

@[simp] theorem pop_matchedFrames (B : Bundle) (n : MmChannelQueueNode)
    (rest : List MmChannelQueueNode) : (B.pop n rest).matchedFrames = B.matchedFrames := by
  simp only [pop, log, matchedFrames, flatMap_append]
  split <;> simp [Action.matched]

@[simp] theorem countMatch_matchedFrames (B : Bundle) (frameIdx : ℕ) :
    (B.countMatch frameIdx).matchedFrames = B.matchedFrames ++ [frameIdx] := by
  simp only [countMatch, log, matchedFrames, flatMap_append]
  split <;> simp [Action.matched]

variable {B : Bundle}

theorem Step.removes {B' : Bundle} {a : Act} (h : Step B a B') (ha : ∀ i b visits, a ≠ .enqueue i b visits) :
    B'.que.Sublist B.que ∧ B'.matchedFrames = B.matchedFrames := by
  cases h with
  | flush camType hq =>
    refine ⟨hq ▸ sublist_cons_self _ _, ?_⟩
    rw [qbufs_matchedFrames, pop_matchedFrames]
  | dequeue hq hm => exact ⟨hq ▸ sublist_cons_self _ _, pop_matchedFrames _ _ _⟩
  | dequeueFrame hq hm =>
    exact ⟨hq ▸ List.Sublist.append_left (sublist_cons_self _ _) _, rfl⟩
  | @send n rest delivery hq hm hd =>
    refine ⟨hq ▸ sublist_cons_self _ _, ?_⟩
    have hnone : delivery.flatMap Action.matched = [] := by
      rcases hd with ⟨ready, unlock, rfl⟩ | rfl <;> simp [flatMap_map, Action.matched]
    have hpop := pop_matchedFrames B n rest
    simp only [matchedFrames, log, flatMap_append, flatMap_cons, Action.matched, hnone, append_nil] at hpop ⊢
    exact hpop
  | _ => exact absurd rfl (ha _ _ _)

theorem ready_between {pre post : List MmChannelQueueNode} {n m : MmChannelQueueNode}
    (hn : n.matched = false) (hm : m.matched = false) :
    (pre ++ m :: post).filter (·.matched) = (pre ++ n :: post).filter (·.matched) := by
  simp [filter_append, hn, hm]

variable {i visits : ℕ} {b : MmCameraBufInfo}

theorem Room.filter_matched {evicted : Option MmChannelQueueNode}
    {fst snd : List MmChannelQueueNode} (hB : B.Ordered) (h : B.Room i b evicted visits fst snd) :
      (fst ++ snd).filter (·.matched) = B.que.filter (·.matched) := by
  refine (h.sublist.filter _).eq_of_length ?_
  rw [← countP_eq_length_filter, ← countP_eq_length_filter, (h.counts hB).1, hB.matchCnt]

theorem Room.snd_eq_nil {evicted : Option MmChannelQueueNode} {fst snd : List MmChannelQueueNode}
    (hB : B.Ordered) (hone : B.bundledStreams.length = 1)
    (h : B.Room i b evicted visits fst snd) : snd = [] := by
  obtain ⟨as, cs, hq, -, hsnd, -, hhead⟩ := h.split
  cases cs with
  | nil => exact sublist_nil.mp hsnd
  | cons c cs =>
    have hc := hhead c rfl
    have hm := hB.single hone c (by simp [hq])
    simp [isNewer, hm] at hc

/-- **What an enqueue adds behind the matched nodes**: nothing, or its own frame, which is
then reported complete. -/
theorem Step.ready {B' : Bundle} (h : Step B (.enqueue i b visits) B') (hB : B.Ordered) (hp : B.attr.priority ≠ .low) :
    ∃ new, (new = [] ∨ new = [b.frameIdx]) ∧ B'.ready = B.ready ++ new ∧ B'.matchedFrames = B.matchedFrames ++ new := by
  cases h with
  | discard => exact ⟨[], Or.inl rfl, (append_nil _).symm, by simp⟩
  | @taken _ _ pre post n h hs =>
    have hm : (MmChannel.resetMetaOnly n b.frameIdx).matched = false := by
      simp only [MmChannel.resetMetaOnly]
      split <;> exact h.unmatched
    refine ⟨[], Or.inl rfl, ?_, ?_⟩
    · rw [append_nil, Bundle.ready, Bundle.ready, h.que]
      exact congrArg (map _) (ready_between h.unmatched hm)
    · rw [qbufs_matchedFrames, append_nil]
      rfl
  | @keep _ _ pre post n h hs hopen expected =>
    refine ⟨[], Or.inl rfl, ?_, ?_⟩
    · rw [append_nil, Bundle.ready, Bundle.ready, h.que]
      exact congrArg (map _) (ready_between h.unmatched rfl)
    · rw [append_nil]
      rfl
  | @complete _ _ pre post n h hs hfull =>
    refine ⟨[b.frameIdx], Or.inr rfl, ?_, ?_⟩
    · obtain ⟨hle, hpre⟩ := fits_of_not_low hB hp (.enqueue i b 0) pre n post h
      obtain ⟨hpp, hnp, -⟩ := pairwise_append.mp (h.que ▸ hB.order)
      have hbound := put_frameIdx_le h.joins
      have hframe := (put_frameIdx_of_not_low h.joins hp).1
      obtain ⟨hstay, hrel⟩ := released_eq hpp fun m hm hmu => lt_of_lt_of_le (hpre m hm hmu) hbound
      have hpost : post.filter (·.matched) = [] :=
        filter_eq_nil_iff.mpr fun m hm => by
          simp [((pairwise_cons.mp hnp).1 m hm h.unmatched).1]
      have hrel' : (released b.frameIdx pre).filter (·.matched) = [] :=
        filter_eq_nil_iff.mpr fun m hm => by simp [hrel m hm]
      have hsplit : B.que = staying b.frameIdx pre ++ released b.frameIdx pre ++ n :: post := by
        rw [h.que, staying, released, takeWhile_append_dropWhile]
      have hready : B.ready = ((staying b.frameIdx pre).filter (·.matched)).map frameIdx := by
        rw [Bundle.ready, hsplit]
        simp [filter_append, h.unmatched, hpost, hrel']
      rw [hready]
      change ((staying b.frameIdx pre ++ { n.put i b with matched := true, expectedFrame := false } :: post).filter
          (·.matched)).map frameIdx = _
      simp [filter_append, hpost, hframe]
    · rw [qbufs_matchedFrames, countMatch_matchedFrames]
      rfl
  | @insert _ _ evicted _ fst snd h expected =>
    have hfilter := h.filter_matched hB
    simp only
    split
    · rename_i hone
      have hm : (B.newNode i b expected).matched = true := by simp [newNode, hone]
      have hframe : (B.newNode i b expected).frameIdx = b.frameIdx := rfl
      refine ⟨[b.frameIdx], Or.inr rfl, ?_, ?_⟩
      · rw [h.snd_eq_nil hB hone, append_nil] at hfilter
        have hready : B.ready = (fst.filter (·.matched)).map frameIdx := by
          rw [Bundle.ready, ← hfilter]
        rw [hready, h.snd_eq_nil hB hone]
        change ((fst ++ [B.newNode i b expected]).filter (·.matched)).map frameIdx = _
        simp [filter_append, hm, hframe]
      · rw [countMatch_matchedFrames]
        exact congrArg (· ++ [b.frameIdx]) (qbufs_matchedFrames _ _)
    · rename_i hone
      have hm : (B.newNode i b expected).matched = false := by simp [newNode, hone]
      refine ⟨[], Or.inl rfl, ?_, ?_⟩
      · have hready : B.ready = ((fst ++ snd).filter (·.matched)).map frameIdx := by
          rw [Bundle.ready, ← hfilter]
        rw [append_nil, hready]
        change ((fst ++ B.newNode i b expected :: snd).filter (·.matched)).map frameIdx = _
        simp [filter_append, hm]
      · rw [append_nil]
        exact qbufs_matchedFrames _ _
  | @noMemory _ _ evicted _ fst snd h =>
    refine ⟨[], Or.inl rfl, ?_, ?_⟩
    · rw [append_nil]
      exact congrArg (map _) (h.filter_matched hB)
    · rw [qbufs_matchedFrames, append_nil]
      exact qbufs_matchedFrames _ _

end Bundle

namespace MmChannel

/-! ### The controls of the queue -/

/-- The fields that decide which frame the queue expects. -/
structure Controls where
  expectedFrameId : ℕ
  goodFrameId : ℕ
  postFrameSkip : ℕ
  divertedFrameId : ℕ
  isFlashBracketingEnabled : Bool
  bracketingState : BracketingState
  isZoom1xFrameRequested : Bool
  needLEDFlash : Bool

/-- The frames matched so far. -/
def matchedFrames (ch : MmChannel) : List ℕ := ch.out.flatMap Action.matched

theorem bundle_matchedFrames (ch : MmChannel) : ch.bundle.matchedFrames = ch.matchedFrames :=
  Action.flatMap_traffic (by rintro ⟨⟩ h <;> first | rfl | cases h) ch.out

/-- The controls of a channel. -/
def controls (ch : MmChannel) : Controls where
  expectedFrameId := ch.queue.expectedFrameId
  goodFrameId := ch.queue.goodFrameId
  postFrameSkip := ch.queue.attr.postFrameSkip
  divertedFrameId := ch.divertedFrameId
  isFlashBracketingEnabled := ch.isFlashBracketingEnabled
  bracketingState := ch.bracketingState
  isZoom1xFrameRequested := ch.isZoom1xFrameRequested
  needLEDFlash := ch.needLEDFlash

/-- Nothing steers the queue. -/
structure Controls.Calm (c : Controls) : Prop where
  good : c.goodFrameId = 0
  diverted : c.divertedFrameId = 0
  flash : c.isFlashBracketingEnabled = false
  bracketing : c.bracketingState = .off
  zoom : c.isZoom1xFrameRequested = false
  led : c.needLEDFlash = false

/-- Another expected frame leaves the controls calm. -/
theorem Controls.Calm.expect {c : Controls} (h : c.Calm) (frameIdx : ℕ) : { c with expectedFrameId := frameIdx }.Calm :=
  ⟨h.good, h.diverted, h.flash, h.bracketing, h.zoom, h.led⟩

/-- No node is marked as the one of an expected frame. -/
def Unmarked (ch : MmChannel) : Prop := ∀ n ∈ ch.queue.que, n.expectedFrame = false

@[simp] theorem controls_afterDequeue (ch : MmChannel) (n : MmChannelQueueNode)
    (rest : List MmChannelQueueNode) : (ch.afterDequeue n rest).controls = ch.controls := by
  simp only [afterDequeue, call]
  split_ifs <;> rfl

@[simp] theorem controls_qbufs (ch : MmChannel) (bs : List MmCameraBufDef) : (ch.qbufs bs).controls = ch.controls := rfl

theorem respected_controls : Respected fun ch ch' => ch'.controls = ch.controls :=
  .of_view controls_qbufs controls_afterDequeue

variable {ch ch' : MmChannel} {op : SuperbufOp}

theorem superbufStep_controls (hop : ∀ b, op ≠ .compAndEnqueue b) (h : SuperbufStep ch op ch') :
    ch'.controls = ch.controls := by
  cases op with
  | compAndEnqueue b => exact absurd rfl (hop b)
  | dequeue => exact h ▸ respected_controls.dequeueInternal ch true
  | dequeueFrameInternal frameIdx =>
    subst h
    unfold superbufDequeueFrameInternal
    split <;> rfl
  | flush camType => exact h ▸ respected_controls.flush ch camType
  | flushMatched => exact h ▸ respected_controls.flushMatched ch
  | skip =>
    obtain ⟨fuel, h⟩ := h
    exact respected_controls.skip h
  | bufdoneOverflow =>
    obtain ⟨fuel, h⟩ := h
    exact respected_controls.bufdoneOverflow h

/-! ### An enqueue with calm controls -/

/-- The metadata carries none of the tags that steer the queue. -/
structure NoTags (m : MetadataBuffer) : Prop where
  good : m.goodFrameIdxRange = none
  prep : m.prepSnapshotDone = none
  divert : m.bufDivertInfo = none
  aec : m.aecSettled = none

theorem applyMetadata_calm (hc : ch.controls.Calm) {m : MetadataBuffer} (hm : NoTags m) (frameIdx : ℕ) :
    (ch.applyMetadata frameIdx m).controls = ch.controls ∧
    (ch.applyMetadata frameIdx m).bundle = ch.bundle := by
  have hzoom : ch.isZoom1xFrameRequested = false := hc.zoom
  have hbr : ch.bracketingState = .off := hc.bracketing
  have hled : ch.needLEDFlash = false := hc.led
  have hrange : ch.goodFrameRange none false = ch := by simp [goodFrameRange, hbr]
  have hoff : ch.ledOffFrame frameIdx = ch := by simp [ledOffFrame, hled]
  have happly : ch.applyMetadata frameIdx m = (ch.lowLightLevel m.lowLight).userExpectedFrame frameIdx none := by
    simp [applyMetadata, hm.good, hm.prep, hm.divert, hm.aec, noteDivertInfo, hzoom,
      prepSnapshotDone, hrange, goodFrameBracketing, frameConfigId, hoff]
  rw [happly, bundle_userExpectedFrame, bundle_lowLightLevel]
  refine ⟨?_, rfl⟩
  have hlow : (ch.lowLightLevel m.lowLight).controls = ch.controls := by
    cases m.lowLight <;> rfl
  rw [← hlow]
  unfold userExpectedFrame
  split_ifs with h₁ h₂ h₃
  · cases h₃
  · rfl
  · rfl
  · rfl

variable {b : MmCameraBufInfo}

theorem handleMetadata_calm (hc : ch.controls.Calm) (hb : ∀ m, b.buf.buffer = some m → NoTags m) :
    (ch.handleMetadata b).2.controls = ch.controls ∧
    (ch.handleMetadata b).2.bundle = ch.bundle := by
  unfold handleMetadata
  split
  · exact ⟨rfl, rfl⟩
  · split
    · exact ⟨rfl, rfl⟩
    · split
      · cases hm : b.buf.buffer with
        | none => exact ⟨rfl, rfl⟩
        | some m => exact applyMetadata_calm hc (hb m hm) b.frameIdx
      · exact ⟨rfl, rfl⟩

@[simp] theorem matchedFrames_qbufs (ch : MmChannel) (bs : List MmCameraBufDef) :
    (ch.qbufs bs).matchedFrames = ch.matchedFrames := by
  simp [matchedFrames, qbufs, flatMap_map, Action.matched]

theorem countMatch_settles (ch : MmChannel) (frameIdx : ℕ) : (ch.countMatch frameIdx).queue.que = ch.queue.que ∧
    (ch.countMatch frameIdx).controls = ch.controls ∧
    (ch.countMatch frameIdx).matchedFrames = ch.matchedFrames ++ [frameIdx] := by
  simp only [countMatch]
  split
  · exact ⟨rfl, rfl, by simp [matchedFrames, call, Action.matched]⟩
  · exact ⟨rfl, rfl, by simp [matchedFrames, call, Action.matched]⟩

theorem releaseOlder_settles (ch : MmChannel) (lastBuf : Option ℕ) (pos : ℕ) :
    (ch.releaseOlder lastBuf pos).queue.que ⊆ ch.queue.que ∧
    (ch.releaseOlder lastBuf pos).controls = ch.controls ∧
    (ch.releaseOlder lastBuf pos).matchedFrames = ch.matchedFrames := by
  unfold releaseOlder
  split
  · exact ⟨List.Subset.refl _, rfl, rfl⟩
  · refine ⟨fun n hn => ?_, rfl, matchedFrames_qbufs _ _⟩
    rcases mem_append.mp hn with hn | hn
    · exact mem_of_mem_take hn
    · exact mem_of_mem_drop hn

theorem makeRoom_settles (ch : MmChannel) (s : SuperbufScan) :
    (ch.makeRoom s).queue.que ⊆ ch.queue.que ∧ (ch.makeRoom s).controls = ch.controls ∧
    (ch.makeRoom s).matchedFrames = ch.matchedFrames := by
  unfold makeRoom
  split
  · exact ⟨List.Subset.refl _, rfl, rfl⟩
  · exact ⟨fun n hn => mem_of_mem_eraseIdx hn, rfl, matchedFrames_qbufs _ _⟩

/-- What an enqueue of a buffer does to the controls: nothing, or its frame is matched and
the next one is expected `post_frame_skip` later. -/
structure Settles (ch : MmChannel) (frameIdx : ℕ) (ch' : MmChannel) : Prop where
  unmarked : ch'.Unmarked
  controls : (ch'.matchedFrames = ch.matchedFrames ∧ ch'.controls = ch.controls) ∨
    (ch'.matchedFrames = ch.matchedFrames ++ [frameIdx] ∧ ch'.controls = { ch.controls with
        expectedFrameId := addU32 frameIdx ch.queue.attr.postFrameSkip })

theorem unmarked_set {que : List MmChannelQueueNode} {pos : ℕ} {m : MmChannelQueueNode}
    (hque : ∀ n ∈ que, n.expectedFrame = false) (hm : m.expectedFrame = false) :
    ∀ n ∈ que.set pos m, n.expectedFrame = false := by
  intro n hn
  rcases mem_or_eq_of_mem_set hn with hn | rfl
  · exact hque n hn
  · exact hm

theorem completeNode_settles (hc : ch.controls.Calm) (hu : ch.Unmarked)
    (s : SuperbufScan) (frameIdx : ℕ) (n : MmChannelQueueNode) :
    ch.Settles frameIdx (ch.completeNode s frameIdx n) := by
  have hflash : ch.isFlashBracketingEnabled = false := hc.flash
  set ch₁ := { ch with
    queue.expectedFrameId := addU32 frameIdx ch.queue.attr.postFrameSkip
    queue.que := ch.queue.que.set s.pos { n with matched := true, expectedFrame := false } }
    with h₁
  have hcomplete : ch.completeNode s frameIdx n = (ch₁.countMatch frameIdx).releaseOlder s.lastBuf s.pos := by
    simp [completeNode, expectNext, hflash, h₁]
  obtain ⟨hque, hctrl, hmatched⟩ := countMatch_settles ch₁ frameIdx
  obtain ⟨hsub, hctrl', hmatched'⟩ :=
    releaseOlder_settles (ch₁.countMatch frameIdx) s.lastBuf s.pos
  rw [hcomplete]
  refine ⟨fun m hm => ?_, Or.inr ⟨?_, ?_⟩⟩
  · exact unmarked_set hu rfl m (hque ▸ hsub hm)
  · rw [hmatched', hmatched]
    rfl
  · rw [hctrl', hctrl]
    rfl

variable {n : MmChannelQueueNode}

theorem joinNode_settles (hc : ch.controls.Calm) (hu : ch.Unmarked) (hb : b.frameIdx ≠ 0) (i : ℕ)
    (s : SuperbufScan) (hn : n.expectedFrame = false) :
    ch.Settles b.frameIdx (ch.joinNode i b s n) := by
  have hdiv : ch.divertedFrameId = 0 := hc.diverted
  have hreset : (resetMetaOnly n b.frameIdx).expectedFrame = false := by
    simp only [resetMetaOnly]
    split <;> exact hn
  simp only [joinNode]
  split
  · exact ⟨unmarked_set hu hreset, Or.inl ⟨matchedFrames_qbufs _ _, rfl⟩⟩
  · split
    · exact completeNode_settles hc hu s b.frameIdx _
    · rw [keepNode, if_neg (by omega)]
      exact ⟨unmarked_set hu hreset, Or.inl ⟨rfl, rfl⟩⟩

theorem linkNode_settles (hc : ch.controls.Calm) (hu : ch.Unmarked) (hb : b.frameIdx ≠ 0) (bufSIdx i : ℕ) :
    ch.Settles b.frameIdx (ch.linkNode bufSIdx b i) := by
  have hdiv : ch.divertedFrameId = 0 := hc.diverted
  have hgood : ch.queue.goodFrameId = 0 := hc.good
  have hnode : (ch.newNode bufSIdx b).expectedFrame = false := by
    simp [newNode, hdiv, hgood, hb, Ne.symm hb]
  have hunmarked : ∀ n ∈ ch.queue.que.insertIdx i (ch.newNode bufSIdx b), n.expectedFrame = false := by
    intro n hn
    rcases eq_or_mem_of_mem_insertIdx hn with rfl | hn
    · exact hnode
    · exact hu n hn
  simp only [linkNode]
  split
  · obtain ⟨hque, hctrl, hmatched⟩ := countMatch_settles { ch with
      divertedFrameId :=
        if ch.divertedFrameId = b.frameIdx ∨ b.frameIdx = ch.queue.goodFrameId then 0
        else ch.divertedFrameId
      queue.que := ch.queue.que.insertIdx i (ch.newNode bufSIdx b)
      queue.size := ch.queue.size + 1
      queue.expectedFrameId := addU32 b.frameIdx ch.queue.attr.postFrameSkip } b.frameIdx
    refine ⟨fun n hn => hunmarked n ((congrArg (n ∈ ·) hque).mp hn), Or.inr ⟨hmatched, hctrl.trans ?_⟩⟩
    simp [controls, hdiv]
  · refine ⟨hunmarked, Or.inl ⟨rfl, ?_⟩⟩
    simp [controls, hdiv]

theorem insertNew_settles (hc : ch.controls.Calm) (hu : ch.Unmarked) (hb : b.frameIdx ≠ 0) (i : ℕ) (s : SuperbufScan) :
    ch.Settles b.frameIdx (ch.insertNew i b s) := by
  obtain ⟨hque, hctrl, hmatched⟩ := makeRoom_settles ch s
  set ch₁ := { ch.makeRoom s with mallocs := (ch.makeRoom s).mallocs + 2 } with h₁
  have hc₁ : ch₁.controls = ch.controls := hctrl
  have hm₁ : ch₁.matchedFrames = ch.matchedFrames := hmatched
  have hu₁ : ch₁.Unmarked := fun n hn => hu n (hque hn)
  have hskip : ch₁.queue.attr.postFrameSkip = ch.queue.attr.postFrameSkip :=
    congrArg Controls.postFrameSkip hctrl
  unfold insertNew
  split
  · exact ⟨hu, Or.inl ⟨matchedFrames_qbufs _ _, rfl⟩⟩
  · simp only [← h₁]
    split
    · obtain ⟨hun, hlink⟩ := linkNode_settles (hc₁ ▸ hc) hu₁ hb i (ch.insertPos s)
      rw [hm₁, hc₁, hskip] at hlink
      exact ⟨hun, hlink⟩
    · exact ⟨hu₁, Or.inl ⟨(matchedFrames_qbufs _ _).trans hm₁, hc₁⟩⟩

theorem superbufComp_settles (hc : ch.controls.Calm) (hu : ch.Unmarked) (hb : b.frameIdx ≠ 0) (i : ℕ) :
    ch.Settles b.frameIdx (ch.superbufComp i b) := by
  cases h : (ch.scan i b).superBuf with
  | none =>
    rw [superbufComp_of_none h]
    exact insertNew_settles hc hu hb i _
  | some n =>
    rw [superbufComp_of_some h]
    obtain ⟨pre, post, hfound, -, -⟩ := scan_found hb h
    exact joinNode_settles hc hu hb i _ (hu n hfound.mem)

/-- **What an enqueue does**, with calm controls: it returns the buffer, or it is a step of
the bundle that moves the expected frame on exactly if it matches the frame of the buffer,
and then the buffer is not of an older frame than the expected one. -/
theorem superbufCompAndEnqueue_calm (hc : ch.controls.Calm)
    (hu : ch.Unmarked) (hb : ∀ m, b.buf.buffer = some m → NoTags m)
    {i : ℕ} (hi : ch.queue.bundledStreams.findIdx? (b.streamId == ·) = some i) :
    ∃ visits, Bundle.Step ch.bundle (.enqueue i b visits) (ch.superbufCompAndEnqueue b).2.bundle ∧
      (ch.superbufCompAndEnqueue b).2.Unmarked ∧
      (((ch.superbufCompAndEnqueue b).2.matchedFrames = ch.matchedFrames ∧
          (ch.superbufCompAndEnqueue b).2.controls = ch.controls) ∨
        ((ch.superbufCompAndEnqueue b).2.matchedFrames = ch.matchedFrames ++ [b.frameIdx] ∧
          (ch.superbufCompAndEnqueue b).2.controls = { ch.controls with
            expectedFrameId := addU32 b.frameIdx ch.queue.attr.postFrameSkip } ∧
          ch.queue.expectedFrameId ≤ b.frameIdx)) := by
  obtain ⟨hctrl, hbundle⟩ := handleMetadata_calm hc hb
  set ch₁ := (ch.handleMetadata b).2 with h₁
  have hm₁ : ch₁.matchedFrames = ch.matchedFrames := by
    rw [← bundle_matchedFrames, hbundle, bundle_matchedFrames]
  have hu₁ : ch₁.Unmarked := fun n hn => hu n ((congrArg (n ∈ ·.que) hbundle).mp hn)
  have hexp : ch₁.queue.expectedFrameId = ch.queue.expectedFrameId :=
    congrArg Controls.expectedFrameId hctrl
  have hskip : ch₁.queue.attr.postFrameSkip = ch.queue.attr.postFrameSkip :=
    congrArg Controls.postFrameSkip hctrl
  -- a buffer that is returned is a step of its own, which matches nothing
  have hreturn : ∀ ch' : MmChannel, ch'.bundle = ch.bundle → ch'.controls = ch.controls →
      (ch'.qbufs [b.buf]).Unmarked ∧ Bundle.Step ch.bundle (.enqueue i b 0)
        (ch'.qbufs [b.buf]).bundle ∧ (ch'.qbufs [b.buf]).matchedFrames = ch.matchedFrames ∧
        (ch'.qbufs [b.buf]).controls = ch.controls := by
    intro ch' hbun hct
    refine ⟨fun n hn => hu n ((congrArg (n ∈ ·.que) hbun).mp hn), ?_, ?_, hct⟩
    · rw [bundle_qbufs, hbun]
      exact Bundle.Step.discard
    · rw [matchedFrames_qbufs, ← bundle_matchedFrames, hbun, bundle_matchedFrames]
  simp only [superbufCompAndEnqueue, hi]
  split
  · obtain ⟨hun, hstep, hm, hct⟩ := hreturn ch rfl rfl
    exact ⟨0, hstep, hun, Or.inl ⟨hm, hct⟩⟩
  · rename_i hb0
    simp only [← h₁]
    split
    · obtain ⟨hun, hstep, hm, hct⟩ := hreturn ch₁ hbundle hctrl
      exact ⟨0, hstep, hun, Or.inl ⟨hm, hct⟩⟩
    · split
      · obtain ⟨hun, hstep, hm, hct⟩ := hreturn ch₁ hbundle hctrl
        exact ⟨0, hstep, hun, Or.inl ⟨hm, hct⟩⟩
      · rename_i hold
        have hstep := @superbufComp_step ch₁ i b hb0
        rw [hbundle] at hstep
        obtain ⟨hun, hset⟩ := superbufComp_settles (hctrl ▸ hc) hu₁ hb0 i
        rw [hm₁, hctrl, hskip] at hset
        refine ⟨_, hstep, hun, hset.imp id fun h => ⟨h.1, h.2, ?_⟩⟩
        have hval : ch₁.validateSuperBuf b = 0 := by
          have hnone : ¬ (ch₁.queue.que.any fun n =>
              n.expectedFrame && b.frameIdx == n.frameIdx) = true := by
            rw [any_eq_true]
            rintro ⟨n, hn, hmark⟩
            simp [hu₁ n hn] at hmark
          exact if_neg hnone
        rw [← hexp]
        simp only [hval, utilSeqCompWRollover] at hold
        split at hold
        · omega
        · split at hold <;> omega


/-! ### Runs with a consumer -/

/-- The frame that a stream delivers with a call. -/
def SuperbufOp.frame (hdl : ℕ) : SuperbufOp → Option ℕ
  | .compAndEnqueue b => if b.streamId = hdl then some b.frameIdx else none
  | _ => none

/-- The frames that a stream delivers, in order. -/
def framesOf (hdl : ℕ) (ops : List SuperbufOp) : List ℕ := ops.filterMap (SuperbufOp.frame hdl)

variable {ops : List SuperbufOp}

theorem mem_framesOf (h : .compAndEnqueue b ∈ ops) : b.frameIdx ∈ framesOf b.streamId ops :=
  mem_filterMap.mpr ⟨_, h, if_pos rfl⟩

/-- The call enqueues a buffer or dequeues a super-buffer for the consumer. -/
def SuperbufOp.isPlain : SuperbufOp → Bool
  | .compAndEnqueue _ | .dequeue => true
  | _ => false

/-- A channel and the nodes that `mm_channel_superbuf_dequeue` handed out so far. -/
structure Consumer where
  ch : MmChannel
  taken : List MmChannelQueueNode := []

/-- The nodes that a call hands out. -/
def SuperbufOp.taken (ch : MmChannel) : SuperbufOp → List MmChannelQueueNode
  | .dequeue => ch.superbufDequeue.1.toList
  | _ => []

/-- A call of a function of the queue, whose dequeued nodes are collected. -/
def Consumer.Step (s : Consumer) (op : SuperbufOp) (s' : Consumer) : Prop :=
  SuperbufStep s.ch op s'.ch ∧ s'.taken = s.taken ++ op.taken s.ch

/-- The invariant of a run: `ops` are the calls so far, and `skip` is `post_frame_skip`. -/
structure Spaced (ch₀ : MmChannel) (ops : List SuperbufOp) (s : Consumer) : Prop where
  inOrder : InOrder ch₀ 0 s.ch.bundle
  calm : s.ch.controls.Calm
  unmarked : s.ch.Unmarked
  passed : ∀ n ∈ s.ch.queue.que, ∀ i c, n.Holds i c → .compAndEnqueue c ∈ ops
  seen : ∀ f ∈ s.ch.matchedFrames, ∀ hdl ∈ ch₀.queue.bundledStreams, f ∈ framesOf hdl ops
  bound : ∀ f ∈ s.ch.matchedFrames, f + ch₀.queue.attr.postFrameSkip ≤ s.ch.queue.expectedFrameId
  spaced : s.ch.matchedFrames.Pairwise fun m f =>
    m + max 1 ch₀.queue.attr.postFrameSkip ≤ f
  taken : (s.taken.map MmChannelQueueNode.frameIdx ++ s.ch.bundle.ready).Sublist s.ch.matchedFrames
  whole : (∀ op ∈ ops, op.isPlain = true) →
    s.taken.map MmChannelQueueNode.frameIdx ++ s.ch.bundle.ready = s.ch.matchedFrames

variable {ch₀ : MmChannel}

theorem superbufStep_removes (hop : ∀ b, op ≠ .compAndEnqueue b) (hin : InOrder ch₀ 0 ch.bundle)
    (h : SuperbufStep ch op ch') :
    InOrder ch₀ 0 ch'.bundle ∧ ch'.queue.que.Sublist ch.queue.que ∧ ch'.matchedFrames = ch.matchedFrames := by
  rw [← bundle_matchedFrames, ← bundle_matchedFrames]
  refine (superbufStep_reaches h).invariant (I := fun B => InOrder ch₀ 0 B ∧
    B.que.Sublist ch.queue.que ∧ B.matchedFrames = ch.bundle.matchedFrames) ?_
    ⟨hin, List.Sublist.refl _, rfl⟩
  rintro B a B' ha ⟨hB, hsub, hm⟩ hs
  have hne : ∀ i b visits, a ≠ .enqueue i b visits := by
    rintro i b visits rfl
    exact hop b ha.1
  obtain ⟨hsub', hm'⟩ := hs.removes hne
  refine ⟨hB.step hs ?_ (Bundle.Act.proper_of_ne hne), hsub'.trans hsub, hm'.trans hm⟩
  cases a with
  | enqueue i b visits => exact absurd rfl (hne i b visits)
  | _ => trivial

theorem superbufStep_taken (hop : ∀ b, op ≠ .compAndEnqueue b)
    (hsub : ch'.queue.que.Sublist ch.queue.que) (h : SuperbufStep ch op ch') :
      ((op.taken ch).map MmChannelQueueNode.frameIdx ++ ch'.bundle.ready).Sublist ch.bundle.ready ∧
      (op = .dequeue → (op.taken ch).map MmChannelQueueNode.frameIdx ++ ch'.bundle.ready = ch.bundle.ready)
      := by
  cases op with
  | dequeue =>
    subst h
    have heq : (ch.superbufDequeue.1.toList).map frameIdx ++ ch.superbufDequeue.2.bundle.ready = ch.bundle.ready := by
      unfold superbufDequeue
      rcases superbufDequeueInternal_cases ch true with ⟨hd, -⟩ | ⟨n, rest, hq, hm, hd⟩
      · rw [hd]
        rfl
      · have hq' : ch.bundle.que = n :: rest := hq
        rw [hd, bundle_afterDequeue, Bundle.ready, Bundle.ready, hq', filter_cons_of_pos (hm rfl)]
        rfl
    exact ⟨heq ▸ List.Sublist.refl _, fun _ => heq⟩
  | compAndEnqueue b => exact absurd rfl (hop b)
  | _ => exact ⟨(hsub.filter _).map _, by simp⟩

theorem framesOf_append {hdl f : ℕ} (op : SuperbufOp) (h : f ∈ framesOf hdl ops) : f ∈ framesOf hdl (ops ++ [op]) := by
  rw [framesOf, filterMap_append]
  exact mem_append_left _ h

variable {s s' : Consumer}

theorem Spaced.remove (hs : Spaced ch₀ ops s) (hop : ∀ b, op ≠ .compAndEnqueue b)
    (h : s.Step op s') : Spaced ch₀ (ops ++ [op]) s' := by
  obtain ⟨hstep, htaken⟩ := h
  have hctrl := superbufStep_controls hop hstep
  obtain ⟨hin, hsub, hm⟩ := superbufStep_removes hop hs.inOrder hstep
  obtain ⟨hready, hwhole⟩ := superbufStep_taken hop hsub hstep
  have hexp : s'.ch.queue.expectedFrameId = s.ch.queue.expectedFrameId :=
    congrArg Controls.expectedFrameId hctrl
  refine ⟨hin, hctrl ▸ hs.calm, fun n hn => hs.unmarked n (hsub.mem hn),
    fun n hn i c hc => mem_append_left _ (hs.passed n (hsub.mem hn) i c hc),
    fun f hf hdl hhdl => framesOf_append op (hs.seen f (hm ▸ hf) hdl hhdl),
    fun f hf => hexp ▸ hs.bound f (hm ▸ hf), hm ▸ hs.spaced, ?_, fun hplain => ?_⟩
  · rw [hm, htaken, map_append, append_assoc]
    exact (List.Sublist.append_left hready _).trans hs.taken
  · have hdeq : op = .dequeue := by
      have hp := hplain op (by simp)
      cases op with
      | dequeue => rfl
      | compAndEnqueue b => exact absurd rfl (hop b)
      | _ => cases hp
    rw [hm, htaken, map_append, append_assoc, hwhole hdeq]
    exact hs.whole fun op' h' => hplain op' (mem_append_left _ h')

theorem holds_of_enqueue {B B' : Bundle} {i : ℕ} {visits : ℕ}
    (h : Bundle.Step B (.enqueue i b visits) B') (hn : n ∈ B'.que)
    {j : ℕ} {c : MmCameraBufInfo} (hc : n.Holds j c) :
    c = b ∨ ∃ m ∈ B.que, m.Holds j c := by
  rcases h.mem hn with hn | ⟨i', b', visits', ha, hfresh⟩
  · exact Or.inr ⟨n, hn, hc⟩
  · obtain ⟨rfl, rfl, rfl⟩ := Bundle.Act.enqueue.inj ha
    cases hfresh with
    | @reset m hm hj hs =>
      refine Or.inr ⟨m, hm, ?_⟩
      have hslots : (MmChannel.resetMetaOnly m b.frameIdx).superBuf = m.superBuf := by
        simp only [MmChannel.resetMetaOnly]
        split <;> rfl
      exact (congrArg (·[j]? = some (some c)) hslots).mp hc
    | @put m hm hj hs hb matched expected hfull =>
      rcases put_holds hc with ⟨-, hcb⟩ | ⟨-, hc⟩
      · exact Or.inl hcb
      · exact Or.inr ⟨m, hm, hc⟩
    | new hb expected => exact Or.inl (Bundle.newNode_holds hc).2

theorem seen_of_matched {B : Bundle} (hprio : ch₀.queue.attr.priority ≠ .low) (hin : InOrder ch₀ 0 B)
    (hpassed : ∀ n ∈ B.que, ∀ i c, n.Holds i c → .compAndEnqueue c ∈ ops) (hn : n ∈ B.que)
    (hm : n.matched = true) {hdl : ℕ}
    (hhdl : hdl ∈ ch₀.queue.bundledStreams) : n.frameIdx ∈ framesOf hdl ops := by
  have hw := hin.wellFormed n hn
  obtain ⟨j, hj⟩ := mem_iff_getElem?.mp hhdl
  rw [hin.streams] at hw
  obtain ⟨hlt, -⟩ := List.getElem?_eq_some_iff.mp hj
  obtain ⟨c, hc⟩ := holds_of_allFilled (hw.full hm) (hw.length ▸ hlt)
  have hstream : some c.streamId = some hdl := (hw.slot j c hc).2.symm.trans hj
  have hlow : B.attr.priority ≠ .low := by
    rw [hin.attr]
    exact hprio
  have hframe := (hin.aligned n hn).same j c hc fun h => absurd h hlow
  rw [← hframe, ← Option.some.inj hstream]
  exact mem_framesOf (hpassed n hn j c hc)

theorem Spaced.keep (hs : Spaced ch₀ ops s) (hin : InOrder ch₀ 0 s'.ch.bundle)
    (hctrl : s'.ch.controls = s.ch.controls) (hun : s'.ch.Unmarked)
    (hpassed : ∀ n ∈ s'.ch.queue.que, ∀ i c, n.Holds i c → .compAndEnqueue c ∈ ops ++ [op])
    (hm : s'.ch.matchedFrames = s.ch.matchedFrames)
    (hready : s'.ch.bundle.ready = s.ch.bundle.ready) (htaken : s'.taken = s.taken) :
    Spaced ch₀ (ops ++ [op]) s' := by
  have hexp : s'.ch.queue.expectedFrameId = s.ch.queue.expectedFrameId :=
    congrArg Controls.expectedFrameId hctrl
  refine ⟨hin, hctrl ▸ hs.calm, hun, hpassed, ?_, ?_, hm ▸ hs.spaced, ?_, fun hplain => ?_⟩
  · intro f hf hdl hhdl
    exact framesOf_append _ (hs.seen f (hm ▸ hf) hdl hhdl)
  · rw [hm, hexp]
    exact hs.bound
  · rw [htaken, hready, hm]
    exact hs.taken
  · rw [htaken, hready, hm]
    exact hs.whole fun op hop => hplain op (mem_append_left _ hop)

/-- A call that matches a frame which all streams have delivered: the frame is the expected one or
later, and after all that were matched. -/
theorem Spaced.add {f : ℕ} (hs : Spaced ch₀ ops s) (hin : InOrder ch₀ 0 s'.ch.bundle)
    (hcalm : s'.ch.controls.Calm) (hun : s'.ch.Unmarked)
      (hpassed : ∀ n ∈ s'.ch.queue.que, ∀ i c, n.Holds i c → .compAndEnqueue c ∈ ops ++ [op])
      (hm : s'.ch.matchedFrames = s.ch.matchedFrames ++ [f])
      (hready : s'.ch.bundle.ready = s.ch.bundle.ready ++ [f]) (htaken : s'.taken = s.taken)
      (hexp : s'.ch.queue.expectedFrameId = f + ch₀.queue.attr.postFrameSkip)
      (hle : s.ch.queue.expectedFrameId ≤ f) (hafter : ∀ g ∈ s.ch.matchedFrames, g < f)
      (hseen : ∀ hdl ∈ ch₀.queue.bundledStreams, f ∈ framesOf hdl (ops ++ [op])) : Spaced ch₀
      (ops ++ [op]) s' := by
  have hgap : ∀ g ∈ s.ch.matchedFrames, g + max 1 ch₀.queue.attr.postFrameSkip ≤ f := by
    intro g hg
    have h₁ := hafter g hg
    have h₂ := hs.bound g hg
    omega
  refine ⟨hin, hcalm, hun, hpassed, ?_, ?_, ?_, ?_, fun hplain => ?_⟩
  · intro g hg hdl hhdl
    rw [hm] at hg
    rcases mem_append.mp hg with hg | hg
    · exact framesOf_append _ (hs.seen g hg hdl hhdl)
    · exact (mem_singleton.mp hg) ▸ hseen hdl hhdl
  · intro g hg
    rw [hm] at hg
    rw [hexp]
    rcases mem_append.mp hg with hg | hg
    · have h := hafter g hg
      omega
    · exact (mem_singleton.mp hg) ▸ le_refl _
  · rw [hm]
    refine pairwise_append.mpr ⟨hs.spaced, pairwise_singleton _ _, ?_⟩
    intro g hg g' hg'
    exact (mem_singleton.mp hg') ▸ hgap g hg
  · rw [htaken, hready, hm, ← append_assoc]
    exact hs.taken.append_right _
  · have hwhole := hs.whole fun op hop => hplain op (mem_append_left _ hop)
    rw [htaken, hready, hm, ← append_assoc, hwhole]

/-- An enqueue keeps the invariant, if the stream delivers increasing frames. -/
theorem Spaced.enqueue (hprio : ch₀.queue.attr.priority ≠ .low) (hs : Spaced ch₀ ops s)
    (htags : ∀ m, b.buf.buffer = some m → NoTags m)
    (hwrap : b.frameIdx + ch₀.queue.attr.postFrameSkip < 2 ^ 32)
    (hinc : ∀ hdl ∈ ch₀.queue.bundledStreams, (framesOf hdl (ops ++ [.compAndEnqueue b])).Pairwise (· < ·))
    (h : s.Step (.compAndEnqueue b) s') : Spaced ch₀ (ops ++ [.compAndEnqueue b]) s' := by
  obtain ⟨hstep, htaken⟩ := h
  have htaken' : s'.taken = s.taken := htaken.trans (append_nil _)
  have hch : (s.ch.superbufCompAndEnqueue b).2 = s'.ch := hstep
  cases hi : s.ch.queue.bundledStreams.findIdx? (b.streamId == ·) with
  | none =>
    rw [superbufCompAndEnqueue_unbundled hi] at hch
    exact hs.keep (hch ▸ hs.inOrder) (hch ▸ rfl) (hch ▸ hs.unmarked)
      (fun n hn j c hc => mem_append_left _ (hs.passed n (hch ▸ hn) j c hc)) (hch ▸ rfl)
      (hch ▸ rfl) htaken'
  | some i =>
    obtain ⟨visits, hbstep, hun, hcases⟩ :=
      superbufCompAndEnqueue_calm hs.calm hs.unmarked htags hi
    rw [hch] at hbstep hun hcases
    have hlow : s.ch.bundle.attr.priority ≠ .low := by
      rw [hs.inOrder.attr]
      exact hprio
    have hslot : s.ch.bundle.bundledStreams[i]? = some b.streamId :=
      ChannelThread.stream_of_slot hi
    have hin : InOrder ch₀ 0 s'.ch.bundle :=
      hs.inOrder.step hbstep (Bundle.fits_of_not_low hs.inOrder.ordered hlow _)
        ⟨hslot, fun _ _ _ _ hl => absurd hl hlow⟩
    have hpassed : ∀ n ∈ s'.ch.queue.que, ∀ j c, n.Holds j c → .compAndEnqueue c ∈ ops ++ [.compAndEnqueue b] := by
      intro n hn j c hc
      rcases holds_of_enqueue hbstep hn hc with rfl | ⟨m, hm, hc⟩
      · simp
      · exact mem_append_left _ (hs.passed m hm j c hc)
    obtain ⟨new, -, hready, hnew⟩ := hbstep.ready hs.inOrder.ordered hlow
    rw [bundle_matchedFrames, bundle_matchedFrames] at hnew
    have hattr : s.ch.bundle.attr.postFrameSkip = ch₀.bundle.attr.postFrameSkip :=
      congrArg MmCameraChannelAttr.postFrameSkip hs.inOrder.attr
    have hskip : s.ch.queue.attr.postFrameSkip = ch₀.queue.attr.postFrameSkip := hattr
    rcases hcases with ⟨hm, hctrl⟩ | ⟨hm, hctrl, hle⟩
    · -- nothing is matched
      obtain rfl : new = [] := append_right_eq_self.mp (hnew.symm.trans hm)
      rw [append_nil] at hready
      exact hs.keep hin hctrl hun hpassed hm hready htaken'
    · -- the frame of the buffer is matched
      obtain rfl : new = [b.frameIdx] := append_cancel_left (hnew.symm.trans hm)
      have hexp : s'.ch.queue.expectedFrameId = b.frameIdx + ch₀.queue.attr.postFrameSkip := by
        have h := congrArg Controls.expectedFrameId hctrl
        rw [hskip] at h
        exact h.trans (Nat.mod_eq_of_lt hwrap)
      have hmem : b.streamId ∈ ch₀.queue.bundledStreams := by
        have hstreams : s.ch.queue.bundledStreams = ch₀.queue.bundledStreams := hs.inOrder.streams
        exact hstreams ▸ mem_of_getElem? hslot
      have hafter : ∀ f ∈ s.ch.matchedFrames, f < b.frameIdx := by
        intro f hf
        have hpair := hinc b.streamId hmem
        rw [framesOf, filterMap_append, pairwise_append] at hpair
        exact hpair.2.2 f (hs.seen f hf b.streamId hmem) b.frameIdx (mem_framesOf (mem_singleton.mpr rfl))
      have hseen : ∀ hdl ∈ ch₀.queue.bundledStreams, b.frameIdx ∈ framesOf hdl (ops ++ [.compAndEnqueue b]) := by
        intro hdl hhdl
        have hrdy : b.frameIdx ∈ s'.ch.bundle.ready := by
          rw [hready]
          simp
        obtain ⟨n, hn, hnf⟩ := mem_map.mp hrdy
        obtain ⟨hnq, hnm⟩ := mem_filter.mp hn
        exact hnf ▸ seen_of_matched hprio hin hpassed hnq hnm hhdl
      exact hs.add hin (hctrl ▸ hs.calm.expect _) hun hpassed hm hready htaken' hexp hle hafter hseen

/-- **Matched super-buffers are spaced and handed out in order.** On a channel without low
priority, with no control tag in the metadata and each stream delivering increasing frames,
the matched frames are increasing and at least `max(1, post_frame_skip)` apart. The consumer
is handed them in this order; if nothing else takes nodes out, it has been handed all but
those that are still queued. -/
theorem matchedFrames_spaced {ch₀ : MmChannel} {s : Consumer} {ops : List SuperbufOp}
    (h₀ : ch₀.EmptyQueue) (hout : ch₀.out = []) (hprio : ch₀.queue.attr.priority ≠ .low)
    (hcalm : ch₀.controls.Calm)
    (htags : ∀ b, .compAndEnqueue b ∈ ops → ∀ m, b.buf.buffer = some m → NoTags m)
    (hwrap : ∀ b, .compAndEnqueue b ∈ ops → b.frameIdx + ch₀.queue.attr.postFrameSkip < 2 ^ 32)
    (hinc : ∀ hdl ∈ ch₀.queue.bundledStreams, (framesOf hdl ops).Pairwise (· < ·))
    (hrun : Run Consumer.Step { ch := ch₀ } ops s) :
    s.ch.matchedFrames.Pairwise (fun m f => m + max 1 ch₀.queue.attr.postFrameSkip ≤ f) ∧
    (s.taken.map frameIdx).Sublist s.ch.matchedFrames ∧
    ((∀ op ∈ ops, op.isPlain = true) → s.taken.map frameIdx ++ (s.ch.queue.que.filter (·.matched)).map frameIdx =
      s.ch.matchedFrames) := by
  have hinv : Spaced ch₀ ops s := by
    refine hrun.history (P := fun ops s =>
      (∀ b, .compAndEnqueue b ∈ ops → ∀ m, b.buf.buffer = some m → NoTags m) →
      (∀ b, .compAndEnqueue b ∈ ops → b.frameIdx + ch₀.queue.attr.postFrameSkip < 2 ^ 32) →
      (∀ hdl ∈ ch₀.queue.bundledStreams, (framesOf hdl ops).Pairwise (· < ·)) →
      Spaced ch₀ ops s) ?_ ?_ htags hwrap hinc
    · intro _ _ _
      have hque : ch₀.queue.que = [] := h₀.que
      have hbque : ch₀.bundle.que = [] := h₀.que
      have hm : ch₀.matchedFrames = [] := by simp [matchedFrames, hout]
      have hready : ch₀.bundle.ready = [] := by simp [Bundle.ready, hbque]
      refine ⟨⟨rfl, rfl, h₀.ordered, by simp [hbque], by simp [hbque]⟩, hcalm,
        by simp [Unmarked, hque], by simp [hque], by simp [hm], by simp [hm], by simp [hm],
        by simp [hready], fun _ => by simp [hready, hm]⟩
    · intro ops s op s' _ ih hstep htags hwrap hinc
      have hpre := ih (fun b hb => htags b (mem_append_left _ hb))
        (fun b hb => hwrap b (mem_append_left _ hb)) (fun hdl hhdl => by
          have h := hinc hdl hhdl
          rw [framesOf, filterMap_append] at h
          exact (pairwise_append.mp h).1)
      by_cases hop : ∃ b, op = .compAndEnqueue b
      · obtain ⟨b, rfl⟩ := hop
        exact hpre.enqueue hprio (htags b (by simp)) (hwrap b (by simp)) hinc hstep
      · exact hpre.remove (fun b hb => hop ⟨b, hb⟩) hstep
  exact ⟨hinv.spaced, (sublist_append_left _ _).trans hinv.taken, hinv.whole⟩

/-- The sample channel with a `post_frame_skip` of two. -/
def skippingChannel : MmChannel :=
  { sampleChannel .normal with queue.attr.postFrameSkip := 2 }

/-- The buffers of a frame, as they leave the streams. -/
def frameOps (frameIdx : ℕ) : List SuperbufOp :=
  [previewBuf frameIdx, snapshotBuf frameIdx, metadataBuf frameIdx].map .compAndEnqueue

/-- The state of a consumer after a list of enqueues and dequeues. -/
def Consumer.runOps (s : Consumer) (ops : List SuperbufOp) : Consumer :=
  ops.foldl (fun s op => match op with
    | .compAndEnqueue b => { s with ch := (s.ch.superbufCompAndEnqueue b).2 }
    | .dequeue =>
      { ch := s.ch.superbufDequeue.2, taken := s.taken ++ s.ch.superbufDequeue.1.toList }
    | _ => s) s

theorem Consumer.run_runOps (s : Consumer)
    (hplain : ∀ op ∈ ops, op.isPlain = true) : Run Consumer.Step s ops (s.runOps ops) := by
  induction ops generalizing s with
  | nil => exact Run.nil
  | cons op ops ih =>
    have hrest := fun op' (h : op' ∈ ops) => hplain op' (mem_cons_of_mem _ h)
    have hop := hplain op mem_cons_self
    cases op with
    | compAndEnqueue b =>
      have hstep : s.Step (.compAndEnqueue b) { s with ch := (s.ch.superbufCompAndEnqueue b).2 } :=
        ⟨rfl, (append_nil _).symm⟩
      exact (Run.single hstep).trans (ih _ hrest)
    | dequeue =>
      have hstep : s.Step .dequeue
          { ch := s.ch.superbufDequeue.2, taken := s.taken ++ s.ch.superbufDequeue.1.toList } :=
        ⟨rfl, rfl⟩
      exact (Run.single hstep).trans (ih _ hrest)
    | _ => cases hop

/-- Frame 2 is skipped; frames 1 and 3 are matched, and frame 1 is handed out. -/
theorem matchedFrames_spaced_sample : ∃ s, Run Consumer.Step { ch := skippingChannel }
        (frameOps 1 ++ frameOps 2 ++ frameOps 3 ++ [.dequeue]) s ∧
      s.ch.matchedFrames = [1, 3] ∧ s.taken.map frameIdx = [1] ∧
      s.ch.matchedFrames.Pairwise (fun m f => m + max 1 2 ≤ f) ∧
      (s.taken.map frameIdx).Sublist s.ch.matchedFrames := by
  set ops := frameOps 1 ++ frameOps 2 ++ frameOps 3 ++ [.dequeue] with hops
  have hplain : ∀ op ∈ ops, op.isPlain = true := by decide
  have hrun := Consumer.run_runOps { ch := skippingChannel } hplain
  have hmem : ∀ b, .compAndEnqueue b ∈ ops → (∀ m, b.buf.buffer = some m → NoTags m) ∧ b.frameIdx + 2 < 2 ^ 32 := by
    intro b hb
    simp only [hops, frameOps, map_cons, map_nil, cons_append, nil_append,
      mem_cons, SuperbufOp.compAndEnqueue.injEq, reduceCtorEq, not_mem_nil,
      or_false] at hb
    rcases hb with rfl | rfl | rfl | rfl | rfl | rfl | rfl | rfl | rfl <;>
      simp [previewBuf, snapshotBuf, metadataBuf, NoTags.mk]
  obtain ⟨hspaced, hsub, -⟩ := matchedFrames_spaced ⟨rfl, rfl, rfl⟩ rfl (by decide)
    ⟨rfl, rfl, rfl, rfl, rfl, rfl⟩ (fun b hb => (hmem b hb).1) (fun b hb => (hmem b hb).2)
    (by decide) hrun
  exact ⟨_, hrun, by decide, by decide, hspaced, hsub⟩

end MmChannel

end Marlin
