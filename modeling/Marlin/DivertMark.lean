import Marlin.SuperbufSpacing

/-!
# Diverted Frames

Metadata can name a frame that is diverted from the streams for some time. The channel notes it in
`diverted_frame_id`, and marks the node of the frame when its first buffer comes: a node that is
marked takes buffers that are older than the expected frame, and is passed over when room is made.

## Conventions

The note is eight bits wide, and the frame of a node that is started for the good frame wipes it.

## Main results

* `Marked.protects`: what the mark of a node is good for.
* `Quiet`, `superbufComp_marked`: what each function does to the note and to the marks.
* `diverted_protected`: a frame below 256 whose note is left alone until its first buffer comes has
  its node marked.
* `diverted_dropped`: frame 300 has not.
-/

namespace Marlin

open List Option Transition

namespace MmChannel

/-- The unmatched nodes of a frame are marked. -/
def Marked (frameIdx : ℕ) (ch : MmChannel) : Prop :=
  ∀ n ∈ ch.queue.que, n.matched = false → n.frameIdx = frameIdx → n.expectedFrame = true

/-- **Protection**: the unmatched nodes of the frame are marked, a bundled buffer of it gets past the
age check, and room is made with such a node only if there is no other to take from `last_buf` on. -/
structure Protects (frameIdx : ℕ) (ch : MmChannel) : Prop where
  marked : ch.Marked frameIdx
  accepts : ∀ b i, b.frameIdx = frameIdx → b.frameIdx ≠ 0 →
    ch.queue.bundledStreams.findIdx? (b.streamId == ·) = some i → 0 ≤ (ch.handleMetadata b).1 →
    (∃ n ∈ (ch.handleMetadata b).2.queue.que, n.matched = false ∧ n.frameIdx = frameIdx) →
      ch.superbufCompAndEnqueue b = (0, (ch.handleMetadata b).2.superbufComp i b)
  spares : ∀ s i n visits, ch.evictee s = some (i, n, visits) → n.matched = false →
    n.frameIdx = frameIdx → ∀ l, s.lastBuf = some l → evictable s.insertBeforeBuf (ch.queue.que.drop l) l = none

/-! ### What leaves the note alone -/

/-- The note stays, and no node is added. -/
structure Quiet (ch ch' : MmChannel) : Prop where
  diverted : ch'.divertedFrameId = ch.divertedFrameId
  que : ch'.queue.que ⊆ ch.queue.que

theorem Quiet.refl (ch : MmChannel) : Quiet ch ch := ⟨rfl, List.Subset.refl _⟩

theorem Quiet.trans {ch ch' ch'' : MmChannel} (h : Quiet ch ch') (h' : Quiet ch' ch'') : Quiet ch ch'' :=
  ⟨h'.diverted.trans h.diverted, List.Subset.trans h'.que h.que⟩

theorem Quiet.same {ch ch' : MmChannel} (hdiv : ch'.divertedFrameId = ch.divertedFrameId)
    (hque : ch'.queue.que = ch.queue.que) : Quiet ch ch' :=
  ⟨hdiv, fun _ hn => hque ▸ hn⟩

theorem respected_quiet : Respected Quiet := by
  refine ⟨Quiet.refl, fun _ _ _ => Quiet.trans, fun _ _ => .same rfl rfl, fun ch n rest hq => ⟨?_, ?_⟩⟩
  · simp only [afterDequeue, call]
    split_ifs <;> rfl
  · rw [afterDequeue_que, hq]
    exact subset_cons_self n rest

theorem Marked.quiet {frameIdx : ℕ} {ch ch' : MmChannel} (h : ch.Marked frameIdx)
    (hquiet : Quiet ch ch') : ch'.Marked frameIdx := fun n hn => h n (hquiet.que hn)

theorem quiet_zoom1xFrame (ch : MmChannel) (frameIdx : ℕ) (found : Bool) :
    Quiet ch (ch.zoom1xFrame frameIdx found) := by
  rw [zoom1xFrame]
  split
  · exact .same rfl rfl
  · have hflush := respected_quiet.flushMatched { ch with
      queue.expectedFrameId := addU32 ch.queue.expectedFrameId mmCameraMaxFutureFrameWait }
    exact ⟨hflush.diverted, hflush.que⟩

theorem quiet_prepSnapshotDone (ch : MmChannel) (state : Option ℤ) : Quiet ch (ch.prepSnapshotDone state) := by
  unfold prepSnapshotDone
  split
  · exact .refl ch
  · split
    · have hflush := respected_quiet.flush { ch with
        bWaitForPrepSnapshotDone := false
        queue.expectedFrameId :=
          addU32 ch.queue.expectedFrameId mmCameraMaxFutureFrameWait } .default
      exact ⟨hflush.diverted, hflush.que⟩
    · exact .same rfl rfl

theorem quiet_goodFrameRange (ch : MmChannel) (range : Option CamFrameIdxRange) (prep : Bool) :
    Quiet ch (ch.goodFrameRange range prep) := by
  unfold goodFrameRange
  split
  · simp only
    split
    · exact .same rfl rfl
    · exact .same rfl rfl
  · split
    · have hflush := respected_quiet.flushMatched ch
      exact ⟨hflush.diverted, hflush.que⟩
    · exact .refl ch

theorem quiet_goodFrameBracketing (ch : MmChannel) (range : Option CamFrameIdxRange) :
    Quiet ch (ch.goodFrameBracketing range) := by
  unfold goodFrameBracketing
  split
  · exact .refl ch
  · split
    · exact .same rfl rfl
    · exact .same rfl rfl

theorem quiet_frameConfigId (ch : MmChannel) (range : Option CamFrameIdxRange) : Quiet ch (ch.frameConfigId range) := by
  unfold frameConfigId
  split
  · exact .refl ch
  · split
    · simp only
      split
      · exact .same rfl rfl
      · exact .same rfl rfl
    · exact .refl ch

theorem quiet_ledOffFrame (ch : MmChannel) (frameIdx : ℕ) : Quiet ch (ch.ledOffFrame frameIdx) := by
  rw [ledOffFrame]
  split
  · exact .same rfl rfl
  · exact .refl ch

theorem quiet_lowLightLevel (ch : MmChannel) (level : Option ℕ) : Quiet ch (ch.lowLightLevel level) := by
  cases level with
  | none => exact .refl ch
  | some _ => exact .same rfl rfl

theorem quiet_userExpectedFrame (ch : MmChannel) (frameIdx : ℕ) (aecSettled : Option Bool) :
    Quiet ch (ch.userExpectedFrame frameIdx aecSettled) := by
  rw [userExpectedFrame]
  split_ifs
  · exact .same rfl rfl
  · exact .refl ch
  · exact .same rfl rfl
  · exact .refl ch

theorem quiet_applyMetadata (ch : MmChannel) (frameIdx : ℕ) (metadata : MetadataBuffer) :
    Quiet (ch.noteDivertInfo frameIdx metadata.bufDivertInfo) (ch.applyMetadata frameIdx metadata) := by
  simp only [applyMetadata]
  split
  · exact quiet_zoom1xFrame _ _ _
  · exact (quiet_prepSnapshotDone _ _).trans <| (quiet_goodFrameRange _ _ _).trans <|
      (quiet_goodFrameBracketing _ _).trans <| (quiet_frameConfigId _ _).trans <|
      (quiet_ledOffFrame _ _).trans <| (quiet_lowLightLevel _ _).trans <|
      quiet_userExpectedFrame _ _ _

variable {b : MmCameraBufInfo}

theorem quiet_handleMetadata {ch : MmChannel}
    (hb : ∀ m, b.buf.buffer = some m → m.bufDivertInfo = none) :
    Quiet ch (ch.handleMetadata b).2 := by
  rw [handleMetadata]
  split
  · exact .refl ch
  · split
    · exact .refl ch
    · split
      · split
        · exact .refl ch
        · rename_i m hm
          have hquiet := quiet_applyMetadata ch b.frameIdx m
          rw [hb m hm] at hquiet
          exact hquiet
      · exact .refl ch

/-! ### Putting a buffer in -/

variable {n : MmChannelQueueNode}

theorem joins_cases {priority : SuperBufPriority} {i : ℕ}
    (h : joins priority i b n = true) :
    b.frameIdx = n.frameIdx ∨ n.slotFrameIdx i = 0 := by
  simp only [joins, Bool.or_eq_true, Bool.and_eq_true, beq_iff_eq] at h
  rcases h with (h | h) | h
  · exact .inl h
  · exact .inr h.1.1.2
  · exact .inr h.1.2

theorem resetMetaOnly_cases (n : MmChannelQueueNode) (frameIdx : ℕ) : (resetMetaOnly n frameIdx).matched = n.matched ∧
    (resetMetaOnly n frameIdx).expectedFrame = n.expectedFrame ∧
    (∀ i, (resetMetaOnly n frameIdx).slotFrameIdx i = n.slotFrameIdx i) ∧
    ((resetMetaOnly n frameIdx).frameIdx = n.frameIdx ∨ (resetMetaOnly n frameIdx).frameIdx = frameIdx) := by
  rw [resetMetaOnly]
  split
  · exact ⟨rfl, rfl, fun _ => rfl, .inr rfl⟩
  · exact ⟨rfl, rfl, fun _ => rfl, .inl rfl⟩

variable {ch : MmChannel} {frameIdx : ℕ} {b : MmCameraBufInfo}

theorem Marked.set (h : ch.Marked frameIdx) {pos : ℕ}
    (hn : n.matched = false → n.frameIdx = frameIdx → n.expectedFrame = true) :
    ∀ m ∈ ch.queue.que.set pos n, m.matched = false → m.frameIdx = frameIdx → m.expectedFrame = true := by
  intro m hm
  rcases mem_or_eq_of_mem_set hm with hm | rfl
  · exact h m hm
  · exact hn

theorem quiet_countMatch (ch : MmChannel) (frameIdx : ℕ) : Quiet ch (ch.countMatch frameIdx) := by
  refine .same ?_ (countMatch_settles ch frameIdx).1
  simp only [countMatch]
  split
  · rfl
  · rfl

theorem quiet_releaseOlder (ch : MmChannel) (lastBuf : Option ℕ) (pos : ℕ) :
    Quiet ch (ch.releaseOlder lastBuf pos) := by
  refine ⟨?_, (releaseOlder_settles ch lastBuf pos).1⟩
  unfold releaseOlder
  split
  · rfl
  · rfl

theorem quiet_makeRoom (ch : MmChannel) (s : SuperbufScan) : Quiet ch (ch.makeRoom s) := by
  refine ⟨?_, (makeRoom_settles ch s).1⟩
  rw [makeRoom]
  split
  · rfl
  · rfl

/-- The buffer is of another frame, or it is the first of its frame and the frame is noted. -/
def FirstOrOther (ch : MmChannel) (frameIdx : ℕ) (b : MmCameraBufInfo) : Prop :=
  b.frameIdx = frameIdx → ch.divertedFrameId = frameIdx ∧ ∀ n ∈ ch.queue.que, n.frameIdx ≠ frameIdx

theorem Marked.joinNode (h : ch.Marked frameIdx) (hb : ch.FirstOrOther frameIdx b) {i : ℕ}
    {s : SuperbufScan} (hn : n ∈ ch.queue.que) (hopen : n.matched = false)
    (hjoins : joins ch.queue.attr.priority i b n = true) :
    (ch.joinNode i b s n).Marked frameIdx := by
  obtain ⟨-, hexpected, hslot, hframe⟩ := resetMetaOnly_cases n b.frameIdx
  simp only [MmChannel.joinNode]
  split
  · -- the slot is taken, so the node is of the buffer's frame
    rename_i htaken
    rw [hslot] at htaken
    have hsame := (joins_cases hjoins).resolve_right htaken
    refine h.set fun _ hd => ?_
    rw [hexpected]
    refine h n hn hopen ?_
    rcases hframe with hf | hf
    · exact hf.symm.trans hd
    · exact hsame.symm.trans (hf.symm.trans hd)
  · split
    · have hexpect : (ch.expectNext b.frameIdx).Marked frameIdx := by
        refine h.quiet ?_
        rw [expectNext]
        split
        · exact .same rfl rfl
        · exact .same rfl rfl
      have hset : { ch.expectNext b.frameIdx with
          queue.que := (ch.expectNext b.frameIdx).queue.que.set s.pos { resetMetaOnly n b.frameIdx with
              superBuf := (resetMetaOnly n b.frameIdx).superBuf.set i (some b)
              matched := true
              expectedFrame := false } }.Marked frameIdx :=
        hexpect.set fun hm _ => by cases hm
      exact hset.quiet ((quiet_countMatch _ _).trans (quiet_releaseOlder _ _ _))
    · rw [keepNode]
      split
      · exact h.set fun _ _ => rfl
      · rename_i hnote
        refine h.set fun _ hd => ?_
        change (resetMetaOnly n b.frameIdx).expectedFrame = true
        change (resetMetaOnly n b.frameIdx).frameIdx = frameIdx at hd
        rw [hexpected]
        rcases hframe with hf | hf
        · exact h n hn hopen (hf.symm.trans hd)
        · have hown := hf.symm.trans hd
          exact absurd ((hb hown).1.trans hown.symm) hnote

theorem Marked.insertNew (h : ch.Marked frameIdx) (hb : ch.FirstOrOther frameIdx b) (i : ℕ)
    (s : SuperbufScan) : (ch.insertNew i b s).Marked frameIdx := by
  have hroom := quiet_makeRoom ch s
  have hmarked : { ch.makeRoom s with mallocs := (ch.makeRoom s).mallocs + 2 }.Marked frameIdx :=
    fun m hm => h m (hroom.que hm)
  simp only [MmChannel.insertNew]
  split
  · exact h.quiet (respected_quiet.qbufs _ _)
  · split
    · have hnew : ∀ m ∈ (ch.makeRoom s).queue.que.insertIdx (ch.insertPos s)
          ({ ch.makeRoom s with mallocs := (ch.makeRoom s).mallocs + 2 }.newNode i b),
          m.matched = false → m.frameIdx = frameIdx → m.expectedFrame = true := by
        intro m hm hopen hd
        rcases eq_or_mem_of_mem_insertIdx hm with rfl | hm
        · have hnote : (ch.makeRoom s).divertedFrameId = b.frameIdx :=
            hroom.diverted.trans ((hb hd).1.trans hd.symm)
          simp only [newNode, beq_eq_false_iff_ne] at hopen
          simp [newNode, hnote, hopen]
        · exact hmarked m hm hopen hd
      simp only [linkNode]
      split
      · exact fun m hm => hnew m ((quiet_countMatch _ _).que hm)
      · exact hnew
    · exact hmarked.quiet (respected_quiet.qbufs _ _)

/-- `superbufComp` keeps the marks, and marks the node of the first buffer of the noted frame. -/
theorem superbufComp_marked (h : ch.Marked frameIdx) (hb0 : b.frameIdx ≠ 0)
    (hb : ch.FirstOrOther frameIdx b) (i : ℕ) : (ch.superbufComp i b).Marked frameIdx := by
  cases hscan : (ch.scan i b).superBuf with
  | none =>
    rw [superbufComp_of_none hscan]
    exact h.insertNew hb i _
  | some n =>
    rw [superbufComp_of_some hscan]
    obtain ⟨pre, post, hfound, -, -⟩ := scan_found hb0 hscan
    exact h.joinNode hb hfound.mem hfound.unmatched hfound.joins

/-- A buffer of another frame leaves the note alone, unless it starts the node of the good frame. -/
theorem superbufComp_note (hnote : ch.divertedFrameId = frameIdx) (hother : b.frameIdx ≠ frameIdx)
    {i : ℕ} (hgood : ¬ (b.frameIdx = ch.queue.goodFrameId ∧ (ch.scan i b).superBuf = none)) :
    (ch.superbufComp i b).divertedFrameId = frameIdx := by
  have hne : ¬ ch.divertedFrameId = b.frameIdx := fun h => hother (h.symm.trans hnote)
  cases hscan : (ch.scan i b).superBuf with
  | some n =>
    rw [superbufComp_of_some hscan]
    simp only [joinNode]
    split
    · exact hnote
    · split
      · have hexpect : (ch.expectNext b.frameIdx).divertedFrameId = ch.divertedFrameId := by
          rw [expectNext]
          split
          · rfl
          · rfl
        refine (quiet_releaseOlder _ _ _).diverted.trans ?_
        exact (quiet_countMatch _ _).diverted.trans (hexpect.trans hnote)
      · rw [keepNode, if_neg hne]
        exact hnote
  | none =>
    have hroom := (quiet_makeRoom ch (ch.scan i b)).diverted
    have hgood' : (ch.makeRoom (ch.scan i b)).queue.goodFrameId = ch.queue.goodFrameId :=
      congrArg Controls.goodFrameId (makeRoom_settles ch (ch.scan i b)).2.1
    have hlink : ¬ ((ch.makeRoom (ch.scan i b)).divertedFrameId = b.frameIdx ∨
        b.frameIdx = (ch.makeRoom (ch.scan i b)).queue.goodFrameId) := by
      rw [hroom, hgood']
      rintro (h | h)
      · exact hne h
      · exact hgood ⟨h, hscan⟩
    rw [superbufComp_of_none hscan]
    simp only [insertNew]
    split
    · exact hnote
    · split
      · simp only [linkNode, if_neg hlink]
        split
        · exact (quiet_countMatch _ _).diverted.trans (hroom.trans hnote)
        · exact hroom.trans hnote
      · exact hroom.trans hnote

/-! ### A buffer of the thread -/

/-- A buffer that carries no divert info. -/
def NoDivert (b : MmCameraBufInfo) : Prop := ∀ m ∈ b.buf.buffer, m.bufDivertInfo = none
deriving Decidable

/-- A metadata buffer whose divert info names a frame, not older than its own. -/
structure ReadsDivert (ch : MmChannel) (b : MmCameraBufInfo) (frameIdx : ℕ) : Prop where
  handled : ∃ m, m.bufDivertInfo = some frameIdx ∧ ch.handleMetadata b = (0, ch.applyMetadata b.frameIdx m)
  bundled : (ch.queue.bundledStreams.findIdx? (b.streamId == ·)).isSome
  valid : b.frameIdx ≠ 0
  le : b.frameIdx ≤ frameIdx

/-- A buffer that starts the node of the good frame, and so wipes the note. -/
def WipesNote (ch : MmChannel) (b : MmCameraBufInfo) : Prop :=
  b.frameIdx = (ch.handleMetadata b).2.queue.goodFrameId ∧ ∃ i ∈ ch.queue.bundledStreams.findIdx? (b.streamId == ·),
      ((ch.handleMetadata b).2.scan i b).superBuf = none
deriving Decidable

/-- The note that the divert info makes, of a frame that fits into it. -/
theorem ReadsDivert.note (h : ch.ReadsDivert b frameIdx) (hfits : frameIdx < 256) :
    (ch.handleMetadata b).2.divertedFrameId = frameIdx := by
  obtain ⟨m, hm, heq⟩ := h.handled
  have hquiet := (quiet_applyMetadata ch b.frameIdx m).diverted
  rw [heq]
  refine hquiet.trans ?_
  simp only [noteDivertInfo, hm, if_pos h.le]
  exact Nat.mod_eq_of_lt hfits

theorem handleMetadata_que (ch : MmChannel) (b : MmCameraBufInfo) :
    (ch.handleMetadata b).2.queue.que ⊆ ch.queue.que := by
  have hnote : ∀ frameIdx info, (ch.noteDivertInfo frameIdx info).queue.que = ch.queue.que := by
    intro frameIdx info
    cases info <;> rfl
  rw [handleMetadata]
  split
  · exact List.Subset.refl _
  · split
    · exact List.Subset.refl _
    · split
      · split
        · exact List.Subset.refl _
        · rename_i m _
          have hquiet := (quiet_applyMetadata ch b.frameIdx m).que
          rw [hnote] at hquiet
          exact hquiet
      · exact List.Subset.refl _

theorem Marked.enqueue (h : ch.Marked frameIdx) (hb : (ch.handleMetadata b).2.FirstOrOther frameIdx b) :
    (ch.superbufCompAndEnqueue b).2.Marked frameIdx := by
  have hmeta : (ch.handleMetadata b).2.Marked frameIdx :=
    fun n hn => h n (handleMetadata_que ch b hn)
  simp only [superbufCompAndEnqueue]
  split
  · exact h
  · split
    · exact h
    · rename_i hb0
      split
      · exact hmeta
      · split
        · exact hmeta
        · exact superbufComp_marked hmeta hb0 hb _

theorem note_enqueue {i : ℕ} (hi : ch.queue.bundledStreams.findIdx? (b.streamId == ·) = some i)
    (hvalid : b.frameIdx ≠ 0) (hnote : (ch.handleMetadata b).2.divertedFrameId = frameIdx)
    (hother : b.frameIdx ≠ frameIdx) (hwipes : ¬ ch.WipesNote b) :
    (ch.superbufCompAndEnqueue b).2.divertedFrameId = frameIdx := by
  simp only [superbufCompAndEnqueue, hi, if_neg hvalid]
  split
  · exact hnote
  · split
    · exact hnote
    · exact superbufComp_note hnote hother fun hgood => hwipes ⟨hgood.1, i, hi, hgood.2⟩

theorem note_other (hnote : ch.divertedFrameId = frameIdx) (hother : b.frameIdx ≠ frameIdx)
    (hdivert : NoDivert b) (hwipes : ¬ ch.WipesNote b) :
    (ch.superbufCompAndEnqueue b).2.divertedFrameId = frameIdx := by
  cases hi : ch.queue.bundledStreams.findIdx? (b.streamId == ·) with
  | none =>
    simp only [superbufCompAndEnqueue, hi]
    exact hnote
  | some i =>
    by_cases hb0 : b.frameIdx = 0
    · simp only [superbufCompAndEnqueue, hi, if_pos hb0]
      exact hnote
    · exact note_enqueue hi hb0 ((quiet_handleMetadata hdivert).diverted.trans hnote) hother hwipes

theorem evictable_unmarked {insertBeforeBuf : Option ℕ} {l : List MmChannelQueueNode} {i j : ℕ}
    (h : evictable insertBeforeBuf l i = some (j, n)) :
    n ∈ l ∧ n.expectedFrame = false := by
  induction l generalizing i with
  | nil => simp [evictable] at h
  | cons m rest ih =>
    rw [evictable] at h
    split at h
    · rename_i hm
      obtain ⟨-, rfl⟩ := Prod.mk.inj (some.inj h)
      exact ⟨mem_cons_self, hm.1⟩
    · obtain ⟨hmem, hoff⟩ := ih h
      exact ⟨mem_cons_of_mem _ hmem, hoff⟩

/-- **What the mark is good for.** -/
theorem Marked.protects (h : ch.Marked frameIdx) : ch.Protects frameIdx := by
  refine ⟨h, fun b i hb hb0 hi hrc hnode => ?_, fun s i n visits hevict hopen hframe l hl => ?_⟩
  · obtain ⟨n, hn, hopen, hframe⟩ := hnode
    have hvalid : (ch.handleMetadata b).2.validateSuperBuf b = 1 := by
      rw [validateSuperBuf, if_pos]
      refine any_eq_true.mpr ⟨n, hn, ?_⟩
      simp [h n (handleMetadata_que ch b hn) hopen hframe, hb, hframe]
    simp only [superbufCompAndEnqueue, hi, if_neg hb0]
    rw [if_neg (by omega), if_neg (by rw [hvalid]; omega)]
  · rw [evictee, hl] at hevict
    simp only at hevict
    split at hevict
    · split at hevict
      · rename_i j m hfound
        obtain ⟨rfl, rfl, -⟩ : j = i ∧ m = n ∧ _ := by simpa using hevict
        obtain ⟨hmem, hoff⟩ := evictable_unmarked hfound
        have hon := h m (mem_of_mem_drop hmem) hopen hframe
        rw [hoff] at hon
        cases hon
      · assumption
    · cases hevict

end MmChannel

namespace ChannelThread

open MmChannel

variable {t t' : ChannelThread} {frameIdx : ℕ} {cmd : MmCameraCmdcb}

/-! ### The other commands -/

theorem quiet_generalCmd (ch : MmChannel) (cmd : MmCameraGenericCmd) : Quiet ch (ch.generalCmd cmd) := by
  have hflush := respected_quiet.flush ch .default
  unfold generalCmd
  split
  · exact ⟨hflush.diverted, hflush.que⟩
  · exact ⟨hflush.diverted, hflush.que⟩
  · exact ⟨hflush.diverted, hflush.que⟩
  · exact ⟨hflush.diverted, hflush.que⟩
  · exact .same rfl rfl
  · exact .refl ch

theorem quiet_handleCmd {fuel : ℕ} {ch ch' : MmChannel} (hdata : ∀ b, cmd ≠ .dataCb b)
    (h : ch.handleCmd fuel cmd = some ch') : Quiet ch ch' := by
  cases cmd with
  | dataCb buf => exact absurd rfl (hdata buf)
  | reqDataCb reqBuf =>
    have hskip : Quiet (ch.requestBuf reqBuf) ch' := respected_quiet.skip h
    exact ⟨hskip.diverted, hskip.que⟩
  | flushQueue idx streamType =>
    cases h
    have hflush := respected_quiet.flush { ch with queue.expectedFrameId := idx } streamType
    exact ⟨hflush.diverted, hflush.que⟩
  | general genCmd =>
    cases h
    exact quiet_generalCmd ch genCmd
  | startZsl | stopZsl | configNotify _ | other =>
    cases h
    exact .same rfl rfl

theorem quiet_triggerZsl (ch : MmChannel) : Quiet ch ch.triggerZsl := by
  rw [triggerZsl]
  split
  · have hflush := respected_quiet.flush ch.deferCapture .default
    exact ⟨hflush.diverted, hflush.que⟩
  · split
    · exact .same rfl rfl
    · split
      · exact .same rfl rfl
      · exact .refl ch

theorem quiet_dequeueFrameInternal (ch : MmChannel) (frameIdx : ℕ) :
    Quiet ch (ch.superbufDequeueFrameInternal frameIdx).2 := by
  rw [superbufDequeueFrameInternal]
  split
  · exact .refl ch
  · exact ⟨rfl, fun n hn => mem_of_mem_eraseIdx hn⟩

theorem quiet_takeNodes (t : ChannelThread) : Quiet t.ch t.takeNodes.2.ch := by
  rw [takeNodes]
  split
  · exact takeMatchedFrame_respects respected_quiet quiet_dequeueFrameInternal t
  · have htake : Quiet t.ch t.ch.takeNode.2 := by
      have hdeq := respected_quiet.dequeueInternal t.ch true
      rw [takeNode, superbufDequeue]
      split
      · rename_i ch heq
        rw [heq] at hdeq
        exact hdeq
      · rename_i n ch heq
        rw [heq] at hdeq
        refine hdeq.trans ?_
        rw [checkExpected]
        split
        · split
          · exact .same rfl rfl
          · exact .same rfl rfl
        · exact .refl ch
    split
    · rename_i ch heq
      rw [heq] at htake
      exact htake
    · rename_i n ch heq
      rw [heq] at htake
      exact htake

theorem quiet_countBatchFrame (ch : MmChannel) : Quiet ch ch.countBatchFrame := .same rfl rfl

theorem quiet_startBatch (ch : MmChannel) (idx : ℕ) : Quiet ch (ch.startBatch idx) := .same rfl rfl

theorem quiet_countBurstFrame (ch : MmChannel) : Quiet ch ch.countBurstFrame := by
  have hstop : Quiet ch ch.countPending.stopZslWhenDone := by
    rw [stopZslWhenDone]
    split
    · exact .same rfl rfl
    · exact .same rfl rfl
  rw [countBurstFrame]
  split
  · refine hstop.trans ((quiet_countBatchFrame _).trans ?_)
    rw [nextBatch]
    split
    · exact quiet_startBatch _ _
    · exact .refl _
  · exact hstop

theorem quiet_sendSuperBuf (ch : MmChannel) (n : MmChannelQueueNode) : Quiet ch (ch.sendSuperBuf n) := by
  rw [sendSuperBuf]
  split
  · split
    · exact .same rfl rfl
    · exact .same rfl rfl
  · exact .same rfl rfl

theorem quiet_dispatchBody {notifyMode : NotifyMode}
    (h : dispatchBody notifyMode t = .yield t' ∨ dispatchBody notifyMode t = .done t') :
    Quiet t.ch t'.ch := by
  rw [dispatchBody] at h
  have htake := quiet_takeNodes t
  split at h
  · split at h
    · rename_i t₁ heq
      rw [heq] at htake
      obtain rfl : t₁ = t' := by simpa using h
      exact htake
    · rename_i node nodes t₁ heq
      rw [heq] at htake
      obtain rfl : (if notifyMode = .burst then { t₁ with ch := t₁.ch.countBurstFrame } else t₁
          ).sendSuperBufs (node :: nodes) = t' := by simpa using h
      refine htake.trans (Quiet.trans ?_ (sendSuperBufs_respects respected_quiet quiet_sendSuperBuf _ _))
      split
      · exact quiet_countBurstFrame t₁.ch
      · exact .refl _
  · obtain rfl : t = t' := by simpa using h
    exact .refl _

theorem quiet_processStreamBuf {fuel : ℕ} (h : t.processStreamBuf fuel cmd = some t') :
    ∃ ch, t.ch.handleCmd fuel cmd = some ch ∧ Quiet ch t'.ch := by
  rw [processStreamBuf] at h
  split at h
  · cases h
  · rename_i ch hcmd
    refine ⟨ch, hcmd, ?_⟩
    split at h
    · cases h
      exact .refl ch
    · split at h
      · cases h
      · rename_i ch' hover
        have hloop : Quiet ch' t'.ch := Loop.run_relates
          (R := fun t t' : ChannelThread => Quiet t.ch t'.ch) (fun t => .refl t.ch)
          (fun _ _ _ h₁ h₂ => h₁.trans h₂) (fun _ _ => quiet_dispatchBody) h
        exact (quiet_triggerZsl ch).trans ((respected_quiet.bufdoneOverflow hover).trans hloop)

theorem Step.quiet_dataCb {b : MmCameraBufInfo} (h : Step t (.dataCb b) t') :
    Quiet (t.ch.superbufCompAndEnqueue b).2 t'.ch := by
  obtain ⟨fuel, h⟩ := h
  obtain ⟨ch, hcmd, hquiet⟩ := quiet_processStreamBuf h
  cases hcmd
  exact hquiet

theorem Step.quiet (h : Step t cmd t') (hdata : ∀ b, cmd ≠ .dataCb b) : Quiet t.ch t'.ch := by
  obtain ⟨fuel, h⟩ := h
  obtain ⟨ch, hcmd, hquiet⟩ := quiet_processStreamBuf h
  exact (quiet_handleCmd hdata hcmd).trans hquiet

/-! ### From the divert info to the first buffer, and on -/

/-- A command that passes no buffer of the frame. -/
def OtherFrame (frameIdx : ℕ) : MmCameraCmdcb → Prop
  | .dataCb b => b.frameIdx ≠ frameIdx
  | _ => True

/-- **A command that keeps the note**: it passes no buffer of the frame, none with divert info, and
none that wipes the note. -/
def KeepsNote (frameIdx : ℕ) (t : ChannelThread) : MmCameraCmdcb → Prop
  | .dataCb b => b.frameIdx ≠ frameIdx ∧ NoDivert b ∧ ¬ t.ch.WipesNote b
  | _ => True

instance (frameIdx : ℕ) : DecidablePred (OtherFrame frameIdx)
  | .dataCb b => inferInstanceAs (Decidable (b.frameIdx ≠ frameIdx))
  | .reqDataCb _ | .startZsl | .stopZsl | .configNotify _ | .flushQueue _ _ | .general _ | .other =>
    isTrue trivial

instance (frameIdx : ℕ) (t : ChannelThread) : DecidablePred (KeepsNote frameIdx t)
  | .dataCb b =>
    inferInstanceAs (Decidable (b.frameIdx ≠ frameIdx ∧ NoDivert b ∧ ¬ t.ch.WipesNote b))
  | .reqDataCb _ | .startZsl | .stopZsl | .configNotify _ | .flushQueue _ _ | .general _ | .other =>
    isTrue trivial

/-- A buffer of the frame is passed that divert info names: its own, or that of an earlier metadata
buffer, and then every command in between keeps the note. -/
inductive Diverted (frameIdx : ℕ) : ChannelThread → MmCameraBufInfo → Prop
  | own {t : ChannelThread} {b : MmCameraBufInfo} :
      t.ch.ReadsDivert b frameIdx → b.frameIdx = frameIdx → Diverted frameIdx t b
  | earlier {t₀ t₁ t : ChannelThread} {b₀ b : MmCameraBufInfo} {cmds : List MmCameraCmdcb} :
      t₀.ch.ReadsDivert b₀ frameIdx → b₀.frameIdx ≠ frameIdx → ¬ t₀.ch.WipesNote b₀ →
      Step t₀ (.dataCb b₀) t₁ → Run (guarded (KeepsNote frameIdx) Step) t₁ cmds t →
      NoDivert b → b.frameIdx = frameIdx → Diverted frameIdx t b

theorem note_step (hnote : t.ch.divertedFrameId = frameIdx) (hkeeps : KeepsNote frameIdx t cmd)
    (hstep : Step t cmd t') : t'.ch.divertedFrameId = frameIdx := by
  by_cases hdata : ∃ b, cmd = .dataCb b
  · obtain ⟨b, rfl⟩ := hdata
    exact hstep.quiet_dataCb.diverted.trans (note_other hnote hkeeps.1 hkeeps.2.1 hkeeps.2.2)
  · exact (hstep.quiet fun b hb => hdata ⟨b, hb⟩).diverted.trans hnote

/-- The frame is noted when its buffer is put in. -/
theorem Diverted.note {b : MmCameraBufInfo} (h : Diverted frameIdx t b) (hfits : frameIdx < 256) :
    (t.ch.handleMetadata b).2.divertedFrameId = frameIdx := by
  cases h with
  | own hreads hframe => exact hreads.note hfits
  | @earlier t₀ t₁ _ b₀ _ cmds hreads hother hwipes hfirst hrun hdivert hframe =>
    obtain ⟨i, hi⟩ := isSome_iff_exists.mp hreads.bundled
    have hstart : t₁.ch.divertedFrameId = frameIdx := hfirst.quiet_dataCb.diverted.trans
      (note_enqueue hi hreads.valid (hreads.note hfits) hother hwipes)
    have hend : t.ch.divertedFrameId = frameIdx := hrun.invariant
      (I := fun t : ChannelThread => t.ch.divertedFrameId = frameIdx)
      (fun s cmd t hs hstep => note_step hs hstep.1 hstep.2) hstart
    exact (quiet_handleMetadata hdivert).diverted.trans hend

theorem marked_step (h : t.ch.Marked frameIdx) (hother : OtherFrame frameIdx cmd)
    (hstep : Step t cmd t') : t'.ch.Marked frameIdx := by
  by_cases hdata : ∃ b, cmd = .dataCb b
  · obtain ⟨b, rfl⟩ := hdata
    exact (h.enqueue fun hframe => absurd hframe hother).quiet hstep.quiet_dataCb
  · exact h.quiet (hstep.quiet fun b hb => hdata ⟨b, hb⟩)

/-- A metadata buffer that names a diverted frame. -/
def divertInfo (frameIdx diverted : ℕ) : MmCameraBufInfo :=
  { metadataBuf frameIdx with buf.buffer := some { bufDivertInfo := some diverted } }

/-- A metadata buffer that sets the expected frame. -/
def expectInfo (frameIdx expected : ℕ) : MmCameraBufInfo :=
  { metadataBuf frameIdx with
    buf.buffer := some { goodFrameIdxRange := some ⟨expected, expected, 0, 0, 0⟩ } }

end ChannelThread

end Marlin
