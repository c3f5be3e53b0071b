import Marlin.PostProcessor
import Marlin.StreamMem
import Marlin.Transition
import Mathlib.Data.List.Nodup

/-!
# The Snapshot Buffers of a Picture Channel

`QCamera3PicChannel` queues a YUV buffer to its stream for each picture. It takes one that was used
before (`mFreeBufferList`) or allocates one more. The frame goes through the jobs of the
post-processor, and its buffer is free again when the JPEG comes back.

A job that is destroyed on the way takes its buffer along: an ongoing encoding at `flush`, whose
check of the result is the wrong way round, one that waits when the channel is stopped, one that
cannot be started. Other failures make two places of one.

## Conventions

* `parentBufs` of the post-processor are the buffers that the stream has.
* `getBufs` and `putBufs` are the calls that come with the stream being switched on and off.
* The post-processor makes pictures only, so that its reprocessed frames all go to the encoder.

## Main results

* `Orderly.startLive` and its kind: no step of the post-processor moves a buffer anywhere else.
* `Inv.step`: what one step preserves.
* `snapshots_conserved`: each buffer is in one place as long as no failure loses or doubles one.
-/

namespace Marlin

open Option PostProcessor List Transition

/-- The snapshot buffer of a frame. -/
def PpFrame.snapshot (f : PpFrame) : List ℕ := if f.ofParent then [f.bufIdx] else []

/-- The snapshot buffer that a post-processing job holds. -/
def PpJob.snapshots (job : PpJob) : List ℕ := job.srcFrame.elim [] PpFrame.snapshot

/-- The snapshot buffers that a JPEG job holds. -/
def JpegJob.snapshots (job : JpegJob) : List ℕ :=
  job.srcFrame.elim [] PpFrame.snapshot ++ job.srcReprocFrame.elim [] PpFrame.snapshot

/-- The snapshot buffer that `jpegEvtHandle` finds in a job. -/
def JpegJob.snapshotIdx (job : JpegJob) : List ℕ :=
  match job.srcReprocFrame with
  | some frame => frame.snapshot
  | none => job.srcFrame.elim [] PpFrame.snapshot

namespace PostProcessor

/-- The snapshot buffers in the queues and the jobs. -/
def held (s : PostProcessor) : List ℕ :=
  s.inputPPQ.flatMap PpFrame.snapshot ++ s.ongoingPPQ.flatMap PpJob.snapshots ++
    s.inputJpegQ.flatMap JpegJob.snapshots ++ s.ongoingJpegQ.flatMap JpegJob.snapshots

/-- How often the stream, the queues and the jobs have a buffer. -/
def home (s : PostProcessor) (i : ℕ) : ℕ := s.parentBufs.count i + s.held.count i

theorem home_eq (s : PostProcessor) (i : ℕ) :
    s.home i = s.parentBufs.count i + (s.inputPPQ.flatMap PpFrame.snapshot).count i +
      (s.ongoingPPQ.flatMap PpJob.snapshots).count i +
      (s.inputJpegQ.flatMap JpegJob.snapshots).count i +
      (s.ongoingJpegQ.flatMap JpegJob.snapshots).count i := by
  rw [home, held, count_append, count_append, count_append]
  omega

/-- What the queues and the threads keep among each other. -/
structure Orderly (s : PostProcessor) : Prop where
  direct : s.reprocChannel = false → s.ongoingPPQ = []
  idle : s.isActive = false → s.ongoingPPQ = [] ∧ ∀ job ∈ s.inputJpegQ, job.snapshots = []
  off : s.queuesActive = false → s.isActive = false ∧ s.inputPPQ = [] ∧ s.ongoingPPQ = [] ∧ s.inputJpegQ = []
  one : ∀ job ∈ s.inputJpegQ ++ s.ongoingJpegQ, job.snapshots = job.snapshotIdx

variable {s s' : PostProcessor}

theorem Orderly.active (h : s.Orderly) (hactive : s.isActive = true) : s.queuesActive = true := by
  by_contra hoff
  rw [(h.off (by simpa using hoff)).1] at hactive
  cases hactive

theorem releaseSuperBuf_eq (s : PostProcessor) (frame : PpFrame) :
    s.releaseSuperBuf frame true = { s with parentBufs := s.parentBufs ++ frame.snapshot } := by
  rw [releaseSuperBuf_frame, PpFrame.snapshot, Bool.and_true]

theorem releaseAll_eq {bufDone : ℕ → Bool} {frames : List PpFrame}
    (hdone : ∀ frame ∈ frames, bufDone frame.bufIdx = true) (s : PostProcessor) :
    s.releaseAll bufDone frames = { s with parentBufs := s.parentBufs ++ frames.flatMap PpFrame.snapshot } := by
  induction frames generalizing s with
  | nil => rw [flatMap_nil, append_nil]; rfl
  | cons frame frames ih =>
    rw [releaseAll, foldl_cons, hdone frame mem_cons_self, releaseSuperBuf_eq]
    refine (ih (fun f hf => hdone f (mem_cons_of_mem _ hf)) _).trans ?_
    rw [flatMap_cons, ← append_assoc]

/-! ### What comes in -/

theorem Orderly.processData (h : s.Orderly) (hactive : s.queuesActive = true) (frame : PpFrame) :
    (s.processData frame).Orderly ∧ ∀ i, (s.processData frame).home i = s.home i + frame.snapshot.count i := by
  rw [PostProcessor.processData, enqueue, if_pos hactive]
  refine ⟨⟨h.direct, h.idle, fun hoff => ?_, h.one⟩, fun i => ?_⟩
  · rw [hactive] at hoff
    cases hoff
  · simp only [home_eq, flatMap_append, count_append, flatMap_singleton]
    omega

theorem Orderly.processPPMetadata (h : s.Orderly) (reprocMeta : PpMetadata) :
    (s.processPPMetadata reprocMeta).Orderly := ⟨h.direct, h.idle, h.off, h.one⟩

theorem Orderly.processJpegSettingData (h : s.Orderly) (jpegSettings : JpegSettings) :
    (s.processJpegSettingData jpegSettings).Orderly := ⟨h.direct, h.idle, h.off, h.one⟩

theorem Orderly.enqueueJpeg (h : s.Orderly) {job : JpegJob} (hone : job.snapshots = job.snapshotIdx)
    (hidle : s.isActive = false → job.snapshots = []) :
    { s with inputJpegQ := enqueue s.queuesActive s.inputJpegQ job }.Orderly := by
  rw [enqueue]
  split
  · rename_i hactive
    refine ⟨h.direct, fun hoff => ⟨(h.idle hoff).1, fun j hj => ?_⟩, fun hoff => ?_, fun j hj => ?_⟩
    · rcases mem_append.mp hj with hj | hj
      · exact (h.idle hoff).2 j hj
      · exact mem_singleton.mp hj ▸ hidle hoff
    · rw [hactive] at hoff
      cases hoff
    · rw [append_assoc] at hj
      rcases mem_append.mp hj with hj | hj
      · exact h.one j (mem_append_left _ hj)
      · rcases mem_append.mp hj with hj | hj
        · exact mem_singleton.mp hj ▸ hone
        · exact h.one j (mem_append_right _ hj)
  · exact h

theorem Orderly.processFwkData (h : s.Orderly) (frame : FwkInput) (allocated : Bool) :
    (s.processFwkData frame allocated).Orderly ∧ ∀ i, (s.processFwkData frame allocated).home i = s.home i := by
  rw [PostProcessor.processFwkData]
  split
  · exact ⟨⟨h.direct, h.idle, h.off, h.one⟩, fun _ => rfl⟩
  · split
    · exact ⟨h, fun _ => rfl⟩
    · rename_i settings _ _
      split
      · have hnone : JpegJob.snapshots { fwkFrame := some frame, jpegSettings := settings } = [] := rfl
        have hjpeg := h.enqueueJpeg (hnone.trans rfl) fun _ => hnone
        refine ⟨⟨hjpeg.direct, hjpeg.idle, hjpeg.off, hjpeg.one⟩, fun i => ?_⟩
        simp only [home_eq, enqueue]
        split
        · simp [JpegJob.snapshots]
        · rfl
      · exact ⟨⟨h.direct, h.idle, h.off, h.one⟩, fun _ => rfl⟩

theorem isActive_processFwkData (s : PostProcessor) (frame : FwkInput) (allocated : Bool) :
    (s.processFwkData frame allocated).isActive = s.isActive := by
  rw [processFwkData]
  split
  · rfl
  · split
    · rfl
    · split
      · rfl
      · rfl

/-! ### The data thread -/

theorem Orderly.startJpeg (h : s.Orderly) {encoded : Bool} (hencoded : s.ongoingJpegQ = [] → encoded = false →
      ∀ job ∈ s.inputJpegQ.head?, job.snapshots = []) :
    (s.startJpeg encoded).Orderly ∧ ∀ i, (s.startJpeg encoded).home i = s.home i := by
  rw [PostProcessor.startJpeg]
  split
  · rename_i job rest hongoing hinput
    have hmem : ∀ j ∈ rest, j ∈ s.inputJpegQ := fun j hj => hinput ▸ mem_cons_of_mem _ hj
    have hjob : job ∈ s.inputJpegQ := hinput ▸ mem_cons_self
    refine ⟨⟨h.direct, fun hoff => ⟨(h.idle hoff).1, fun j hj => (h.idle hoff).2 j (hmem j hj)⟩,
      fun hoff => ?_, fun j hj => h.one j ?_⟩, fun i => ?_⟩
    · rw [(h.off hoff).2.2.2] at hinput
      cases hinput
    · rw [hongoing, append_nil]
      rcases mem_append.mp hj with hj | hj
      · exact hmem j hj
      · split at hj
        · exact mem_singleton.mp hj ▸ hjob
        · cases hj
    · simp only [home_eq, hongoing, hinput, flatMap_cons, count_append]
      split
      · simp only [flatMap_singleton, flatMap_nil, count_nil]
        omega
      · rename_i hoff
        rw [hencoded hongoing (by simpa using hoff) job (by rw [hinput]; rfl), count_nil, Nat.zero_add]
  · exact ⟨h, fun _ => rfl⟩

theorem Orderly.startFwk (h : s.Orderly) (hactive : s.isActive = true) (calls : FwkCalls) :
    (s.startFwk calls).Orderly ∧ ∀ i, (s.startFwk calls).home i = s.home i := by
  have hqueues := h.active hactive
  have hidle {p : Prop} (hoff : s.isActive = false) : p := by
    rw [hactive] at hoff
    cases hoff
  have hoff {p : Prop} (hoff : s.queuesActive = false) : p := by
    rw [hqueues] at hoff
    cases hoff
  rw [PostProcessor.startFwk]
  split
  · exact ⟨h, fun _ => rfl⟩
  · rw [startFwkJob]
    split
    · exact ⟨⟨h.direct, h.idle, h.off, h.one⟩, fun i => by simp only [home_eq]⟩
    · rename_i hchannel
      split
      · refine ⟨⟨fun hno => ?_, hidle, hoff, h.one⟩, fun i => ?_⟩
        · have hno : s.reprocChannel = false := hno
          exact absurd (by simp [hno]) hchannel
        · simp [home_eq, enqueue, hqueues, PpJob.snapshots]
      · exact ⟨⟨h.direct, h.idle, h.off, h.one⟩, fun i => by simp only [home_eq]⟩

theorem queueJpegJob_cases (s : PostProcessor) (job : PpJob) (frame : PpFrame) (allocated : Bool) :
    (s.queueJpegJob job frame allocated = (false, s) ∧
        (job.jpegSettings = none ∨ job.snapshots = [] ∨ allocated = false)) ∨
      ∃ jpeg created, s.queueJpegJob job frame allocated = (true, { s with
          inputJpegQ := enqueue s.queuesActive s.inputJpegQ jpeg, created := created }) ∧
        jpeg.srcFrame = some frame ∧
        jpeg.srcReprocFrame = (if some frame = job.srcFrame then none else job.srcFrame) ∧
        jpeg.fwkFrame = none ∧ jpeg.fwkSrcBuffer = job.fwkSrcFrame := by
  rw [queueJpegJob]
  cases hsettings : job.jpegSettings with
  | none => exact .inl ⟨rfl, .inl rfl⟩
  | some settings =>
    dsimp only
    split
    · rename_i hfail
      refine .inl ⟨rfl, .inr (hfail.imp (fun hnone => ?_) (by simp))⟩
      rw [PpJob.snapshots, isNone_iff_eq_none.mp hnone.1]
      rfl
    · exact .inr ⟨_, _, rfl, rfl, rfl, rfl, rfl⟩

theorem snapshots_reprocessed {job : PpJob} {jpeg : JpegJob} {frame : PpFrame}
    (hframe : frame.ofParent = false) (hsrc : jpeg.srcFrame = some frame)
    (hreproc : jpeg.srcReprocFrame = if some frame = job.srcFrame then none else job.srcFrame) :
    jpeg.snapshots = job.snapshots ∧ jpeg.snapshots = jpeg.snapshotIdx := by
  have hnone : frame.snapshot = [] := by simp [PpFrame.snapshot, hframe]
  rw [JpegJob.snapshots, JpegJob.snapshotIdx, PpJob.snapshots, hsrc, hreproc, elim_some, hnone]
  split
  · rename_i heq
    rw [← heq, elim_some, hnone]
    exact ⟨rfl, rfl⟩
  · cases job.srcFrame with
    | none => exact ⟨rfl, rfl⟩
    | some _ => exact ⟨rfl, rfl⟩

theorem snapshots_direct {job : PpJob} {jpeg : JpegJob} {frame : PpFrame}
    (hjob : job.srcFrame = some frame) (hsrc : jpeg.srcFrame = some frame)
    (hreproc : jpeg.srcReprocFrame = if some frame = job.srcFrame then none else job.srcFrame) :
    jpeg.snapshots = frame.snapshot ∧ jpeg.snapshots = jpeg.snapshotIdx := by
  rw [hjob, if_pos rfl] at hreproc
  rw [JpegJob.snapshots, JpegJob.snapshotIdx, hsrc, hreproc]
  exact ⟨append_nil _, append_nil _⟩

theorem Orderly.startLiveJob (h : s.Orderly) (hactive : s.isActive = true) {job : PpJob}
    {frame : PpFrame} (hjob : job.srcFrame = some frame) {calls : LiveCalls}
    (hcalls : s.reprocChannel = true → calls.allocated = true → calls.overridden = true)
    (hdone : calls.bufDone = true) :
    (s.startLiveJob job frame calls).Orderly ∧
      ∀ i, (s.startLiveJob job frame calls).home i = s.home i + frame.snapshot.count i := by
  have hqueues := h.active hactive
  have hsnap : job.snapshots = frame.snapshot := by rw [PpJob.snapshots, hjob]; rfl
  have hidle {p : Prop} (hoff : s.isActive = false) : p := by
    rw [hactive] at hoff
    cases hoff
  have hoff {p : Prop} (hoff : s.queuesActive = false) : p := by
    rw [hqueues] at hoff
    cases hoff
  have hback (created : List JobParts) : ({ s with created := created }.releaseSuperBuf frame true).Orderly ∧
        ∀ i, ({ s with created := created }.releaseSuperBuf frame true).home i = s.home i + frame.snapshot.count i := by
    rw [releaseSuperBuf_eq]
    refine ⟨⟨h.direct, h.idle, h.off, h.one⟩, fun i => ?_⟩
    simp only [home_eq, count_append]
    omega
  rw [PostProcessor.startLiveJob, hdone]
  dsimp only
  split
  · exact hback s.created
  · rename_i hallocated
    split
    · rename_i hchannel
      have hover := hcalls hchannel (by simpa using hallocated)
      rw [hover, Bool.not_true, if_neg Bool.false_ne_true]
      split
      · refine ⟨⟨fun hno => ?_, hidle, hoff, h.one⟩, fun i => ?_⟩
        · rw [hchannel] at hno
          cases hno
        · simp only [home_eq, enqueue, hqueues, if_true, flatMap_append, count_append, flatMap_singleton, hsnap]
          omega
      · exact hback _
    · rename_i hchannel
      have hempty := h.direct (by simpa using hchannel)
      generalize s.created ++ [job.parts frame.frameNumber] = created
      have hpp : ({ s with
          created := created
          ongoingPPQ := enqueue s.queuesActive s.ongoingPPQ job } : PostProcessor).processPPData
            frame calls.jpegAllocated =
          ({ s with created := created, ongoingPPQ := [] } : PostProcessor).queueJpegJob job frame
            calls.jpegAllocated := by
        rw [processPPData]
        simp only [enqueue, hqueues, hempty, if_true, nil_append]
      have hsame : ({ s with created := created, ongoingPPQ := [] } : PostProcessor) =
          { s with created := created } := by rw [← hempty]
      rw [hpp, hsame]
      obtain ⟨hfail, -⟩ | ⟨jpeg, _, hqueue, hsrc, hreproc, -⟩ :=
        queueJpegJob_cases { s with created := created } job frame calls.jpegAllocated
      · rw [hfail]
        exact hback created
      · obtain ⟨hjpeg, hone⟩ := snapshots_direct hjob hsrc hreproc
        have hord := h.enqueueJpeg hone hidle
        rw [hqueue, if_pos rfl]
        refine ⟨⟨hord.direct, hord.idle, hord.off, hord.one⟩, fun i => ?_⟩
        simp only [home_eq, enqueue, hqueues, if_true, flatMap_append, count_append, flatMap_singleton, hjpeg]
        omega

/-- **A job for a frame of the stream**, in `DO_NEXT_JOB`. -/
theorem Orderly.startLive (h : s.Orderly) (hactive : s.isActive = true) {calls : LiveCalls}
    (hcalls : s.inputPPQ ≠ [] → s.inputMetaQ ≠ [] →
      (s.reprocChannel = true → calls.allocated = true → calls.overridden = true) ∧
        calls.bufDone = true) :
    (s.startLive calls).Orderly ∧ ∀ i, (s.startLive calls).home i = s.home i := by
  rw [PostProcessor.startLive]
  split
  · rename_i frame frames reprocMeta metas hinput hmeta
    obtain ⟨hover, hdone⟩ := hcalls (by simp [hinput]) (by simp [hmeta])
    have hqueues := h.active hactive
    have htaken : ({ s with
        inputPPQ := frames, inputMetaQ := metas, jpegSettingsQ := s.jpegSettingsQ.tail } : PostProcessor).Orderly := by
      refine ⟨h.direct, h.idle, fun hoff => ?_, h.one⟩
      rw [hqueues] at hoff
      cases hoff
    have hjob : PpJob.srcFrame
        { srcFrame := some frame
          srcMetadata := some reprocMeta
          jpegSettings := s.jpegSettingsQ.head? } = some frame := rfl
    obtain ⟨hord, hhome⟩ := htaken.startLiveJob hactive hjob hover hdone
    refine ⟨hord, fun i => (hhome i).trans ?_⟩
    simp only [home_eq, hinput, flatMap_cons, count_append]
    omega
  · exact ⟨h, fun _ => rfl⟩

theorem Orderly.dropNext (h : s.Orderly) (hactive : s.isActive = false) {bufDone : Bool}
    (hdone : s.inputPPQ ≠ [] → bufDone = true) :
    (s.dropNext bufDone).Orderly ∧ ∀ i, (s.dropNext bufDone).home i = s.home i := by
  obtain ⟨hongoing, hnone⟩ := h.idle hactive
  have hempty : s.inputJpegQ.flatMap JpegJob.snapshots = [] := flatMap_eq_nil_iff.mpr hnone
  have htail : s.inputJpegQ.tail.flatMap JpegJob.snapshots = [] :=
    flatMap_eq_nil_iff.mpr fun j hj => hnone j (mem_of_mem_tail hj)
  have hone : ∀ j ∈ s.inputJpegQ.tail ++ s.ongoingJpegQ, j.snapshots = j.snapshotIdx := by
    intro j hj
    refine h.one j ?_
    rcases mem_append.mp hj with hj | hj
    · exact mem_append_left _ (mem_of_mem_tail hj)
    · exact mem_append_right _ hj
  have hidle : s.isActive = false → s.ongoingPPQ = [] ∧ ∀ j ∈ s.inputJpegQ.tail, j.snapshots = [] :=
    fun _ => ⟨hongoing, fun j hj => hnone j (mem_of_mem_tail hj)⟩
  have hjpegs (hoff : s.queuesActive = false) : s.inputJpegQ.tail = [] := by
    rw [(h.off hoff).2.2.2]
    rfl
  rw [PostProcessor.dropNext]
  dsimp only
  split
  · rename_i hinput
    refine ⟨⟨h.direct, hidle, fun hoff => ⟨hactive, hinput, hongoing, hjpegs hoff⟩, hone⟩, fun i => ?_⟩
    simp only [home_eq, hempty, htail]
  · rename_i frame frames hinput
    rw [hdone (by simp [hinput]), releaseSuperBuf_eq]
    refine ⟨⟨h.direct, hidle, fun hoff => ?_, hone⟩, fun i => ?_⟩
    · rw [(h.off hoff).2.1] at hinput
      cases hinput
    · simp only [home_eq, hempty, htail, hinput, flatMap_cons, count_append]
      omega

theorem isActive_dropNext (s : PostProcessor) (bufDone : Bool) : (s.dropNext bufDone).isActive = s.isActive := by
  rw [dropNext]
  dsimp only
  split
  · rfl
  · rw [releaseSuperBuf_frame]

/-! ### Start, stop and flush -/

/-- The configuration starts the thread, or leaves it off. -/
theorem Orderly.start (h : s.Orderly) (hongoing : s.ongoingPPQ = []) (reprocessType : ReprocessType)
    (calls : PpStartCalls) :
    (s.start reprocessType calls).Orderly ∧ ∀ i, (s.start reprocessType calls).home i = s.home i := by
  have hon (channel : Bool) (reprocessing : List ℕ) : ({ s with reprocChannel := channel, reprocessing := reprocessing }
        : PostProcessor).startDataProc.Orderly :=
    ⟨fun _ => hongoing, nofun, nofun, h.one⟩
  rw [PostProcessor.start]
  split
  · exact ⟨hon s.reprocChannel s.reprocessing, fun i => by simp only [home_eq, startDataProc]⟩
  · dsimp only
    split
    · exact ⟨⟨fun _ => hongoing, h.idle, h.off, h.one⟩, fun i => by simp only [home_eq]⟩
    · exact ⟨hon true [], fun i => by simp only [home_eq, startDataProc]⟩

theorem flatMap_srcFrame (jobs : List PpJob) :
    (jobs.filterMap (·.srcFrame)).flatMap PpFrame.snapshot = jobs.flatMap PpJob.snapshots := by
  induction jobs with
  | nil => rfl
  | cons job jobs ih =>
    rw [flatMap_cons, ← ih, PpJob.snapshots]
    cases hframe : job.srcFrame with
    | none =>
      rw [filterMap_cons_none hframe]
      rfl
    | some frame =>
      rw [filterMap_cons_some hframe]
      rfl

/-- All jobs and queues are given up, and nothing is held; the frames go back to the stream. -/
theorem Orderly.stop (h : s.Orderly) {bufDone : ℕ → Bool}
    (hjpegs : ∀ job ∈ s.inputJpegQ ++ s.ongoingJpegQ, job.snapshots = [])
    (hdone : ∀ frame ∈ s.ongoingPPQ.filterMap (·.srcFrame) ++ s.inputPPQ, bufDone frame.bufIdx = true) :
    (s.stop bufDone).Orderly ∧ (∀ i, (s.stop bufDone).home i = s.home i) ∧
      (s.stop bufDone).held = [] ∧ (s.stop bufDone).isActive = false := by
  have hjpeg {l : List JpegJob} (hl : ∀ job ∈ l, job ∈ s.inputJpegQ ++ s.ongoingJpegQ) :
      l.flatMap JpegJob.snapshots = [] :=
    flatMap_eq_nil_iff.mpr fun job hjob => hjpegs job (hl job hjob)
  have hinput := hjpeg (l := s.inputJpegQ) fun _ => mem_append_left _
  have hongoing := hjpeg (l := s.ongoingJpegQ) fun _ => mem_append_right _
  rw [PostProcessor.stop]
  dsimp only
  by_cases hqueues : s.queuesActive = true
  · rw [if_pos hqueues, releaseAll_eq hdone]
    have hnone {p : JpegJob → Prop} : ∀ job ∈ ([] : List JpegJob), p job :=
      fun _ hmem => absurd hmem not_mem_nil
    refine ⟨⟨fun _ => rfl, fun _ => ⟨rfl, hnone⟩, fun _ => ⟨rfl, rfl, rfl, rfl⟩, hnone⟩, fun i => ?_,
      rfl, rfl⟩
    simp only [home_eq, flatMap_append, count_append, flatMap_srcFrame, hinput, hongoing, flatMap_nil, count_nil]
    omega
  · obtain ⟨-, hframes, hjobs, hwaiting⟩ := h.off (by simpa using hqueues)
    rw [if_neg hqueues]
    have hnone {p : JpegJob → Prop} : ∀ job ∈ s.inputJpegQ, p job := by
      rw [hwaiting]
      exact fun _ hmem => absurd hmem not_mem_nil
    refine ⟨⟨fun _ => hjobs, fun _ => ⟨hjobs, hnone⟩, fun _ => ⟨rfl, hframes, hjobs, hwaiting⟩, ?_⟩,
      fun i => ?_, ?_, rfl⟩
    · simp only [append_nil]
      exact hnone
    · simp only [home_eq, hongoing, flatMap_nil]
    · simp only [held, hframes, hjobs, hwaiting, flatMap_nil, append_nil]

/-- The ongoing encodings are given up. -/
theorem Orderly.flush (h : s.Orderly) : s.flush.Orderly ∧
      ∀ i, s.flush.home i + (s.ongoingJpegQ.flatMap JpegJob.snapshots).count i = s.home i := by
  refine ⟨⟨h.direct, h.idle, h.off, fun j hj => h.one j ?_⟩, fun i => ?_⟩
  · exact mem_append_left _ ((append_nil s.inputJpegQ) ▸ hj)
  · simp only [home_eq, PostProcessor.flush, flatMap_nil, count_nil]
    omega

/-! ### What comes back -/

theorem Orderly.jpegReprocessed (h : s.Orderly) {frame : PpFrame} (hframe : frame.ofParent = false)
    {copied allocated : Bool}
    (hqueued : copied = true → ∀ job ∈ s.ongoingPPQ.head?, job.snapshots ≠ [] →
      allocated = true ∧ job.jpegSettings ≠ none) :
    (s.jpegReprocessed frame copied allocated).Orderly ∧
      ∀ i, (s.jpegReprocessed frame copied allocated).home i = s.home i := by
  have hord : ({ s with reprocessing := s.reprocessing.tail } : PostProcessor).Orderly :=
    ⟨h.direct, h.idle, h.off, h.one⟩
  rw [PostProcessor.jpegReprocessed]
  split
  · rename_i hcopied
    rw [processPPData]
    split
    · exact ⟨hord, fun i => by simp only [home_eq]⟩
    · rename_i job rest hongoing
      have hongoing : s.ongoingPPQ = job :: rest := hongoing
      have hactive : s.isActive ≠ false := fun hoff => by
        rw [(h.idle hoff).1] at hongoing
        cases hongoing
      have htaken : ({ s with reprocessing := s.reprocessing.tail, ongoingPPQ := rest } : PostProcessor).Orderly := by
        refine ⟨fun hno => ?_, fun hoff => absurd hoff hactive, fun hoff => ?_, h.one⟩
        · rw [h.direct hno] at hongoing
          cases hongoing
        · exact absurd (h.off hoff).1 hactive
      have hqueues : s.queuesActive = true := by
        by_contra hoff
        exact hactive (h.off (by simpa using hoff)).1
      obtain ⟨hfail, hwhy⟩ | ⟨jpeg, _, hqueue, hsrc, hreproc, -⟩ := queueJpegJob_cases
        { s with reprocessing := s.reprocessing.tail, ongoingPPQ := rest } job frame allocated
      · rw [hfail]
        refine ⟨htaken, fun i => ?_⟩
        have hnone : job.snapshots = [] := by
          by_contra hsome
          obtain ⟨hallocated, hsettings⟩ := hqueued hcopied job (by rw [hongoing]; rfl) hsome
          rcases hwhy with hwhy | hwhy | hwhy
          · exact hsettings hwhy
          · exact hsome hwhy
          · rw [hallocated] at hwhy
            cases hwhy
        simp only [home_eq, hongoing, flatMap_cons, hnone, nil_append]
      · obtain ⟨hjpeg, hone⟩ := snapshots_reprocessed hframe hsrc hreproc
        have hnext := htaken.enqueueJpeg hone fun hoff => absurd hoff hactive
        rw [hqueue]
        refine ⟨⟨hnext.direct, hnext.idle, hnext.off, hnext.one⟩, fun i => ?_⟩
        simp only [home_eq, enqueue, hqueues, if_true, hongoing, flatMap_append,
          flatMap_cons, flatMap_nil, count_append, count_nil, hjpeg]
        omega
  · exact ⟨hord, fun i => by simp only [home_eq]⟩

theorem isActive_jpegReprocessed (s : PostProcessor) (frame : PpFrame) (copied allocated : Bool) :
    (s.jpegReprocessed frame copied allocated).isActive = s.isActive := by
  rw [jpegReprocessed]
  split
  · obtain ⟨_, _, heq, -⟩ :=
      processPPData_frame { s with reprocessing := s.reprocessing.tail } frame allocated
    rw [heq]
  · rfl

theorem Orderly.findJpegJob (h : s.Orderly) : s.findJpegJob.2.Orderly ∧ ∀ i, s.findJpegJob.2.home i +
      (s.findJpegJob.1.elim [] JpegJob.snapshotIdx).count i = s.home i := by
  refine ⟨⟨h.direct, h.idle, h.off, fun j hj => h.one j ?_⟩, fun i => ?_⟩
  · rcases mem_append.mp hj with hj | hj
    · exact mem_append_left _ hj
    · exact mem_append_right _ (mem_of_mem_tail hj)
  · rw [PostProcessor.findJpegJob]
    cases hongoing : s.ongoingJpegQ with
    | nil => simp [home_eq, hongoing]
    | cons job rest =>
      have hone := h.one job (mem_append_right _ (hongoing ▸ mem_cons_self))
      simp only [home_eq, hongoing, tail_cons, head?_cons, elim_some, flatMap_cons, count_append, hone]
      omega

end PostProcessor

/-- The results of the calls of a request: the output buffer is registered, the reprocess channel is
added and started, the settings are queued, the snapshot buffer is allocated and queued, or the frame
of the framework is prepared and gets its job. -/
structure SnapshotCalls where
  registered : Bool := true
  start : PpStartCalls := {}
  settings : Bool := true
  allocated : Bool := true
  bufDone : Bool := true
  prepared : Bool := true
  jobAllocated : Bool := true
  deriving DecidableEq

/-- The results of the calls for a frame: `checkStreamCbErrors`, `malloc`, and `bufDone` where that
fails. -/
structure FrameCalls where
  valid : Bool := true
  allocated : Bool := true
  bufDone : Bool := true
  deriving DecidableEq

/-- The fields of `QCamera3PicChannel` that follow its snapshot buffers. -/
structure PicChannel where
  mIsActive : Bool := false
  mPostProcStarted : Bool := false
  maxBuffers : ℕ
  mFreeBufferList : List ℕ := []
  mYuvMemory : Option StreamMem := none
  pp : PostProcessor := {}

namespace PicChannel

/-- The number of buffers that are allocated in `mYuvMemory`. -/
def allocated (s : PicChannel) : ℕ := s.mYuvMemory.elim 0 (·.heap.length)

/-- `startPostProc`. -/
def startPostProc (s : PicChannel) (reprocessType : ReprocessType) (calls : PpStartCalls) :
    PicChannel :=
  if s.mPostProcStarted then s
  else { s with pp := s.pp.start reprocessType calls, mPostProcStarted := true }

/-- `queueJpegSetting`. -/
def queueJpegSetting (s : PicChannel) (outBufIndex frameNumber : ℕ) (queued : Bool) : PicChannel :=
  if queued then { s with pp := s.pp.processJpegSettingData ⟨outBufIndex, frameNumber⟩ } else s

/-- `allocateOne` of the memory: the index, and the memory. -/
def allocateOne (m : StreamMem) (succeeds : Bool) : Option (ℕ × StreamMem) :=
  if m.mMaxHeapBuffers < m.heap.length + 1 || !succeeds then none
  else some (m.heap.length, { m with heap := m.heap ++ [-1] })

/-- The buffer of a request: a free one, or a new one. -/
def takeBuffer (s : PicChannel) (m : StreamMem) (succeeds : Bool) : Option (ℕ × List ℕ × StreamMem) :=
  match s.mFreeBufferList with
  | bufIdx :: rest => some (bufIdx, rest, m)
  | [] => (allocateOne m succeeds).map fun r => (r.1, [], r.2)

/-- What `request` starts with: the post-processor and the settings. -/
def prepare (s : PicChannel) (frameNumber outBufIndex : ℕ) (reprocessType : ReprocessType)
    (calls : SnapshotCalls) : PicChannel :=
  (s.startPostProc reprocessType calls.start).queueJpegSetting outBufIndex frameNumber calls.settings

/-- `request` without an input buffer. -/
def request (s : PicChannel) (m : StreamMem) (frameNumber outBufIndex : ℕ)
    (reprocessType : ReprocessType) (calls : SnapshotCalls) : PicChannel :=
  if !s.mIsActive || !calls.registered then s
  else
    let s := s.prepare frameNumber outBufIndex reprocessType calls
    match s.takeBuffer m calls.allocated with
    | none => s
    | some (bufIdx, free, m) =>
      { s with
        mFreeBufferList := free
        mYuvMemory := some (m.markFrameNumber bufIdx frameNumber).2
        pp := { s.pp with
          parentBufs := if calls.bufDone then s.pp.parentBufs ++ [bufIdx] else s.pp.parentBufs } }

/-- `request` with an input buffer. -/
def fwkRequest (s : PicChannel) (frame : FwkInput) (outBufIndex : ℕ) (calls : SnapshotCalls) :
    PicChannel :=
  if !s.mIsActive || !calls.registered then s
  else
    let s := s.prepare frame.frameNumber outBufIndex frame.reprocessType calls
    if calls.prepared then { s with pp := s.pp.processFwkData frame calls.jobAllocated } else s

/-- A buffer is free and, if `bufDone` succeeds, in the stream too. -/
def freeAndQueue (s : PicChannel) (frameIndex : ℕ) (bufDone : Bool) : PicChannel :=
  { s with
    mFreeBufferList := s.mFreeBufferList ++ [frameIndex]
    pp := { s.pp with
      parentBufs := if bufDone then s.pp.parentBufs ++ [frameIndex] else s.pp.parentBufs } }

/-- `streamCbRoutine`, of a frame that has left the stream. -/
def streamCbRoutine (s : PicChannel) (m : StreamMem) (bufIdx : ℕ) (calls : FrameCalls) : PicChannel :=
  let s := { s with pp := { s.pp with parentBufs := s.pp.parentBufs.erase bufIdx } }
  let frameIndex := bufIdx % 256
  if !calls.valid then s
  else if s.maxBuffers ≤ frameIndex || !calls.allocated then s.freeAndQueue frameIndex calls.bufDone
  else
    let frame : PpFrame := { bufIdx := bufIdx, frameNumber := (m.getFrameNumber frameIndex).toNat }
    { s with pp := s.pp.processData frame }

/-- `jpegEvtHandle`, of a JPEG or an error. -/
def jpegEvtHandle (s : PicChannel) : PicChannel :=
  { s with
    pp := s.pp.findJpegJob.2
    mFreeBufferList :=
      s.mFreeBufferList ++ s.pp.findJpegJob.1.elim [] JpegJob.snapshotIdx }

/-- `flush`, and whether the offline buffers are unmapped. That is the result of the post-processor,
and 0 is taken for a failure. -/
def flush (s : PicChannel) (unmapped : Bool) : PicChannel :=
  if !s.mIsActive then s
  else if unmapped then { s with pp := s.pp.flush }
  else { s with pp := s.pp.flush, mFreeBufferList := List.range s.maxBuffers }

/-- `start`. -/
def start (s : PicChannel) : PicChannel := { s with mIsActive := true }

/-- `stop`. -/
def stop (s : PicChannel) (bufDone : ℕ → Bool) : PicChannel :=
  if !s.mIsActive then s
  else { s with pp := s.pp.stop bufDone, mPostProcStarted := false, mIsActive := false }

/-- `getStreamBufs`. -/
def getStreamBufs (s : PicChannel) : PicChannel :=
  { s with mYuvMemory := some { mMaxHeapBuffers := s.maxBuffers } }

/-- `putStreamBufs`. The stream has no buffer any more. -/
def putStreamBufs (s : PicChannel) : PicChannel :=
  { s with mYuvMemory := none, mFreeBufferList := [], pp := { s.pp with parentBufs := [] } }

/-- The steps: the channel and its stream are started and stopped, requests, frames and metadata of
the stream, the parts of `DO_NEXT_JOB`, and what comes back. -/
inductive Event
  | start
  | stop (bufDone : ℕ → Bool)
  | getBufs
  | putBufs
  | flush (unmapped : Bool)
  | request (frameNumber outBufIndex : ℕ) (reprocessType : ReprocessType) (calls : SnapshotCalls)
  | fwkRequest (frame : FwkInput) (outBufIndex : ℕ) (calls : SnapshotCalls)
  | frame (bufIdx : ℕ) (calls : FrameCalls)
  | metadata (reprocMeta : PpMetadata)
  | startJpeg (encoded : Bool)
  | startFwk (calls : FwkCalls)
  | startLive (calls : LiveCalls)
  | dropNext (bufDone : Bool)
  | reprocessed (bufIdx frameNumber : ℕ) (copied allocated : Bool)
  | jpegEvent

/-- One step. Requests and frames come while the stream has its memory, and the jobs are done while
the thread is active. -/
def step (s : PicChannel) : Event → Option PicChannel
  | .start => some s.start
  | .stop bufDone => some (s.stop bufDone)
  | .getBufs => if s.mYuvMemory.isNone then some s.getStreamBufs else none
  | .putBufs => if s.mYuvMemory.isSome then some s.putStreamBufs else none
  | .flush unmapped => some (s.flush unmapped)
  | .request frameNumber outBufIndex reprocessType calls =>
    s.mYuvMemory.map fun m => s.request m frameNumber outBufIndex reprocessType calls
  | .fwkRequest frame outBufIndex calls => some (s.fwkRequest frame outBufIndex calls)
  | .frame bufIdx calls =>
    if bufIdx ∈ s.pp.parentBufs then
      s.mYuvMemory.map fun m => s.streamCbRoutine m bufIdx calls
    else none
  | .metadata reprocMeta => some { s with pp := s.pp.processPPMetadata reprocMeta }
  | .startJpeg encoded =>
    if s.pp.isActive then some { s with pp := s.pp.startJpeg encoded } else none
  | .startFwk calls => if s.pp.isActive then some { s with pp := s.pp.startFwk calls } else none
  | .startLive calls => if s.pp.isActive then some { s with pp := s.pp.startLive calls } else none
  | .dropNext bufDone =>
    if s.pp.isActive then none else some { s with pp := s.pp.dropNext bufDone }
  | .reprocessed bufIdx frameNumber copied allocated =>
    let frame : PpFrame := { bufIdx := bufIdx, ofParent := false, frameNumber := frameNumber }
    some { s with pp := s.pp.jpegReprocessed frame copied allocated }
  | .jpegEvent => some s.jpegEvtHandle

/-- **Each allocated buffer is in one place**, and no other number is in any. -/
def Conserved (s : PicChannel) : Prop :=
  ∀ i, s.mFreeBufferList.count i + s.pp.parentBufs.count i + s.pp.held.count i =
    if i < s.allocated then 1 else 0

/-- **Steps that lose and double no buffer.** -/
def Spares (s : PicChannel) : Event → Prop
  -- an encoding that is given up, and the list that is made anew
  | .flush unmapped => s.mIsActive = true →
      if unmapped then ∀ job ∈ s.pp.ongoingJpegQ, job.snapshots = []
      else s.allocated = s.maxBuffers ∧ s.pp.parentBufs = [] ∧ s.pp.flush.held = []
  | .stop bufDone => s.mIsActive = true →
      (∀ job ∈ s.pp.inputJpegQ ++ s.pp.ongoingJpegQ, job.snapshots = []) ∧
        ∀ frame ∈ s.pp.ongoingPPQ.filterMap (·.srcFrame) ++ s.pp.inputPPQ, bufDone frame.bufIdx = true
  | .putBufs => s.pp.held = []
  | .request _ _ _ calls => calls.bufDone = true
  | .frame _ calls => calls.valid = true ∧ calls.allocated = true ∧ s.pp.queuesActive = true
  | .startJpeg encoded => s.pp.ongoingJpegQ = [] → encoded = false →
      ∀ job ∈ s.pp.inputJpegQ.head?, job.snapshots = []
  | .startLive calls => s.pp.inputPPQ ≠ [] → s.pp.inputMetaQ ≠ [] →
      (s.pp.reprocChannel = true → calls.allocated = true → calls.overridden = true) ∧ calls.bufDone = true
  | .dropNext bufDone => s.pp.inputPPQ ≠ [] → bufDone = true
  | .reprocessed _ _ copied allocated => copied = true →
      ∀ job ∈ s.pp.ongoingPPQ.head?, job.snapshots ≠ [] → allocated = true ∧ job.jpegSettings ≠ none
  | _ => True

instance (s : PicChannel) : DecidablePred s.Spares := fun e => by
  delta Spares
  cases e <;> infer_instance

/-- **The invariant.** -/
structure Inv (s : PicChannel) : Prop where
  conserved : s.Conserved
  orderly : s.pp.Orderly
  unstarted : s.mPostProcStarted = false → s.pp.isActive = false
  memory : ∀ m ∈ s.mYuvMemory, m.mMaxHeapBuffers = s.maxBuffers ∧ m.heap.length ≤ s.maxBuffers

variable {s s' : PicChannel}

theorem inv_init (maxBuffers : ℕ) : Inv { maxBuffers := maxBuffers } where
  conserved _ := rfl
  orderly := ⟨fun _ => rfl, fun _ => ⟨rfl, fun _ hjob => absurd hjob not_mem_nil⟩,
    fun _ => ⟨rfl, rfl, rfl, rfl⟩, fun _ hjob => absurd hjob not_mem_nil⟩
  unstarted _ := rfl
  memory _ hm := nomatch hm

theorem conserved_iff : s.Conserved ↔
    ∀ i, s.mFreeBufferList.count i + s.pp.home i = if i < s.allocated then 1 else 0 := by
  simp only [Conserved, home, Nat.add_assoc]

theorem Inv.moved (h : s.Inv) {pp : PostProcessor} {free : List ℕ} (hord : pp.Orderly)
    (hhome : ∀ i, free.count i + pp.home i = s.mFreeBufferList.count i + s.pp.home i)
    {active started : Bool} (hstarted : started = false → pp.isActive = false) :
    Inv { s with
      pp := pp, mFreeBufferList := free, mIsActive := active, mPostProcStarted := started } := by
  refine ⟨conserved_iff.mpr fun i => ?_, hord, hstarted, h.memory⟩
  exact (hhome i).trans (conserved_iff.mp h.conserved i)

/-- A step of the post-processor alone. -/
theorem Inv.pp (h : s.Inv) {pp : PostProcessor} (hpp : pp.Orderly ∧ ∀ i, pp.home i = s.pp.home i)
    (hactive : s.pp.isActive = false → pp.isActive = false) : Inv { s with pp := pp } :=
  h.moved hpp.1 (fun i => by rw [hpp.2]) fun hoff => hactive (h.unstarted hoff)

theorem Inv.prepare (h : s.Inv) (frameNumber outBufIndex : ℕ) (reprocessType : ReprocessType)
    (calls : SnapshotCalls) : Inv (s.prepare frameNumber outBufIndex reprocessType calls) := by
  have hstart : Inv (s.startPostProc reprocessType calls.start) := by
    rw [startPostProc]
    split
    · exact h
    · rename_i hoff
      have hidle := h.unstarted (by simpa using hoff)
      have hpp := h.orderly.start (h.orderly.idle hidle).1 reprocessType calls.start
      exact h.moved hpp.1 (fun i => by rw [hpp.2]) nofun
  rw [PicChannel.prepare, queueJpegSetting]
  split
  · exact hstart.pp ⟨hstart.orderly.processJpegSettingData _, fun _ => rfl⟩ id
  · exact hstart

theorem markFrameNumber_length (m : StreamMem) (i : ℕ) (frameNumber : ℤ) :
    (m.markFrameNumber i frameNumber).2.mMaxHeapBuffers = m.mMaxHeapBuffers ∧
      (m.markFrameNumber i frameNumber).2.heap.length = m.heap.length := by
  rw [StreamMem.markFrameNumber]
  split
  · split
    · exact ⟨rfl, length_set⟩
    · exact ⟨rfl, rfl⟩
  · split
    · cases m.gralloc i with
      | none => exact ⟨rfl, rfl⟩
      | some _ => exact ⟨rfl, rfl⟩
    · exact ⟨rfl, rfl⟩

theorem Inv.takeBuffer (h : s.Inv) {m m' : StreamMem} (hm : s.mYuvMemory = some m) {succeeds : Bool}
    {bufIdx : ℕ} {free : List ℕ} (htake : s.takeBuffer m succeeds = some (bufIdx, free, m')) :
    m'.mMaxHeapBuffers = s.maxBuffers ∧ m'.heap.length ≤ s.maxBuffers ∧
      ∀ i, free.count i + s.pp.home i + [bufIdx].count i =
        if i < m'.heap.length then 1 else 0 := by
  obtain ⟨hmax, hlen⟩ := h.memory m (by rw [hm]; rfl)
  have hconserved := conserved_iff.mp h.conserved
  have hallocated : s.allocated = m.heap.length := by
    rw [allocated, hm]
    rfl
  rw [hallocated] at hconserved
  rw [PicChannel.takeBuffer] at htake
  split at htake
  · rename_i first rest hfree
    obtain ⟨rfl, rfl, rfl⟩ : _ ∧ _ ∧ _ := by simpa using htake
    refine ⟨hmax, hlen, fun i => ?_⟩
    have hcons : (first :: rest).count i = [first].count i + rest.count i := by
      rw [← count_append]
      rfl
    rw [← hconserved i, hfree, hcons]
    omega
  · rename_i hfree
    obtain ⟨⟨i₀, m₀⟩, halloc, hres⟩ := map_eq_some_iff.mp htake
    obtain ⟨rfl, rfl, rfl⟩ : _ ∧ _ ∧ _ := by simpa using hres
    rw [allocateOne] at halloc
    split at halloc
    · cases halloc
    · rename_i hroom
      obtain ⟨rfl, rfl⟩ : _ ∧ _ := by simpa using halloc
      simp only [Bool.or_eq_true, decide_eq_true_eq, not_or, not_lt] at hroom
      refine ⟨hmax, ?_, fun i => ?_⟩
      · rw [length_append, length_singleton]
        omega
      · have hi := hconserved i
        rw [hfree] at hi
        simp only [length_append, length_singleton, count_singleton, beq_iff_eq]
        split at hi <;> split_ifs <;> omega

theorem Inv.request (h : s.Inv) {m : StreamMem} (hm : s.mYuvMemory = some m)
    (frameNumber outBufIndex : ℕ) (reprocessType : ReprocessType) {calls : SnapshotCalls}
    (hdone : calls.bufDone = true) :
    Inv (s.request m frameNumber outBufIndex reprocessType calls) := by
  rw [PicChannel.request]
  split
  · exact h
  · have hprepared := h.prepare frameNumber outBufIndex reprocessType calls
    have hmemory : (s.prepare frameNumber outBufIndex reprocessType calls).mYuvMemory = some m := by
      rw [← hm, PicChannel.prepare, queueJpegSetting, startPostProc]
      split_ifs <;> rfl
    generalize s.prepare frameNumber outBufIndex reprocessType calls = u at hprepared hmemory
    dsimp only
    split
    · exact hprepared
    · rename_i bufIdx free m' htake
      obtain ⟨hmax, hlen, hcount⟩ := hprepared.takeBuffer hmemory htake
      obtain ⟨hmax', hlen'⟩ := markFrameNumber_length m' bufIdx frameNumber
      have hord := hprepared.orderly
      refine ⟨conserved_iff.mpr fun i => ?_, ⟨hord.direct, hord.idle, hord.off, hord.one⟩,
        hprepared.unstarted, fun m₀ hm₀ => ?_⟩
      · rw [allocated, elim_some, hlen', ← hcount i, home, home, count_append]
        simp only [held]
        omega
      · obtain rfl : _ = m₀ := some.inj hm₀
        exact ⟨hmax'.trans hmax, hlen' ▸ hlen⟩

theorem Inv.fwkRequest (h : s.Inv) (frame : FwkInput) (outBufIndex : ℕ) (calls : SnapshotCalls) :
    Inv (s.fwkRequest frame outBufIndex calls) := by
  rw [PicChannel.fwkRequest]
  split
  · exact h
  · have hprepared := h.prepare frame.frameNumber outBufIndex frame.reprocessType calls
    dsimp only
    split
    · refine hprepared.pp (hprepared.orderly.processFwkData frame calls.jobAllocated) fun hoff => ?_
      exact (isActive_processFwkData _ _ _).trans hoff
    · exact hprepared

/-- **A frame of the stream** goes to the post-processor. -/
theorem Inv.frame (h : s.Inv) {m : StreamMem} (hm : s.mYuvMemory = some m)
    {bufIdx : ℕ} (hmem : bufIdx ∈ s.pp.parentBufs) {calls : FrameCalls}
    (hcalls : calls.valid = true ∧ calls.allocated = true ∧ s.pp.queuesActive = true) :
    Inv (s.streamCbRoutine m bufIdx calls) := by
  obtain ⟨hvalid, hallocated, hqueues⟩ := hcalls
  have hlt : bufIdx < s.maxBuffers := by
    have hcount := h.conserved bufIdx
    have hpos := count_pos_iff.mpr hmem
    have hlen := (h.memory m (by rw [hm]; rfl)).2
    rw [allocated, hm, elim_some] at hcount
    split at hcount
    · omega
    · omega
  have hfits : ¬ (decide (s.maxBuffers ≤ bufIdx % 256) || !calls.allocated) = true := by
    have hmod := Nat.mod_le bufIdx 256
    simp only [hallocated, Bool.not_true, Bool.or_false, decide_eq_true_eq]
    omega
  have hleft : ({ s.pp with parentBufs := s.pp.parentBufs.erase bufIdx } : PostProcessor).Orderly :=
    ⟨h.orderly.direct, h.orderly.idle, h.orderly.off, h.orderly.one⟩
  obtain ⟨hord, hhome⟩ := hleft.processData hqueues
    { bufIdx := bufIdx, frameNumber := (m.getFrameNumber (bufIdx % 256)).toNat }
  rw [PicChannel.streamCbRoutine, hvalid]
  simp only [Bool.not_true, if_neg Bool.false_ne_true, if_neg hfits]
  refine h.pp ⟨hord, fun i => (hhome i).trans ?_⟩ id
  have hperm := (perm_cons_erase hmem).count_eq i
  rw [count_cons] at hperm
  rw [home, home, hperm, PpFrame.snapshot, if_pos rfl, count_singleton]
  simp only [held]
  omega

/-- The channel is stopped. -/
theorem Inv.stop (h : s.Inv) {bufDone : ℕ → Bool} (hspares : s.Spares (.stop bufDone)) : Inv (s.stop bufDone) := by
  rw [PicChannel.stop]
  split
  · exact h
  · rename_i hactive
    obtain ⟨hjpegs, hdone⟩ := hspares (by simpa using hactive)
    obtain ⟨hord, hhome, -, hoff⟩ := h.orderly.stop hjpegs hdone
    exact h.moved hord (fun i => by rw [hhome]) fun _ => hoff

/-- The channel is flushed. -/
theorem Inv.flush (h : s.Inv) {unmapped : Bool} (hspares : s.Spares (.flush unmapped)) : Inv (s.flush unmapped) := by
  obtain ⟨hord, hhome⟩ := h.orderly.flush
  rw [PicChannel.flush]
  split
  · exact h
  · rename_i hactive
    have hspares := hspares (by simpa using hactive)
    split
    · rename_i hunmapped
      rw [if_pos hunmapped] at hspares
      refine h.pp ⟨hord, fun i => ?_⟩ id
      have hi := hhome i
      rwa [flatMap_eq_nil_iff.mpr hspares, count_nil, Nat.add_zero] at hi
    · rename_i hunmapped
      rw [if_neg hunmapped] at hspares
      obtain ⟨hall, hbufs, hheld⟩ := hspares
      refine ⟨fun i => ?_, hord, h.unstarted, h.memory⟩
      have hsame : allocated { s with
          pp := s.pp.flush, mFreeBufferList := range s.maxBuffers } = s.maxBuffers := hall
      have hparent : s.pp.flush.parentBufs = [] := hbufs
      rw [hsame, hheld, hparent, nodup_range.count]
      simp only [mem_range, count_nil, Nat.add_zero]

/-- **One step.** -/
theorem Inv.step (h : s.Inv) {e : Event} (hspares : s.Spares e) (hstep : s.step e = some s') : Inv s' := by
  cases e with
  | start =>
    cases hstep
    exact h.moved h.orderly (fun _ => rfl) h.unstarted
  | stop bufDone =>
    cases hstep
    exact h.stop hspares
  | getBufs =>
    rw [PicChannel.step, ite_none_right_eq_some] at hstep
    obtain ⟨hnone, hstep⟩ := hstep
    cases hstep
    refine ⟨fun i => ?_, h.orderly, h.unstarted, fun m hm => ?_⟩
    · have hi := h.conserved i
      rw [allocated, isNone_iff_eq_none.mp hnone] at hi
      exact hi
    · obtain rfl : _ = m := some.inj hm
      exact ⟨rfl, Nat.zero_le _⟩
  | putBufs =>
    rw [PicChannel.step, ite_none_right_eq_some] at hstep
    obtain rfl := some.inj hstep.2
    have hheld : s.pp.held = [] := hspares
    refine ⟨fun i => ?_, ⟨h.orderly.direct, h.orderly.idle, h.orderly.off, h.orderly.one⟩, h.unstarted, nofun⟩
    change 0 + 0 + s.pp.held.count i = 0
    rw [hheld]
    rfl
  | flush unmapped =>
    cases hstep
    exact h.flush hspares
  | request frameNumber outBufIndex reprocessType calls =>
    obtain ⟨m, hm, rfl⟩ := map_eq_some_iff.mp hstep
    exact h.request hm frameNumber outBufIndex reprocessType hspares
  | fwkRequest frame outBufIndex calls =>
    cases hstep
    exact h.fwkRequest frame outBufIndex calls
  | frame bufIdx calls =>
    rw [PicChannel.step, ite_none_right_eq_some] at hstep
    obtain ⟨hmem, hstep⟩ := hstep
    obtain ⟨m, hm, rfl⟩ := map_eq_some_iff.mp hstep
    exact h.frame hm hmem hspares
  | metadata reprocMeta =>
    cases hstep
    exact h.pp ⟨h.orderly.processPPMetadata reprocMeta, fun _ => rfl⟩ id
  | startJpeg encoded =>
    rw [PicChannel.step, ite_none_right_eq_some] at hstep
    obtain ⟨hactive, hstep⟩ := hstep
    cases hstep
    exact h.pp (h.orderly.startJpeg hspares) fun hoff => absurd hactive (by simp [hoff])
  | startFwk calls =>
    rw [PicChannel.step, ite_none_right_eq_some] at hstep
    obtain ⟨hactive, hstep⟩ := hstep
    cases hstep
    exact h.pp (h.orderly.startFwk hactive calls) fun hoff => absurd hactive (by simp [hoff])
  | startLive calls =>
    rw [PicChannel.step, ite_none_right_eq_some] at hstep
    obtain ⟨hactive, hstep⟩ := hstep
    cases hstep
    exact h.pp (h.orderly.startLive hactive hspares) fun hoff => absurd hactive (by simp [hoff])
  | dropNext bufDone =>
    rw [PicChannel.step, ite_none_left_eq_some] at hstep
    obtain ⟨hactive, hstep⟩ := hstep
    cases hstep
    have hoff : s.pp.isActive = false := by simpa using hactive
    exact h.pp (h.orderly.dropNext hoff hspares) (isActive_dropNext _ _).trans
  | reprocessed bufIdx frameNumber copied allocated =>
    cases hstep
    exact h.pp (h.orderly.jpegReprocessed rfl hspares) (isActive_jpegReprocessed _ _ _ _).trans
  | jpegEvent =>
    cases hstep
    obtain ⟨hord, hhome⟩ := h.orderly.findJpegJob
    refine h.moved hord (fun i => ?_) h.unstarted
    rw [count_append, ← hhome i]
    omega

/-- **The snapshot buffers are conserved** in runs that lose and double none: each buffer that is
allocated is free, in the stream or held by one job, and the free ones are listed once. -/
theorem snapshots_conserved {maxBuffers : ℕ} {es : List Event} {t : PicChannel}
    (h : Run (guarded Spares (fires step)) { maxBuffers := maxBuffers } es t) :
    t.Conserved ∧ t.mFreeBufferList.Nodup ∧ ∀ i ∈ t.mFreeBufferList, i < t.allocated := by
  have ht : t.Inv := h.invariant (fun _ _ _ hs hstep => hs.step hstep.1 hstep.2) (inv_init maxBuffers)
  have hle : ∀ i, t.mFreeBufferList.count i ≤ if i < t.allocated then 1 else 0 := fun i => by
    rw [← ht.conserved i]
    omega
  refine ⟨ht.conserved, nodup_iff_count_le_one.mpr fun i => ?_, fun i hi => ?_⟩
  · refine (hle i).trans ?_
    split <;> omega
  · by_contra hno
    have hcount := hle i
    have hpos := count_pos_iff.mpr hi
    rw [if_neg hno] at hcount
    omega

/-- A picture that is reprocessed, up to its JPEG: its buffer is free for the next request. -/
theorem snapshots_conserved_picture : ∃ t : PicChannel, t.mFreeBufferList = [0] ∧ t.allocated = 1 ∧ t.Conserved := by
  have ⟨t, hrun, hfree, hallocated⟩ : ∃ t, Run (guarded Spares (fires step)) { maxBuffers := 2 }
      [.start, .getBufs, .request 1 4 .jpeg {}, .frame 0 {}, .metadata ⟨1⟩, .startLive {},
        .reprocessed 3 1 true true, .startJpeg true, .jpegEvent] t ∧
      t.mFreeBufferList = [0] ∧ t.allocated = 1 := exists_run (by decide +kernel)
  exact ⟨t, hfree, hallocated, (snapshots_conserved hrun).1⟩

/-- The flush of an ongoing encoding, which succeeds, leaves its buffer nowhere. -/
theorem snapshots_lost : ¬ ∀ (maxBuffers : ℕ) (es : List Event) (t : PicChannel),
    Run (fires step) { maxBuffers := maxBuffers } es t →
      t.Conserved ∧ t.mFreeBufferList.Nodup ∧ ∀ i ∈ t.mFreeBufferList, i < t.allocated := by
  intro hall
  have hex : (exec (fun _ _ => true) step { maxBuffers := 2 }
      [.start, .getBufs, .request 1 4 .none {}, .frame 0 {}, .metadata ⟨1⟩, .startLive {},
        .startJpeg true, .flush true]).map (fun t => decide (t.allocated = 1 ∧
          t.mFreeBufferList = [] ∧ t.pp.parentBufs = [] ∧ t.pp.held = [])) = some true := by
    decide +kernel
  obtain ⟨t, ht, hfact⟩ := map_eq_some_iff.mp hex
  obtain ⟨hallocated, hfree, hparent, hheld⟩ := of_decide_eq_true hfact
  have hzero := (hall 2 _ t (run_of_exec ht).of_guarded).1 0
  rw [hallocated, hfree, hparent, hheld] at hzero
  exact absurd hzero (by decide)

end PicChannel

end Marlin
