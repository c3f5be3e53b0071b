import Marlin.PostProcessor
import Marlin.Transition
import Mathlib.Data.List.Count
import Mathlib.Data.List.Nodup

/-!
# Who Owns the Source Buffers of the Post-Processor

`dataProcessRoutine` takes a source frame and its metadata out of their queues and makes a job of them,
which is enqueued to `m_ongoingPPQ` before the calls that may fail. Where `doReprocessOffline` fails the
job is taken off the end of the queue again; where `overrideMetadata` fails it is not, but it is freed and
its buffers are returned all the same. Without a reprocess channel `processPPData` is called at once, which
takes the head of the queue.

What a job owns is returned when its JPEG comes back, and when the post-processor is stopped. A JPEG job
that is released otherwise returns its metadata only.

## Conventions

* The parts of a command are those of the model of the post-processor, and the callbacks of the other
  threads fall between them.
* `taken` are the super-buffers that were dequeued, `returned` those that were returned, `freed` the
  jobs that were freed. Frames, metadata and inputs of the framework are different objects each time.
* For an output that is no JPEG, the parent gives the source frame back by its number when the
  reprocessed frame comes.

## Main results

* `Owned.step`: what one event preserves.
* `jobs_owned_run`: no freed job is in `m_ongoingPPQ`, and each super-buffer that was dequeued is owned by
  one job or was returned once, as long as no step loses or doubles one.
-/

namespace Marlin

open Option List Transition

/-- A super-buffer that a job is made of. -/
inductive SourceBuf
  | frame (f : PpFrame)
  | metadata (m : PpMetadata)
  deriving DecidableEq

/-- The super-buffers of a frame and of metadata, where they are there. -/
def sourceBufs (frames : List PpFrame) (metas : List PpMetadata) : List SourceBuf :=
  frames.map .frame ++ metas.map .metadata

/-- What a post-processing job owns. -/
def PpJob.sources (job : PpJob) : List SourceBuf :=
  sourceBufs job.srcFrame.toList job.srcMetadata.toList

/-- What `releaseOngoingPPData` returns of a job. -/
def PpJob.released (job : PpJob) : List SourceBuf :=
  if job.srcFrame.isSome then job.sources else []

/-- The source frames of a JPEG job. A reprocessed frame is none. -/
def JpegJob.frames (job : JpegJob) : List PpFrame :=
  (job.srcFrame.toList ++ job.srcReprocFrame.toList).filter PpFrame.ofParent

/-- What a JPEG job owns. -/
def JpegJob.sources (job : JpegJob) : List SourceBuf :=
  sourceBufs job.frames job.srcMetadata.toList

/-- What `releaseJpegJobData` returns of a job. -/
def JpegJob.released (job : JpegJob) : List SourceBuf :=
  if job.fwkSrcBuffer.isSome then [] else sourceBufs [] job.srcMetadata.toList

/-- The source frame that `jpegEvtHandle` finds in a job. -/
def JpegJob.foundFrames (job : JpegJob) : List PpFrame :=
  (job.srcReprocFrame.or job.srcFrame).toList.filter PpFrame.ofParent

/-- The post-processor, with what became of the super-buffers and of the jobs. -/
structure JobAccount where
  pp : PostProcessor := {}
  taken : List SourceBuf := []
  returned : List SourceBuf := []
  freed : List PpJob := []
  fwkTaken : List FwkInput := []

/-- What comes in, the parts of the commands, and what comes back. -/
inductive JobEvent
  | frame (f : PpFrame)
  | metadata (m : PpMetadata)
  | settings (jpegSettings : JpegSettings)
  | fwk (f : FwkInput) (allocated : Bool)
  | start (reprocessType : ReprocessType) (calls : PpStartCalls)
  | stop (bufDone : ℕ → Bool)
  | encode (encoded : Bool)
  | startFwk (calls : FwkCalls)
  | startLive (calls : LiveCalls)
  | dropNext (bufDone : Bool)
  | jpegReprocessed (f : PpFrame) (copied allocated : Bool)
  | outputReprocessed
  | jpegDone
  | flush

namespace JobAccount

variable {s t : JobAccount}

/-- What the jobs own. -/
def owned (s : JobAccount) : List SourceBuf :=
  s.pp.ongoingPPQ.flatMap PpJob.sources ++ s.pp.inputJpegQ.flatMap JpegJob.sources ++
    s.pp.ongoingJpegQ.flatMap JpegJob.sources

/-- What waits in the input queues. -/
def waiting (s : JobAccount) : List SourceBuf := sourceBufs s.pp.inputPPQ s.pp.inputMetaQ

/-- The first part of `DO_NEXT_JOB`. A job whose encoding is not started is released. -/
def encode (s : JobAccount) (encoded : Bool) : JobAccount :=
  { s with
    pp := s.pp.startJpeg encoded
    returned := s.returned ++
      if encoded || !s.pp.ongoingJpegQ.isEmpty then []
      else s.pp.inputJpegQ.head?.elim [] JpegJob.released }

/-- The second part. A job that is not started is freed. -/
def startFwk (s : JobAccount) (calls : FwkCalls) : JobAccount :=
  match s.pp.inputFWKPPQ with
  | [] => s
  | frame :: _ =>
    { s with
      pp := s.pp.startFwk calls
      fwkTaken := s.fwkTaken ++ [frame]
      freed := s.freed ++
        if calls.allocated && !(s.pp.reprocChannel && calls.reprocessed) then
          [{ fwkSrcFrame := some frame, jpegSettings := s.pp.jpegSettingsQ.head? }]
        else [] }

/-- The post-processor when the live job has been enqueued. -/
def withLiveJob (pp : PostProcessor) (job : PpJob) : PostProcessor :=
  { pp with ongoingPPQ := PostProcessor.enqueue pp.queuesActive pp.ongoingPPQ job }

/-- Whether the third part succeeds with its job: `ret` at its end. -/
def liveStarts (pp : PostProcessor) (job : PpJob) (frame : PpFrame) (calls : LiveCalls) : Bool :=
  calls.allocated &&
    if pp.reprocChannel then calls.overridden && calls.reprocessed
    else ((withLiveJob pp job).processPPData frame calls.jpegAllocated).1

/-- The jobs that the third part frees: its own where it fails, and in `processPPData` that of the
queue. -/
def liveFreed (pp : PostProcessor) (job : PpJob) (frame : PpFrame) (calls : LiveCalls) : List PpJob :=
  if !calls.allocated then []
  else if !liveStarts pp job frame calls then [job]
  else if pp.reprocChannel then []
  else (withLiveJob pp job).ongoingPPQ.head?.toList

/-- The job for a source frame and its metadata, with the settings at the head of their queue. -/
def liveJob (pp : PostProcessor) (frame : PpFrame) (reprocMeta : PpMetadata) : PpJob where
  srcFrame := some frame
  srcMetadata := some reprocMeta
  jpegSettings := pp.jpegSettingsQ.head?

/-- The third part. -/
def startLive (s : JobAccount) (calls : LiveCalls) : JobAccount :=
  match s.pp.inputPPQ, s.pp.inputMetaQ with
  | frame :: _, reprocMeta :: _ =>
    let job := liveJob s.pp frame reprocMeta
    { s with
      pp := s.pp.startLive calls
      taken := s.taken ++ sourceBufs [frame] [reprocMeta]
      returned := s.returned ++
        if liveStarts s.pp job frame calls then [] else sourceBufs [frame] [reprocMeta]
      freed := s.freed ++ liveFreed s.pp job frame calls }
  | _, _ => s

/-- `DO_NEXT_JOB` while the thread is not active: the buffers at the heads are returned. -/
def dropNext (s : JobAccount) (bufDone : Bool) : JobAccount :=
  let bufs := sourceBufs s.pp.inputPPQ.head?.toList s.pp.inputMetaQ.head?.toList
  { s with
    pp := s.pp.dropNext bufDone
    taken := s.taken ++ bufs
    returned := s.returned ++ bufs
    fwkTaken := s.fwkTaken ++ s.pp.inputFWKPPQ.head?.toList }

/-- `CAMERA_CMD_TYPE_STOP_DATA_PROC`: the jobs are released, and what waits is returned. -/
def stop (s : JobAccount) (bufDone : ℕ → Bool) : JobAccount :=
  { s with
    pp := s.pp.stop bufDone
    taken := s.taken ++ s.waiting
    returned := s.returned ++ s.pp.ongoingJpegQ.flatMap JpegJob.released ++
      s.pp.ongoingPPQ.flatMap PpJob.released ++ s.pp.inputJpegQ.flatMap JpegJob.released ++
      s.waiting
    freed := s.freed ++ s.pp.ongoingPPQ
    fwkTaken := s.fwkTaken ++ s.pp.inputFWKPPQ }

/-- The end of a reprocessing, for a JPEG. The job is freed if it gets its JPEG job. -/
def jpegReprocessed (s : JobAccount) (frame : PpFrame) (copied allocated : Bool) : JobAccount :=
  { s with
    pp := s.pp.jpegReprocessed frame copied allocated
    freed := s.freed ++
      if copied && (s.pp.processPPData frame allocated).1 then s.pp.ongoingPPQ.head?.toList
      else [] }

/-- The end of a reprocessing, for another output. -/
def outputReprocessed (s : JobAccount) : JobAccount :=
  { s with
    pp := s.pp.outputReprocessed
    returned := s.returned ++ s.pp.ongoingPPQ.head?.elim [] PpJob.released
    freed := s.freed ++ s.pp.ongoingPPQ.head?.toList }

/-- `jpegEvtHandle`: the source frame is free again, and the job is released. -/
def jpegDone (s : JobAccount) : JobAccount :=
  { s with
    pp := s.pp.findJpegJob.2
    returned := s.returned ++ s.pp.findJpegJob.1.elim [] fun job => sourceBufs job.foundFrames [] ++ job.released }

/-- `flush`: the ongoing encodings are released. -/
def flush (s : JobAccount) : JobAccount :=
  { s with
    pp := s.pp.flush
    returned := s.returned ++ s.pp.ongoingJpegQ.flatMap JpegJob.released }

/-- The events that can happen. The frames that come in are the parent's and, like the metadata and the
inputs of the framework, have not come before; reprocessed frames are not the parent's. -/
def step (s : JobAccount) : JobEvent → Option JobAccount
  | .frame f =>
    if f.ofParent = true ∧ .frame f ∉ s.taken ++ s.waiting then
      some { s with pp := s.pp.processData f }
    else none
  | .metadata m =>
    if .metadata m ∉ s.taken ++ s.waiting then some { s with pp := s.pp.processPPMetadata m }
    else none
  | .settings jpegSettings => some { s with pp := s.pp.processJpegSettingData jpegSettings }
  | .fwk f allocated =>
    if f ∉ s.fwkTaken ++ s.pp.inputFWKPPQ then
      some { s with pp := s.pp.processFwkData f allocated }
    else none
  | .start reprocessType calls => some { s with pp := s.pp.start reprocessType calls }
  | .stop bufDone => some (s.stop bufDone)
  | .encode encoded => if s.pp.isActive then some (s.encode encoded) else none
  | .startFwk calls => if s.pp.isActive then some (s.startFwk calls) else none
  | .startLive calls => if s.pp.isActive then some (s.startLive calls) else none
  | .dropNext bufDone => if s.pp.isActive then none else some (s.dropNext bufDone)
  | .jpegReprocessed f copied allocated =>
    if f.ofParent then none else some (s.jpegReprocessed f copied allocated)
  | .outputReprocessed => some s.outputReprocessed
  | .jpegDone => some s.jpegDone
  | .flush => some s.flush

/-- Before the first buffer comes in. -/
structure Initial (s : JobAccount) : Prop where
  isActive : s.pp.isActive = false
  inputPPQ : s.pp.inputPPQ = []
  inputMetaQ : s.pp.inputMetaQ = []
  inputFWKPPQ : s.pp.inputFWKPPQ = []
  ongoingPPQ : s.pp.ongoingPPQ = []
  inputJpegQ : s.pp.inputJpegQ = []
  ongoingJpegQ : s.pp.ongoingJpegQ = []
  taken : s.taken = []
  returned : s.returned = []
  freed : s.freed = []
  fwkTaken : s.fwkTaken = []

/-- No buffer is lost or doubled. `overrideMetadata` succeeds, and without a reprocess channel no job is
ongoing; a JPEG job that is released before its JPEG comes has no source frame, and one that is dropped
has no source buffers; a reprocessed frame of a source frame gets its JPEG job. -/
def KeepsOwner (s : JobAccount) : JobEvent → Prop
  | .startLive calls => s.pp.inputPPQ ≠ [] → s.pp.inputMetaQ ≠ [] → calls.allocated = true →
      if s.pp.reprocChannel then calls.overridden = true else s.pp.ongoingPPQ = []
  | .encode encoded => encoded = false → s.pp.ongoingJpegQ = [] →
      ∀ job ∈ s.pp.inputJpegQ.head?, job.frames = []
  | .dropNext _ => ∀ job ∈ s.pp.inputJpegQ.head?, job.sources = []
  | .stop _ => ∀ job ∈ s.pp.inputJpegQ ++ s.pp.ongoingJpegQ, job.frames = []
  | .flush => ∀ job ∈ s.pp.ongoingJpegQ, job.frames = []
  | .jpegReprocessed _ copied allocated => copied = true →
      ∀ job ∈ s.pp.ongoingPPQ.head?, job.sources ≠ [] → allocated = true ∧ job.jpegSettings ≠ none
  | _ => True

instance (s : JobAccount) (e : JobEvent) : Decidable (s.KeepsOwner e) := by
  delta KeepsOwner
  cases e <;> infer_instance

end JobAccount

/-! ### Jobs -/

/-- A job is made of a source frame and its metadata, or of an input of the framework. -/
def PpJob.Made (job : PpJob) : Prop :=
  (∃ frame reprocMeta, frame.ofParent = true ∧ job.srcFrame = some frame ∧
    job.srcMetadata = some reprocMeta ∧ job.fwkSrcFrame = none) ∨
  (job.srcFrame = none ∧ job.srcMetadata = none ∧ job.fwkSrcFrame ≠ none)

/-- A JPEG job is found by the source frame that it has, and returns its metadata. -/
structure JpegJob.Whole (job : JpegJob) : Prop where
  found : job.foundFrames = job.frames
  released : job.released = sourceBufs [] job.srcMetadata.toList

/-- The JPEG job of a reprocessing job. -/
def PpJob.jpegJob (job : PpJob) (frame : PpFrame) (settings : JpegSettings) : JpegJob where
  srcFrame := some frame
  srcReprocFrame := if some frame = job.srcFrame then none else job.srcFrame
  fwkSrcBuffer := job.fwkSrcFrame
  srcMetadata := job.srcMetadata
  jpegSettings := settings

/-- A job that has been made returns what it owns. -/
theorem PpJob.Made.released {job : PpJob} (h : job.Made) : job.released = job.sources := by
  rw [PpJob.released, PpJob.sources]
  obtain ⟨frame, reprocMeta, -, hframe, hmeta, -⟩ | ⟨hframe, hmeta, -⟩ := h
  · rw [hframe, hmeta]
    rfl
  · rw [hframe, hmeta]
    rfl

theorem JpegJob.Whole.released_eq {job : JpegJob} (h : job.Whole) (hframes : job.frames = []) :
    job.released = job.sources := by
  rw [h.released, JpegJob.sources, hframes]

theorem JpegJob.Whole.done_eq {job : JpegJob} (h : job.Whole) :
    sourceBufs job.foundFrames [] ++ job.released = job.sources := by
  rw [h.released, h.found, JpegJob.sources, sourceBufs, sourceBufs, sourceBufs, map_nil,
    append_nil, map_nil, nil_append]

theorem PpJob.Made.jpegJob {job : PpJob} (h : job.Made) {frame : PpFrame}
    (hframe : frame.ofParent = false ∨ job.srcFrame = some frame) (settings : JpegSettings) :
    (job.jpegJob frame settings).sources = job.sources ∧ (job.jpegJob frame settings).Whole := by
  have hreleased : (job.jpegJob frame settings).released =
      sourceBufs [] (job.jpegJob frame settings).srcMetadata.toList := by
    rw [JpegJob.released]
    obtain ⟨-, -, -, -, -, hfwk⟩ | ⟨-, hmeta, -⟩ := h
    · rw [show (job.jpegJob frame settings).fwkSrcBuffer = none from hfwk]
      rfl
    · rw [show (job.jpegJob frame settings).srcMetadata = none from hmeta]
      split <;> rfl
  have hframes : (job.jpegJob frame settings).frames = job.srcFrame.toList ∧
      (job.jpegJob frame settings).foundFrames = job.srcFrame.toList := by
    rw [JpegJob.frames, JpegJob.foundFrames, PpJob.jpegJob]
    dsimp only
    obtain ⟨f, -, hparent, hsrc, -⟩ | ⟨hsrc, -, -⟩ := h
    · rw [hsrc] at hframe ⊢
      rcases hframe with hother | hsame
      · have hne : some frame ≠ some f := fun heq => by
          rw [some.inj heq, hparent] at hother
          cases hother
        rw [if_neg hne]
        simp [hother, hparent]
      · rw [if_pos hsame.symm, ← some.inj hsame]
        simp [hparent]
    · rw [hsrc] at hframe ⊢
      have hother : frame.ofParent = false := hframe.resolve_right nofun
      rw [if_neg nofun]
      simp [hother]
  refine ⟨?_, hframes.2.trans hframes.1.symm, hreleased⟩
  rw [JpegJob.sources, hframes.1, PpJob.sources]
  rfl

/-- Where the jobs come from. -/
structure DistinctJobs (jobs : List PpJob) (taken : List SourceBuf) (fwkTaken : List FwkInput) : Prop where
  nodup : jobs.Nodup
  origin : ∀ job ∈ jobs, (∃ f, job.srcFrame = some f ∧ .frame f ∈ taken) ∨
    ∃ f, job.srcFrame = none ∧ job.fwkSrcFrame = some f ∧ f ∈ fwkTaken

namespace DistinctJobs

variable {jobs jobs' : List PpJob} {taken taken' : List SourceBuf} {fwkTaken fwkTaken' : List FwkInput}

theorem subperm (h : DistinctJobs jobs taken fwkTaken) (hjobs : jobs'.Subperm jobs)
    (htaken : taken ⊆ taken') (hfwk : fwkTaken ⊆ fwkTaken') :
    DistinctJobs jobs' taken' fwkTaken' where
  nodup := by
    obtain ⟨l, hperm, hsub⟩ := hjobs
    exact hperm.nodup_iff.mp (hsub.nodup h.nodup)
  origin := by
    intro job hjob
    obtain ⟨f, hf, hmem⟩ | ⟨f, hsrc, hf, hmem⟩ := h.origin job (hjobs.subset hjob)
    · exact .inl ⟨f, hf, htaken hmem⟩
    · exact .inr ⟨f, hsrc, hf, hfwk hmem⟩

variable {job : PpJob}

theorem live (h : DistinctJobs jobs taken fwkTaken) {f : PpFrame}
    (hsrc : job.srcFrame = some f) (hnew : .frame f ∉ taken) (htaken : taken ⊆ taken')
    (hmem : .frame f ∈ taken') : DistinctJobs (job :: jobs) taken' fwkTaken where
  nodup := by
    refine nodup_cons.mpr ⟨fun hjob => ?_, h.nodup⟩
    obtain ⟨g, hg, hold⟩ | ⟨g, hnone, -⟩ := h.origin job hjob
    · rw [hsrc] at hg
      exact hnew (some.inj hg ▸ hold)
    · rw [hsrc] at hnone
      cases hnone
  origin := forall_mem_cons.mpr ⟨.inl ⟨f, hsrc, hmem⟩, (h.subperm (List.Subperm.refl _) htaken fun _ hg => hg).origin⟩

theorem fwk (h : DistinctJobs jobs taken fwkTaken) {f : FwkInput}
    (hnone : job.srcFrame = none) (hsrc : job.fwkSrcFrame = some f) (hnew : f ∉ fwkTaken) :
    DistinctJobs (job :: jobs) taken (fwkTaken ++ [f]) where
  nodup := by
    refine nodup_cons.mpr ⟨fun hjob => ?_, h.nodup⟩
    obtain ⟨g, hg, -⟩ | ⟨g, -, hg, hold⟩ := h.origin job hjob
    · rw [hnone] at hg
      cases hg
    · rw [hsrc] at hg
      exact hnew (some.inj hg ▸ hold)
  origin := forall_mem_cons.mpr ⟨.inr ⟨f, hnone, hsrc, mem_append_right _ (mem_singleton_self f)⟩,
      (h.subperm (List.Subperm.refl _) (fun _ hg => hg) (subset_append_left _ _)).origin⟩

theorem settle {ongoing freed queued dropped : List PpJob} (h : DistinctJobs (job :: (ongoing ++ freed)) taken fwkTaken)
    (hjob : (queued ++ dropped).Sublist [job]) :
    DistinctJobs (ongoing ++ queued ++ (freed ++ dropped)) taken fwkTaken := by
  have hperm : (ongoing ++ queued ++ (freed ++ dropped)).Perm (queued ++ dropped ++ (ongoing ++ freed)) := by
    refine perm_iff_count.mpr fun j => ?_
    simp only [count_append]
    omega
  exact h.subperm (hperm.subperm.trans (hjob.append_right _).subperm) (fun _ hx => hx) fun _ hx => hx

end DistinctJobs

namespace PostProcessor

theorem queueJpegJob_eq (pp : PostProcessor) {job : PpJob} (hjob : job.Made) (frame : PpFrame) (allocated : Bool) :
    (pp.queueJpegJob job frame allocated = (false, pp) ∧ (job.jpegSettings = none ∨ allocated = false)) ∨
      ∃ settings created, pp.queueJpegJob job frame allocated = (true, { pp with
        inputJpegQ := enqueue pp.queuesActive pp.inputJpegQ (job.jpegJob frame settings)
        created := created }) := by
  rw [queueJpegJob]
  cases job.jpegSettings with
  | none => exact .inl ⟨rfl, .inl rfl⟩
  | some settings =>
    have hsource : ¬ (job.srcFrame.isNone = true ∧ job.fwkSrcFrame.isNone = true) := by
      rintro ⟨hframe, hfwk⟩
      obtain ⟨f, -, -, hsrc, -⟩ | ⟨-, -, hsome⟩ := hjob
      · rw [hsrc] at hframe
        cases hframe
      · exact hsome (isNone_iff_eq_none.mp hfwk)
    cases allocated with
    | false => exact .inl ⟨if_pos (.inr rfl), .inr rfl⟩
    | true => exact .inr ⟨settings, _, if_neg (by simpa using hsource)⟩

theorem releaseAll_frame (bufDone : ℕ → Bool) (frames : List PpFrame) (pp : PostProcessor) :
    ∃ parentBufs, pp.releaseAll bufDone frames = { pp with parentBufs := parentBufs } := by
  induction frames generalizing pp with
  | nil => exact ⟨pp.parentBufs, rfl⟩
  | cons frame frames ih =>
    obtain ⟨parentBufs, heq⟩ := ih (pp.releaseSuperBuf frame (bufDone frame.bufIdx))
    refine ⟨parentBufs, heq.trans ?_⟩
    rw [releaseSuperBuf_frame]

end PostProcessor

namespace JobAccount

open PostProcessor

variable {s t : JobAccount}

theorem queueJpegJob_fst (pp pp' : PostProcessor) (job : PpJob) (frame : PpFrame) (allocated : Bool) :
    (pp.queueJpegJob job frame allocated).1 = (pp'.queueJpegJob job frame allocated).1 := by
  rw [queueJpegJob, queueJpegJob]
  cases job.jpegSettings with
  | none => rfl
  | some settings =>
    dsimp only
    split <;> rfl

variable {pp : PostProcessor}

theorem startFwk_eq (hqueues : pp.queuesActive = true) {frame : FwkInput}
    {rest : List FwkInput} (hinput : pp.inputFWKPPQ = frame :: rest) (calls : FwkCalls) :
    ∃ reprocessing created, pp.startFwk calls = { pp with
      inputFWKPPQ := rest
      jpegSettingsQ := pp.jpegSettingsQ.tail
      ongoingPPQ := pp.ongoingPPQ ++
        if calls.allocated && (pp.reprocChannel && calls.reprocessed) then
          [PpJob.mk none (some frame) none pp.jpegSettingsQ.head?]
        else []
      reprocessing := reprocessing
      created := created } := by
  refine ⟨(pp.startFwk calls).reprocessing, (pp.startFwk calls).created, ?_⟩
  obtain ⟨allocated, reprocessed⟩ := calls
  rw [PostProcessor.startFwk, hinput]
  dsimp only
  rw [startFwkJob]
  cases allocated <;> cases hchannel : pp.reprocChannel <;> cases reprocessed <;>
    simp [enqueue, hqueues]

theorem startLive_eq {frame : PpFrame} {frames : List PpFrame}
    {reprocMeta : PpMetadata} {metas : List PpMetadata} (hinput : pp.inputPPQ = frame :: frames)
    (hmeta : pp.inputMetaQ = reprocMeta :: metas) (calls : LiveCalls) :
    pp.startLive calls = ({ pp with
      inputPPQ := frames
      inputMetaQ := metas
      jpegSettingsQ := pp.jpegSettingsQ.tail } : PostProcessor).startLiveJob
        (liveJob pp frame reprocMeta) frame calls := by
  rw [PostProcessor.startLive, hinput, hmeta]
  rfl

theorem startLiveJob_channel (pp : PostProcessor) (hqueues : pp.queuesActive = true)
    (hchannel : pp.reprocChannel = true) (job : PpJob) (frame : PpFrame)
    (reprocessed jpegAllocated bufDone : Bool) :
    ∃ parentBufs created reprocessing,
      pp.startLiveJob job frame ⟨true, true, reprocessed, jpegAllocated, bufDone⟩ = { pp with
        ongoingPPQ := pp.ongoingPPQ ++ if reprocessed then [job] else []
        parentBufs := parentBufs
        created := created
        reprocessing := reprocessing } := by
  rw [startLiveJob]
  cases reprocessed with
  | false =>
    simp only [hchannel, Bool.not_true, Bool.false_eq_true, if_false, if_true, releaseSuperBuf_frame, append_nil]
    exact ⟨_, _, _, rfl⟩
  | true =>
    simp only [hchannel, Bool.not_true, Bool.false_eq_true, if_false, if_true, enqueue, hqueues]
    exact ⟨_, _, _, rfl⟩

variable {job : PpJob}

theorem startLiveJob_direct (pp : PostProcessor) (hqueues : pp.queuesActive = true)
    (hchannel : pp.reprocChannel = false) (hongoing : pp.ongoingPPQ = [])
    (hmade : job.Made) (frame : PpFrame) (overridden reprocessed jpegAllocated bufDone : Bool) :
    ∃ parentBufs created jpegs,
      pp.startLiveJob job frame ⟨true, overridden, reprocessed, jpegAllocated, bufDone⟩ = { pp with
        inputJpegQ := pp.inputJpegQ ++ jpegs
        parentBufs := parentBufs
        created := created } ∧
      ((pp.queueJpegJob job frame jpegAllocated).1 = false ∧ jpegs = [] ∨
        (pp.queueJpegJob job frame jpegAllocated).1 = true ∧ ∃ settings, jpegs = [job.jpegJob frame settings]) := by
  have hdirect : pp.startLiveJob job frame ⟨true, overridden, reprocessed, jpegAllocated, bufDone⟩ =
      let r := ({ pp with created := pp.created ++ [job.parts frame.frameNumber] } :
        PostProcessor).queueJpegJob job frame jpegAllocated
      if r.1 then r.2 else r.2.releaseSuperBuf frame bufDone := by
    rw [startLiveJob]
    simp only [hchannel, Bool.not_true, Bool.false_eq_true, if_false, enqueue, hqueues, if_true, hongoing,
      nil_append, processPPData]
  rw [hdirect]
  rcases queueJpegJob_eq { pp with created := pp.created ++ [job.parts frame.frameNumber] } hmade frame
    jpegAllocated with ⟨hfail, -⟩ | ⟨settings, created, hqueue⟩
  · have hfalse : (pp.queueJpegJob job frame jpegAllocated).1 = false := by
      rw [queueJpegJob_fst pp _ job frame jpegAllocated, hfail]
    rw [hfail]
    refine ⟨pp.parentBufs ++ if frame.ofParent && bufDone then [frame.bufIdx] else [],
      pp.created ++ [job.parts frame.frameNumber], [], ?_, .inl ⟨hfalse, rfl⟩⟩
    rw [append_nil]
    exact releaseSuperBuf_frame _ frame bufDone
  · have htrue : (pp.queueJpegJob job frame jpegAllocated).1 = true := by
      rw [queueJpegJob_fst pp _ job frame jpegAllocated, hqueue]
    rw [hqueue]
    refine ⟨pp.parentBufs, created, [job.jpegJob frame settings], ?_, .inr ⟨htrue, settings, rfl⟩⟩
    simp only [if_true, enqueue, hqueues]

theorem live_channel (hchannel : pp.reprocChannel = true) (job : PpJob)
    (frame : PpFrame) (reprocessed jpegAllocated bufDone : Bool) :
    liveStarts pp job frame ⟨true, true, reprocessed, jpegAllocated, bufDone⟩ = reprocessed ∧
      liveFreed pp job frame ⟨true, true, reprocessed, jpegAllocated, bufDone⟩ =
        if reprocessed then [] else [job] := by
  have hstarts : liveStarts pp job frame ⟨true, true, reprocessed, jpegAllocated, bufDone⟩ =
      reprocessed := by
    rw [liveStarts, hchannel]
    rfl
  refine ⟨hstarts, ?_⟩
  rw [liveFreed, hstarts, hchannel]
  cases reprocessed <;> rfl

theorem live_direct (hqueues : pp.queuesActive = true)
    (hchannel : pp.reprocChannel = false) (hongoing : pp.ongoingPPQ = []) (job : PpJob)
    (frame : PpFrame) (overridden reprocessed jpegAllocated bufDone : Bool) :
    liveStarts pp job frame ⟨true, overridden, reprocessed, jpegAllocated, bufDone⟩ =
        (pp.queueJpegJob job frame jpegAllocated).1 ∧
      liveFreed pp job frame ⟨true, overridden, reprocessed, jpegAllocated, bufDone⟩ = [job] := by
  refine ⟨?_, ?_⟩
  · rw [liveStarts, hchannel, withLiveJob, enqueue, if_pos hqueues, hongoing]
    exact queueJpegJob_fst _ _ job frame jpegAllocated
  · rw [liveFreed, withLiveJob, enqueue, if_pos hqueues, hongoing, hchannel]
    cases liveStarts pp job frame ⟨true, overridden, reprocessed, jpegAllocated, bufDone⟩ <;> rfl

/-- **The third part**, for the frame and the metadata at the heads. It fails, and its job is in no queue;
or the job is enqueued; or, without a reprocess channel, its JPEG job. -/
theorem startLive_cases (hqueues : pp.queuesActive = true) {frame : PpFrame}
    {frames : List PpFrame} {reprocMeta : PpMetadata} {metas : List PpMetadata}
    (hframe : frame.ofParent = true) (hinput : pp.inputPPQ = frame :: frames)
    (hmeta : pp.inputMetaQ = reprocMeta :: metas) {calls : LiveCalls}
    (hkeeps : calls.allocated = true →
      if pp.reprocChannel then calls.overridden = true else pp.ongoingPPQ = []) :
    ∃ parentBufs created reprocessing jobs jpegs, pp.startLive calls = { pp with
        inputPPQ := frames
        inputMetaQ := metas
        jpegSettingsQ := pp.jpegSettingsQ.tail
        ongoingPPQ := pp.ongoingPPQ ++ jobs
        inputJpegQ := pp.inputJpegQ ++ jpegs
        parentBufs := parentBufs
        created := created
        reprocessing := reprocessing } ∧
      ((liveStarts pp (liveJob pp frame reprocMeta) frame calls = false ∧ jobs = [] ∧ jpegs = [] ∧
          (liveFreed pp (liveJob pp frame reprocMeta) frame calls).Sublist [liveJob pp frame reprocMeta]) ∨
        (liveStarts pp (liveJob pp frame reprocMeta) frame calls = true ∧
          jobs = [liveJob pp frame reprocMeta] ∧ jpegs = [] ∧
          liveFreed pp (liveJob pp frame reprocMeta) frame calls = []) ∨
        (liveStarts pp (liveJob pp frame reprocMeta) frame calls = true ∧ jobs = [] ∧
          (∃ settings, jpegs = [(liveJob pp frame reprocMeta).jpegJob frame settings]) ∧
          liveFreed pp (liveJob pp frame reprocMeta) frame calls = [liveJob pp frame reprocMeta])) := by
  have hmade : (liveJob pp frame reprocMeta).Made :=
    .inl ⟨frame, reprocMeta, hframe, rfl, rfl, rfl⟩
  rw [startLive_eq hinput hmeta]
  generalize liveJob pp frame reprocMeta = job at hmade ⊢
  obtain ⟨allocated, overridden, reprocessed, jpegAllocated, bufDone⟩ := calls
  -- one case for each exit of the third part
  cases allocated with
  | false =>
    refine ⟨pp.parentBufs ++ if frame.ofParent && bufDone then [frame.bufIdx] else [], pp.created,
      pp.reprocessing, [], [], ?_, .inl ⟨rfl, rfl, rfl, nil_sublist _⟩⟩
    rw [append_nil, append_nil]
    exact releaseSuperBuf_frame _ frame bufDone
  | true =>
    have hkeeps := hkeeps rfl
    rcases Bool.eq_false_or_eq_true pp.reprocChannel with hchannel | hchannel
    · rw [hchannel, if_pos rfl] at hkeeps
      obtain rfl : overridden = true := hkeeps
      obtain ⟨hstarts, hfreed⟩ :=
        live_channel hchannel job frame reprocessed jpegAllocated bufDone
      obtain ⟨parentBufs, created, reprocessing, heq⟩ := startLiveJob_channel { pp with
        inputPPQ := frames
        inputMetaQ := metas
        jpegSettingsQ := pp.jpegSettingsQ.tail } hqueues hchannel job frame reprocessed jpegAllocated bufDone
      rw [heq, hstarts, hfreed]
      refine ⟨parentBufs, created, reprocessing, if reprocessed then [job] else [], [], by rw [append_nil], ?_⟩
      cases reprocessed with
      | false => exact .inl ⟨rfl, rfl, rfl, List.Sublist.refl _⟩
      | true => exact .inr (.inl ⟨rfl, rfl, rfl, rfl⟩)
    · rw [hchannel, if_neg Bool.false_ne_true] at hkeeps
      obtain ⟨hstarts, hfreed⟩ :=
        live_direct hqueues hchannel hkeeps job frame overridden reprocessed jpegAllocated bufDone
      obtain ⟨parentBufs, created, jpegs, heq, hcases⟩ := startLiveJob_direct { pp with
        inputPPQ := frames
        inputMetaQ := metas
        jpegSettingsQ := pp.jpegSettingsQ.tail } hqueues hchannel hkeeps hmade frame overridden reprocessed
          jpegAllocated bufDone
      rw [queueJpegJob_fst _ pp job frame jpegAllocated] at hcases
      rw [heq, hstarts, hfreed]
      refine ⟨parentBufs, created, pp.reprocessing, [], jpegs, by rw [append_nil], ?_⟩
      rcases hcases with ⟨hfalse, rfl⟩ | ⟨htrue, hjpegs⟩
      · exact .inl ⟨hfalse, rfl, rfl, List.Sublist.refl _⟩
      · exact .inr (.inr ⟨htrue, rfl, hjpegs, rfl⟩)

/-! ### The invariant -/

/-- What holds of the queues and of what was taken. -/
structure Owned (s : JobAccount) : Prop where
  off : s.pp.queuesActive = false → s.pp.isActive = false ∧ s.pp.inputPPQ = [] ∧
    s.pp.inputMetaQ = [] ∧ s.pp.inputFWKPPQ = [] ∧ s.pp.ongoingPPQ = [] ∧ s.pp.inputJpegQ = []
  parents : ∀ f ∈ s.pp.inputPPQ, f.ofParent = true
  jobs : ∀ job ∈ s.pp.ongoingPPQ, job.Made
  jpegs : ∀ job ∈ s.pp.inputJpegQ ++ s.pp.ongoingJpegQ, job.Whole
  account : ∀ x, s.owned.count x + s.returned.count x = s.taken.count x
  fresh : (s.taken ++ s.waiting).Nodup
  fwkFresh : (s.fwkTaken ++ s.pp.inputFWKPPQ).Nodup
  distinct : DistinctJobs (s.pp.ongoingPPQ ++ s.freed) s.taken s.fwkTaken

theorem count_owned (s : JobAccount) (x : SourceBuf) :
    s.owned.count x = (s.pp.ongoingPPQ.flatMap PpJob.sources).count x +
      (s.pp.inputJpegQ.flatMap JpegJob.sources).count x +
      (s.pp.ongoingJpegQ.flatMap JpegJob.sources).count x := by
  rw [owned, count_append, count_append]

theorem perm_sourceBufs (frames frames' : List PpFrame) (metas metas' : List PpMetadata) :
    (sourceBufs frames metas ++ sourceBufs frames' metas').Perm (sourceBufs (frames ++ frames') (metas ++ metas')) := by
  refine perm_iff_count.mpr fun x => ?_
  simp only [sourceBufs, map_append, count_append]
  omega

/-- Queues are switched on with the thread. -/
theorem Owned.queues (h : s.Owned) (hactive : s.pp.isActive = true) : s.pp.queuesActive = true := by
  by_contra hoff
  rw [(h.off (by simpa using hoff)).1] at hactive
  cases hactive

theorem Owned.queues_of_job (h : s.Owned) (hjob : job ∈ s.pp.ongoingPPQ) : s.pp.queuesActive = true := by
  by_contra hoff
  rw [(h.off (by simpa using hoff)).2.2.2.2.1] at hjob
  cases hjob

theorem owned_initial (h : s.Initial) : s.Owned where
  off := fun _ =>
    ⟨h.isActive, h.inputPPQ, h.inputMetaQ, h.inputFWKPPQ, h.ongoingPPQ, h.inputJpegQ⟩
  parents := by simp [h.inputPPQ]
  jobs := by simp [h.ongoingPPQ]
  jpegs := by simp [h.inputJpegQ, h.ongoingJpegQ]
  account := by simp [owned, h.ongoingPPQ, h.inputJpegQ, h.ongoingJpegQ, h.returned, h.taken]
  fresh := by simp [waiting, sourceBufs, h.taken, h.inputPPQ, h.inputMetaQ]
  fwkFresh := by simp [h.fwkTaken, h.inputFWKPPQ]
  distinct := by
    rw [h.ongoingPPQ, h.freed]
    exact ⟨nodup_nil, fun job hjob => absurd hjob not_mem_nil⟩

/-! ### What comes in -/

/-- A frame of the parent. -/
theorem Owned.frame (h : s.Owned) {f : PpFrame} (hparent : f.ofParent = true)
    (hnew : .frame f ∉ s.taken ++ s.waiting) : { s with pp := s.pp.processData f }.Owned := by
  rw [processData, enqueue]
  split
  · rename_i hactive
    refine ⟨fun hoff => ?_, fun g hg => ?_, h.jobs, h.jpegs, h.account, ?_, h.fwkFresh, h.distinct⟩
    · rw [hactive] at hoff
      cases hoff
    · rcases mem_append.mp hg with hg | hg
      · exact h.parents g hg
      · exact mem_singleton.mp hg ▸ hparent
    · have hperm : (s.taken ++ sourceBufs (s.pp.inputPPQ ++ [f]) s.pp.inputMetaQ).Perm
          (.frame f :: (s.taken ++ s.waiting)) := by
        refine perm_iff_count.mpr fun x => ?_
        simp only [waiting, sourceBufs, map_append, map_cons, map_nil, count_append, count_cons, count_nil]
        omega
      exact hperm.nodup_iff.mpr (nodup_cons.mpr ⟨hnew, h.fresh⟩)
  · exact ⟨h.off, h.parents, h.jobs, h.jpegs, h.account, h.fresh, h.fwkFresh, h.distinct⟩

/-- Metadata. -/
theorem Owned.metadata (h : s.Owned) {m : PpMetadata} (hnew : .metadata m ∉ s.taken ++ s.waiting) :
    { s with pp := s.pp.processPPMetadata m }.Owned := by
  rw [processPPMetadata, enqueue]
  split
  · rename_i hactive
    refine ⟨fun hoff => ?_, h.parents, h.jobs, h.jpegs, h.account, ?_, h.fwkFresh, h.distinct⟩
    · rw [hactive] at hoff
      cases hoff
    · have hperm : (s.taken ++ sourceBufs s.pp.inputPPQ (s.pp.inputMetaQ ++ [m])).Perm
          (.metadata m :: (s.taken ++ s.waiting)) := by
        refine perm_iff_count.mpr fun x => ?_
        simp only [waiting, sourceBufs, map_append, map_cons, map_nil, count_append, count_cons, count_nil]
        omega
      exact hperm.nodup_iff.mpr (nodup_cons.mpr ⟨hnew, h.fresh⟩)
  · exact ⟨h.off, h.parents, h.jobs, h.jpegs, h.account, h.fresh, h.fwkFresh, h.distinct⟩

theorem Owned.fwk (h : s.Owned) {f : FwkInput} (hnew : f ∉ s.fwkTaken ++ s.pp.inputFWKPPQ)
    (allocated : Bool) : { s with pp := s.pp.processFwkData f allocated }.Owned := by
  rw [processFwkData]
  split
  · rw [enqueue]
    split
    · rename_i hactive
      refine ⟨fun hoff => ?_, h.parents, h.jobs, h.jpegs, h.account, h.fresh, ?_, h.distinct⟩
      · rw [hactive] at hoff
        cases hoff
      · change (s.fwkTaken ++ (s.pp.inputFWKPPQ ++ [f])).Nodup
        rw [← append_assoc]
        exact nodup_append.mpr ⟨h.fwkFresh, nodup_singleton f, fun g hg g' hg' => by
          rw [mem_singleton.mp hg']
          exact fun heq => hnew (heq ▸ hg)⟩
    · exact ⟨h.off, h.parents, h.jobs, h.jpegs, h.account, h.fresh, h.fwkFresh, h.distinct⟩
  · split
    · exact h
    · rename_i settings _ _
      split
      · rw [enqueue]
        split
        · rename_i hactive
          refine ⟨fun hoff => ?_, h.parents, h.jobs, fun job hjob => ?_, fun x => ?_, h.fresh, h.fwkFresh, h.distinct⟩
          · rw [hactive] at hoff
            cases hoff
          · have hjob : job ∈ s.pp.inputJpegQ ++ [{ fwkFrame := some f, jpegSettings := settings }] ++
                s.pp.ongoingJpegQ := hjob
            rw [append_assoc, mem_append, singleton_append, mem_cons] at hjob
            rcases hjob with hjob | rfl | hjob
            · exact h.jpegs job (mem_append_left _ hjob)
            · exact ⟨rfl, rfl⟩
            · exact h.jpegs job (mem_append_right _ hjob)
          · have hsources : JpegJob.sources { fwkFrame := some f, jpegSettings := settings } = [] := rfl
            have hcount := h.account x
            rw [count_owned] at hcount ⊢
            simp only [flatMap_append, flatMap_singleton, hsources, append_nil]
            exact hcount
        · exact ⟨h.off, h.parents, h.jobs, h.jpegs, h.account, h.fresh, h.fwkFresh, h.distinct⟩
      · exact ⟨h.off, h.parents, h.jobs, h.jpegs, h.account, h.fresh, h.fwkFresh, h.distinct⟩

/-! ### The data thread -/

theorem Owned.head_whole (h : s.Owned) {job : JpegJob} {rest : List JpegJob}
    (hinput : s.pp.inputJpegQ = job :: rest) : job.Whole :=
  h.jpegs job (mem_append_left _ (hinput ▸ mem_cons_self))

theorem Owned.encode (h : s.Owned) {encoded : Bool} (hkeeps : s.KeepsOwner (.encode encoded)) :
    (s.encode encoded).Owned := by
  rw [JobAccount.encode, startJpeg]
  split
  · rename_i job rest hongoing hinput
    have hwhole := h.head_whole hinput
    have hoff (hoff : s.pp.queuesActive = false) : rest = [] := by
      rw [(h.off hoff).2.2.2.2.2] at hinput
      cases hinput
    have hjpegs (j : JpegJob) (hj : j ∈ rest ++ if encoded = true then [job] else []) : j.Whole := by
      rcases mem_append.mp hj with hj | hj
      · exact h.jpegs j (mem_append_left _ (hinput ▸ mem_cons_of_mem _ hj))
      · split at hj
        · exact mem_singleton.mp hj ▸ hwhole
        · cases hj
    refine ⟨fun hq => ?_, h.parents, h.jobs, hjpegs, fun x => ?_, h.fresh, h.fwkFresh, h.distinct⟩
    · obtain ⟨h₁, h₂, h₃, h₄, h₅, -⟩ := h.off hq
      exact ⟨h₁, h₂, h₃, h₄, h₅, hoff hq⟩
    · have hcount := h.account x
      rw [count_owned, hongoing, hinput] at hcount
      rw [count_owned]
      simp only [hongoing, hinput, isEmpty_nil, Bool.not_true, Bool.or_false, head?_cons,
        elim_some, flatMap_cons, flatMap_nil, count_append, count_nil]
        at hcount ⊢
      cases encoded with
      | true =>
        simp only [if_true, flatMap_singleton, count_nil]
        omega
      | false =>
        have hframes := hkeeps rfl hongoing job (by rw [hinput]; rfl)
        simp only [Bool.false_eq_true, if_false, flatMap_nil, count_nil, hwhole.released_eq hframes]
        omega
  · rename_i hnone
    have hreturned : (if (encoded || !s.pp.ongoingJpegQ.isEmpty) = true then []
        else s.pp.inputJpegQ.head?.elim [] JpegJob.released) = [] := by
      cases hongoing : s.pp.ongoingJpegQ with
      | cons job rest => simp
      | nil =>
        cases hinput : s.pp.inputJpegQ with
        | nil => simp
        | cons job rest => exact absurd hinput (hnone job rest hongoing)
    rw [hreturned, append_nil]
    exact h

theorem Owned.startFwk (h : s.Owned) (hactive : s.pp.isActive = true) (calls : FwkCalls) :
    (s.startFwk calls).Owned := by
  have hqueues := h.queues hactive
  have hoff {p : Prop} (hoff : s.pp.queuesActive = false) : p := by
    rw [hqueues] at hoff
    cases hoff
  rw [JobAccount.startFwk]
  split
  · exact h
  · rename_i frame rest hinput
    have hfresh : (s.fwkTaken ++ [frame] ++ rest).Nodup := by
      have hfresh := h.fwkFresh
      rwa [hinput, ← singleton_append, ← append_assoc] at hfresh
    have hnew : frame ∉ s.fwkTaken := by
      have hnodup := (nodup_append.mp hfresh).1
      exact fun hmem => (nodup_append.mp hnodup).2.2 frame hmem frame (mem_singleton_self frame) rfl
    generalize hjob : PpJob.mk none (some frame) none s.pp.jpegSettingsQ.head? = job
    have hmade : job.Made := by
      rw [← hjob]
      exact .inr ⟨rfl, rfl, nofun⟩
    have hsources : job.sources = [] := by
      rw [← hjob]
      rfl
    have hadded : DistinctJobs (job :: (s.pp.ongoingPPQ ++ s.freed)) s.taken (s.fwkTaken ++ [frame]) :=
      h.distinct.fwk (by rw [← hjob]) (by rw [← hjob]) hnew
    obtain ⟨reprocessing, created, heq⟩ := startFwk_eq hqueues hinput calls
    rw [heq, hjob]
    refine ⟨hoff, h.parents, fun j hj => ?_, h.jpegs, fun x => ?_, h.fresh, hfresh, ?_⟩
    · rcases mem_append.mp hj with hj | hj
      · exact h.jobs j hj
      · split at hj
        · exact mem_singleton.mp hj ▸ hmade
        · cases hj
    · have hcount := h.account x
      rw [count_owned] at hcount ⊢
      have hnone : (if (calls.allocated && (s.pp.reprocChannel && calls.reprocessed)) = true then [job]
          else []).flatMap PpJob.sources = [] := by
        split <;> simp [hsources]
      simp only [flatMap_append, hnone, append_nil]
      exact hcount
    · refine hadded.settle ?_
      -- the job is in the queue, or freed, or was not allocated
      cases calls.allocated <;> cases s.pp.reprocChannel && calls.reprocessed <;> simp

/-- **A job for a source frame and its metadata** is enqueued, or they are returned. -/
theorem Owned.startLive (h : s.Owned) (hactive : s.pp.isActive = true) {calls : LiveCalls}
    (hkeeps : s.KeepsOwner (.startLive calls)) : (s.startLive calls).Owned := by
  have hqueues := h.queues hactive
  have hoff {p : Prop} (hoff : s.pp.queuesActive = false) : p := by
    rw [hqueues] at hoff
    cases hoff
  rw [JobAccount.startLive]
  split
  · rename_i frame frames reprocMeta metas hinput hmeta
    have hparent := h.parents frame (hinput ▸ mem_cons_self)
    obtain ⟨parentBufs, created, reprocessing, jobs, jpegs, heq, hcases⟩ :=
      startLive_cases hqueues hparent hinput hmeta (hkeeps (by simp [hinput]) (by simp [hmeta]))
    have hmade : (liveJob s.pp frame reprocMeta).Made :=
      .inl ⟨frame, reprocMeta, hparent, rfl, rfl, rfl⟩
    have hsources : (liveJob s.pp frame reprocMeta).sources = sourceBufs [frame] [reprocMeta] := rfl
    have hsrc : (liveJob s.pp frame reprocMeta).srcFrame = some frame := rfl
    -- what was taken and what waits is what was there
    have hfresh : (s.taken ++ sourceBufs [frame] [reprocMeta] ++ sourceBufs frames metas).Nodup := by
      have hperm := (perm_sourceBufs [frame] frames [reprocMeta] metas).append_left s.taken
      rw [append_assoc]
      refine hperm.nodup_iff.mpr ?_
      have hfresh := h.fresh
      rwa [waiting, hinput, hmeta] at hfresh
    have hnew : SourceBuf.frame frame ∉ s.taken := by
      have hnodup := (nodup_append.mp hfresh).1
      exact fun hmem => (nodup_append.mp hnodup).2.2 _ hmem _ mem_cons_self rfl
    have hadded := h.distinct.live hsrc hnew (subset_append_left s.taken (sourceBufs [frame] [reprocMeta]))
      (mem_append_right _ mem_cons_self)
    dsimp only
    rw [heq]
    generalize liveJob s.pp frame reprocMeta = job at hcases hmade hsources hsrc hadded ⊢
    have hjob (settings : JpegSettings) := hmade.jpegJob (.inr hsrc) settings
    have hjobs : ∀ j ∈ jobs, j.Made := by
      rcases hcases with ⟨-, rfl, -⟩ | ⟨-, rfl, -⟩ | ⟨-, rfl, -⟩
      · exact fun j hj => absurd hj not_mem_nil
      · exact forall_mem_singleton.mpr hmade
      · exact fun j hj => absurd hj not_mem_nil
    have hjpegs : ∀ j ∈ jpegs, j.Whole := by
      rcases hcases with ⟨-, -, rfl, -⟩ | ⟨-, -, rfl, -⟩ | ⟨-, -, ⟨settings, rfl⟩, -⟩
      · exact fun j hj => absurd hj not_mem_nil
      · exact fun j hj => absurd hj not_mem_nil
      · exact forall_mem_singleton.mpr (hjob settings).2
    have hmoved (x : SourceBuf) : (jobs.flatMap PpJob.sources).count x + (jpegs.flatMap JpegJob.sources).count x +
        (if liveStarts s.pp job frame calls = true then []
          else sourceBufs [frame] [reprocMeta]).count x =
          (sourceBufs [frame] [reprocMeta]).count x := by
      rcases hcases with ⟨hstarts, rfl, rfl, -⟩ | ⟨hstarts, rfl, rfl, -⟩ | ⟨hstarts, rfl, ⟨settings, rfl⟩, -⟩
      · simp [hstarts]
      · simp [hstarts, hsources]
      · simp [hstarts, (hjob settings).1, hsources]
    have hsettled : (jobs ++ liveFreed s.pp job frame calls).Sublist [job] := by
      rcases hcases with ⟨-, rfl, -, hl⟩ | ⟨-, rfl, -, hl⟩ | ⟨-, rfl, -, hl⟩
      · exact hl
      · rw [hl]
        exact List.Sublist.refl _
      · rw [hl]
        exact List.Sublist.refl _
    refine ⟨hoff, fun f hf => h.parents f (hinput ▸ mem_cons_of_mem _ hf), fun j hj => ?_,
      fun j hj => ?_, fun x => ?_, hfresh, h.fwkFresh, hadded.settle hsettled⟩
    · exact (mem_append.mp hj).elim (h.jobs j) (hjobs j)
    · have hj : j ∈ s.pp.inputJpegQ ++ jpegs ++ s.pp.ongoingJpegQ := hj
      rw [append_assoc, mem_append, mem_append] at hj
      rcases hj with hj | hj | hj
      · exact h.jpegs j (mem_append_left _ hj)
      · exact hjpegs j hj
      · exact h.jpegs j (mem_append_right _ hj)
    · have hcount := h.account x
      have hx := hmoved x
      rw [count_owned] at hcount ⊢
      simp only [flatMap_append, count_append]
      omega
  · exact h

theorem Owned.dropNext (h : s.Owned) {bufDone : Bool} (hkeeps : s.KeepsOwner (.dropNext bufDone)) :
    (s.dropNext bufDone).Owned := by
  have hdrop : ∃ parentBufs, s.pp.dropNext bufDone = { s.pp with
      inputJpegQ := s.pp.inputJpegQ.tail
      inputMetaQ := s.pp.inputMetaQ.tail
      inputFWKPPQ := s.pp.inputFWKPPQ.tail
      inputPPQ := s.pp.inputPPQ.tail
      parentBufs := parentBufs } := by
    rw [PostProcessor.dropNext]
    dsimp only
    split
    · rename_i hinput
      refine ⟨s.pp.parentBufs, ?_⟩
      rw [hinput]
      rfl
    · rename_i frame frames hinput
      rw [releaseSuperBuf_frame, hinput]
      exact ⟨_, rfl⟩
  obtain ⟨parentBufs, heq⟩ := hdrop
  have hhead {α : Type} (l : List α) : l.head?.toList ++ l.tail = l := by cases l <;> rfl
  rw [JobAccount.dropNext, heq]
  refine ⟨fun hq => ?_, fun f hf => h.parents f (mem_of_mem_tail hf), h.jobs, fun j hj => ?_, fun x => ?_, ?_, ?_, ?_⟩
  · obtain ⟨h₁, h₂, h₃, h₄, h₅, h₆⟩ := h.off hq
    simp only [h₁, h₂, h₃, h₄, h₅, h₆, tail_nil, and_self]
  · refine h.jpegs j ?_
    exact (mem_append.mp hj).elim (fun hj => mem_append_left _ (mem_of_mem_tail hj)) (mem_append_right _)
  · have hcount := h.account x
    rw [count_owned] at hcount ⊢
    have htail : s.pp.inputJpegQ.tail.flatMap JpegJob.sources = s.pp.inputJpegQ.flatMap JpegJob.sources := by
      cases hinput : s.pp.inputJpegQ with
      | nil => rfl
      | cons job rest =>
        rw [flatMap_cons, hkeeps job (by rw [hinput]; rfl)]
        rfl
    simp only [htail, count_append]
    omega
  · change (s.taken ++ _ ++ sourceBufs s.pp.inputPPQ.tail s.pp.inputMetaQ.tail).Nodup
    have hperm := perm_sourceBufs s.pp.inputPPQ.head?.toList s.pp.inputPPQ.tail
      s.pp.inputMetaQ.head?.toList s.pp.inputMetaQ.tail
    rw [hhead, hhead] at hperm
    rw [append_assoc]
    exact (hperm.append_left s.taken).nodup_iff.mpr h.fresh
  · change (s.fwkTaken ++ s.pp.inputFWKPPQ.head?.toList ++ s.pp.inputFWKPPQ.tail).Nodup
    rw [append_assoc, hhead]
    exact h.fwkFresh
  · exact h.distinct.subperm (List.Subperm.refl _) (subset_append_left _ _) (subset_append_left _ _)

/-! ### Start, stop and flush -/

theorem Owned.start (h : s.Owned) (reprocessType : ReprocessType) (calls : PpStartCalls) :
    { s with pp := s.pp.start reprocessType calls }.Owned := by
  rw [PostProcessor.start]
  split
  · exact ⟨nofun, h.parents, h.jobs, h.jpegs, h.account, h.fresh, h.fwkFresh, h.distinct⟩
  · dsimp only
    split
    · exact ⟨h.off, h.parents, h.jobs, h.jpegs, h.account, h.fresh, h.fwkFresh, h.distinct⟩
    · exact ⟨nofun, h.parents, h.jobs, h.jpegs, h.account, h.fresh, h.fwkFresh, h.distinct⟩

theorem released_jpegs {l : List JpegJob} (hwhole : ∀ job ∈ l, job.Whole) (hframes : ∀ job ∈ l, job.frames = []) :
    l.flatMap JpegJob.released = l.flatMap JpegJob.sources := by
  induction l with
  | nil => rfl
  | cons job l ih =>
    obtain ⟨hjob, hwhole⟩ := forall_mem_cons.mp hwhole
    obtain ⟨hnone, hframes⟩ := forall_mem_cons.mp hframes
    rw [flatMap_cons, flatMap_cons, hjob.released_eq hnone, ih hwhole hframes]

theorem released_jobs {l : List PpJob} (hmade : ∀ job ∈ l, job.Made) :
    l.flatMap PpJob.released = l.flatMap PpJob.sources := by
  induction l with
  | nil => rfl
  | cons job l ih =>
    obtain ⟨hjob, hmade⟩ := forall_mem_cons.mp hmade
    rw [flatMap_cons, flatMap_cons, hjob.released, ih hmade]

theorem stop_eq (h : s.Owned) (bufDone : ℕ → Bool) : ∃ jpegSettingsQ parentBufs, s.pp.stop bufDone = { s.pp with
      isActive := false
      queuesActive := false
      reprocChannel := false
      inputPPQ := []
      inputFWKPPQ := []
      ongoingPPQ := []
      inputJpegQ := []
      ongoingJpegQ := []
      inputMetaQ := []
      jpegSettingsQ := jpegSettingsQ
      parentBufs := parentBufs
      reprocessing := [] } := by
  rw [PostProcessor.stop]
  dsimp only
  split
  · obtain ⟨parentBufs, heq⟩ := releaseAll_frame bufDone (s.pp.ongoingPPQ.filterMap (·.srcFrame) ++ s.pp.inputPPQ)
      { s.pp with
        isActive := false
        ongoingJpegQ := []
        queuesActive := false
        ongoingPPQ := []
        inputJpegQ := []
        inputPPQ := []
        inputFWKPPQ := []
        inputMetaQ := []
        jpegSettingsQ := [] }
    rw [heq]
    exact ⟨_, _, rfl⟩
  · rename_i hqueues
    have hq : s.pp.queuesActive = false := by simpa using hqueues
    obtain ⟨h₁, h₂, h₃, h₄, h₅, h₆⟩ := h.off hq
    refine ⟨s.pp.jpegSettingsQ, s.pp.parentBufs, ?_⟩
    rw [hq, h₂, h₃, h₄, h₅, h₆]

/-- The thread is stopped: all jobs are released. -/
theorem Owned.stop (h : s.Owned) {bufDone : ℕ → Bool} (hkeeps : s.KeepsOwner (.stop bufDone)) :
    (s.stop bufDone).Owned := by
  obtain ⟨jpegSettingsQ, parentBufs, heq⟩ := stop_eq h bufDone
  have hongoing := released_jpegs (l := s.pp.ongoingJpegQ) (fun job hjob => h.jpegs job (mem_append_right _ hjob))
    fun job hjob => hkeeps job (mem_append_right _ hjob)
  have hinput := released_jpegs (l := s.pp.inputJpegQ) (fun job hjob => h.jpegs job (mem_append_left _ hjob))
    fun job hjob => hkeeps job (mem_append_left _ hjob)
  have hnone {α : Type} {p : α → Prop} : ∀ a ∈ ([] : List α), p a :=
    fun a ha => absurd ha not_mem_nil
  rw [JobAccount.stop, heq, hongoing, hinput, released_jobs h.jobs]
  refine ⟨fun _ => ⟨rfl, rfl, rfl, rfl, rfl, rfl⟩, hnone, hnone, hnone, fun x => ?_, ?_, ?_, ?_⟩
  · have hcount := h.account x
    rw [count_owned] at hcount ⊢
    simp only [flatMap_nil, count_nil, count_append]
    omega
  · change (s.taken ++ s.waiting ++ []).Nodup
    rw [append_nil]
    exact h.fresh
  · change (s.fwkTaken ++ s.pp.inputFWKPPQ ++ []).Nodup
    rw [append_nil]
    exact h.fwkFresh
  · refine h.distinct.subperm ?_ (subset_append_left _ _) (subset_append_left _ _)
    change ([] ++ (s.freed ++ s.pp.ongoingPPQ)).Subperm _
    rw [nil_append]
    exact perm_append_comm.subperm

theorem Owned.flush (h : s.Owned) (hkeeps : s.KeepsOwner .flush) : s.flush.Owned := by
  have hongoing := released_jpegs (l := s.pp.ongoingJpegQ)
    (fun job hjob => h.jpegs job (mem_append_right _ hjob)) hkeeps
  rw [JobAccount.flush, hongoing]
  refine ⟨h.off, h.parents, h.jobs, fun j hj => ?_, fun x => ?_, h.fresh, h.fwkFresh, h.distinct⟩
  · exact h.jpegs j (mem_append_left _ ((append_nil s.pp.inputJpegQ) ▸ hj))
  · have hcount := h.account x
    rw [count_owned] at hcount ⊢
    simp only [PostProcessor.flush, flatMap_nil, count_nil, count_append]
    omega

/-! ### What comes back -/

theorem subperm_head {rest freed l : List PpJob} (hl : l.Sublist [job]) :
    (rest ++ (freed ++ l)).Subperm (job :: rest ++ freed) := by
  rw [← append_assoc]
  exact ((hl.append_left _).subperm).trans (perm_append_singleton job _).subperm

theorem Owned.jpegReprocessed (h : s.Owned) {f : PpFrame} (hf : f.ofParent = false)
    {copied allocated : Bool} (hkeeps : s.KeepsOwner (.jpegReprocessed f copied allocated)) :
    (s.jpegReprocessed f copied allocated).Owned := by
  rw [JobAccount.jpegReprocessed, PostProcessor.jpegReprocessed]
  cases copied with
  | false =>
    simp only [Bool.false_and, Bool.false_eq_true, if_false, append_nil]
    exact ⟨h.off, h.parents, h.jobs, h.jpegs, h.account, h.fresh, h.fwkFresh, h.distinct⟩
  | true =>
    rw [if_pos rfl, Bool.true_and, processPPData, processPPData]
    dsimp only
    split
    · simp only [Bool.false_eq_true, if_false, append_nil]
      exact ⟨h.off, h.parents, h.jobs, h.jpegs, h.account, h.fresh, h.fwkFresh, h.distinct⟩
    · rename_i job rest hongoing
      have hqueues := h.queues_of_job (hongoing ▸ mem_cons_self)
      have hmade := h.jobs job (hongoing ▸ mem_cons_self)
      have hoff {p : Prop} (hoff : s.pp.queuesActive = false) : p := by
        rw [hqueues] at hoff
        cases hoff
      have hdistinct := h.distinct
      rw [hongoing] at hdistinct
      have hrest : ∀ j ∈ rest, j.Made := fun j hj =>
        h.jobs j (hongoing ▸ mem_cons_of_mem _ hj)
      rw [queueJpegJob_fst { s.pp with ongoingPPQ := rest }
        { s.pp with reprocessing := s.pp.reprocessing.tail, ongoingPPQ := rest }]
      rcases queueJpegJob_eq { s.pp with reprocessing := s.pp.reprocessing.tail, ongoingPPQ := rest } hmade f allocated
        with ⟨hfail, hwhy⟩ | ⟨settings, created, hqueue⟩
      · have hnone : job.sources = [] := by
          by_contra hsome
          obtain ⟨hallocated, hsettings⟩ := hkeeps rfl job (by rw [hongoing]; rfl) hsome
          rcases hwhy with hwhy | hwhy
          · exact hsettings hwhy
          · rw [hallocated] at hwhy
            cases hwhy
        rw [hfail]
        refine ⟨hoff, h.parents, hrest, h.jpegs, fun x => ?_, h.fresh, h.fwkFresh,
          hdistinct.subperm (subperm_head (nil_sublist _)) (fun x hx => hx) fun x hx => hx⟩
        have hcount := h.account x
        rw [count_owned, hongoing, flatMap_cons, hnone] at hcount
        rw [count_owned]
        exact hcount
      · obtain ⟨hsources, hwhole⟩ := hmade.jpegJob (.inl hf) settings
        rw [hqueue, hongoing]
        refine ⟨hoff, h.parents, hrest, fun j hj => ?_, fun x => ?_, h.fresh, h.fwkFresh,
          hdistinct.subperm (subperm_head (List.Sublist.refl _)) (fun x hx => hx) fun x hx => hx⟩
        · have hj : j ∈ enqueue s.pp.queuesActive s.pp.inputJpegQ (job.jpegJob f settings) ++ s.pp.ongoingJpegQ := hj
          rw [enqueue, if_pos hqueues, append_assoc, mem_append, singleton_append, mem_cons] at hj
          rcases hj with hj | rfl | hj
          · exact h.jpegs j (mem_append_left _ hj)
          · exact hwhole
          · exact h.jpegs j (mem_append_right _ hj)
        · have hcount := h.account x
          rw [count_owned, hongoing] at hcount
          rw [count_owned]
          simp only [enqueue, hqueues, if_true, flatMap_cons, flatMap_append,
            flatMap_nil, append_nil, count_append, hsources] at hcount ⊢
          omega

theorem Owned.outputReprocessed (h : s.Owned) : s.outputReprocessed.Owned := by
  rw [JobAccount.outputReprocessed, PostProcessor.outputReprocessed]
  cases hongoing : s.pp.ongoingPPQ with
  | nil =>
    simp only [tail_nil, head?_nil, elim_none, toList_none, append_nil]
    rw [← hongoing]
    exact ⟨h.off, h.parents, h.jobs, h.jpegs, h.account, h.fresh, h.fwkFresh, h.distinct⟩
  | cons job rest =>
    have hqueues := h.queues_of_job (hongoing ▸ mem_cons_self)
    have hmade := h.jobs job (hongoing ▸ mem_cons_self)
    have hdistinct := h.distinct
    rw [hongoing] at hdistinct
    refine ⟨fun hoff => ?_, h.parents,
      fun j hj => h.jobs j (hongoing ▸ mem_cons_of_mem _ hj), h.jpegs, fun x => ?_, h.fresh,
      h.fwkFresh,
      hdistinct.subperm (subperm_head (List.Sublist.refl _)) (fun x hx => hx) fun x hx => hx⟩
    · rw [hqueues] at hoff
      cases hoff
    · have hcount := h.account x
      rw [count_owned, hongoing] at hcount
      rw [count_owned]
      simp only [flatMap_cons, count_append, tail_cons, head?_cons, elim_some, hmade.released] at hcount ⊢
      omega

theorem Owned.jpegDone (h : s.Owned) : s.jpegDone.Owned := by
  rw [JobAccount.jpegDone, findJpegJob]
  refine ⟨h.off, h.parents, h.jobs, fun j hj => ?_, fun x => ?_, h.fresh, h.fwkFresh, h.distinct⟩
  · refine h.jpegs j ?_
    exact (mem_append.mp hj).elim (mem_append_left _) fun hj => mem_append_right _ (mem_of_mem_tail hj)
  · have hcount := h.account x
    rw [count_owned] at hcount ⊢
    cases hongoing : s.pp.ongoingJpegQ with
    | nil =>
      rw [hongoing] at hcount
      simpa using hcount
    | cons job rest =>
      have hwhole := h.jpegs job (mem_append_right _ (hongoing ▸ mem_cons_self))
      rw [hongoing] at hcount
      simp only [flatMap_cons, count_append, tail_cons, head?_cons, elim_some, hwhole.done_eq] at hcount ⊢
      omega

/-! ### Every run -/

/-- **One event.** -/
theorem Owned.step (h : s.Owned) {e : JobEvent} (hkeeps : s.KeepsOwner e) (hstep : s.step e = some t) : t.Owned := by
  cases e with
  | frame f =>
    simp only [JobAccount.step, ite_none_right_eq_some, some.injEq] at hstep
    obtain ⟨⟨hparent, hnew⟩, rfl⟩ := hstep
    exact h.frame hparent hnew
  | metadata m =>
    simp only [JobAccount.step, ite_none_right_eq_some, some.injEq] at hstep
    obtain ⟨hnew, rfl⟩ := hstep
    exact h.metadata hnew
  | settings jpegSettings =>
    cases hstep
    exact ⟨h.off, h.parents, h.jobs, h.jpegs, h.account, h.fresh, h.fwkFresh, h.distinct⟩
  | fwk f allocated =>
    simp only [JobAccount.step, ite_none_right_eq_some, some.injEq] at hstep
    obtain ⟨hnew, rfl⟩ := hstep
    exact h.fwk hnew allocated
  | start reprocessType calls =>
    cases hstep
    exact h.start reprocessType calls
  | stop bufDone =>
    cases hstep
    exact h.stop hkeeps
  | encode encoded =>
    simp only [JobAccount.step, ite_none_right_eq_some, some.injEq] at hstep
    obtain ⟨-, rfl⟩ := hstep
    exact h.encode hkeeps
  | startFwk calls =>
    simp only [JobAccount.step, ite_none_right_eq_some, some.injEq] at hstep
    obtain ⟨hactive, rfl⟩ := hstep
    exact h.startFwk hactive calls
  | startLive calls =>
    simp only [JobAccount.step, ite_none_right_eq_some, some.injEq] at hstep
    obtain ⟨hactive, rfl⟩ := hstep
    exact h.startLive hactive hkeeps
  | dropNext bufDone =>
    simp only [JobAccount.step, ite_none_left_eq_some, some.injEq] at hstep
    obtain ⟨-, rfl⟩ := hstep
    exact h.dropNext hkeeps
  | jpegReprocessed f copied allocated =>
    simp only [JobAccount.step, ite_none_left_eq_some, some.injEq] at hstep
    obtain ⟨hf, rfl⟩ := hstep
    exact h.jpegReprocessed (by simpa using hf) hkeeps
  | outputReprocessed =>
    cases hstep
    exact h.outputReprocessed
  | jpegDone =>
    cases hstep
    exact h.jpegDone
  | flush =>
    cases hstep
    exact h.flush hkeeps

/-- No freed job is ongoing, and each super-buffer that was taken is owned by one job or was returned
once. -/
structure Safe (s : JobAccount) : Prop where
  live : ∀ job ∈ s.pp.ongoingPPQ, job ∉ s.freed
  once : ∀ x ∈ s.taken, s.owned.count x + s.returned.count x = 1

theorem Owned.safe (h : s.Owned) : s.Safe where
  live := fun job hjob hfreed =>
    (nodup_append.mp h.distinct.nodup).2.2 job hjob job hfreed rfl
  once := fun x hx => by
    rw [h.account x]
    exact count_eq_one_of_mem (nodup_append.mp h.fresh).1 hx

/-- **The owners of the source buffers.** In every run in which no step loses or doubles a buffer, no
freed job is in `m_ongoingPPQ`, and each super-buffer that was dequeued is owned by one job or was
returned once. -/
theorem jobs_owned_run {es : List JobEvent} (hs : s.Initial)
    (h : Run (guarded KeepsOwner (fires step)) s es t) : t.Safe := by
  have hinv : t.Owned :=
    h.invariant (fun _ _ _ hinv hstep => hinv.step hstep.1 hstep.2) (owned_initial hs)
  exact hinv.safe

/-- A picture: its settings, its frame and its metadata. -/
def pictureArrives : List JobEvent :=
  [.start .jpeg {}, .settings ⟨0, 7⟩, .frame { bufIdx := 3, frameNumber := 7 }, .metadata ⟨7⟩]

/-- A picture that is reprocessed and encoded. -/
def pictureSession : List JobEvent :=
  pictureArrives ++ [.startLive {},
    .jpegReprocessed { bufIdx := 0, ofParent := false, frameNumber := 7 } true true, .encode true,
    .jpegDone]

/-- Its buffers have been returned. -/
theorem jobs_owned_picture : Initial {} ∧ ∃ t, Run (guarded KeepsOwner (fires step)) {} pictureSession t ∧ t.Safe ∧
      t.returned = sourceBufs [{ bufIdx := 3, frameNumber := 7 }] [⟨7⟩] :=
  have hinitial : Initial {} := ⟨rfl, rfl, rfl, rfl, rfl, rfl, rfl, rfl, rfl, rfl, rfl⟩
  ⟨hinitial, (exists_run (by decide)).imp fun _ h => ⟨h.1, jobs_owned_run hinitial h.1, h.2⟩⟩

/-- After a failing `overrideMetadata` the job is freed and still in the queue, and its buffers are owned
and returned. -/
theorem freed_job_ongoing : Initial {} ∧
    ∃ t, Run (fires step) {} (pictureArrives ++ [.startLive { overridden := false }]) t ∧
      (∃ job ∈ t.pp.ongoingPPQ, job ∈ t.freed) ∧ (∃ x ∈ t.taken, x ∈ t.owned ∧ x ∈ t.returned) ∧
      ¬ t.Safe := by
  refine ⟨⟨rfl, rfl, rfl, rfl, rfl, rfl, rfl, rfl, rfl, rfl, rfl⟩,
    (exists_run_fires (P := fun t => (∃ job ∈ t.pp.ongoingPPQ, job ∈ t.freed) ∧
      ∃ x ∈ t.taken, x ∈ t.owned ∧ x ∈ t.returned) (by decide)).imp fun t ht => ⟨ht.1, ?_⟩⟩
  obtain ⟨-, hfreed, htwice⟩ := ht
  refine ⟨hfreed, htwice, fun hsafe => ?_⟩
  obtain ⟨job, hjob, hmem⟩ := hfreed
  exact hsafe.live job hjob hmem

end JobAccount

end Marlin
