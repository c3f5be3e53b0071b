import Marlin.PostProcessor
import Marlin.Transition

/-!
# What a Job is Made of

The frame, the metadata and the settings of a job come from the heads of their queues. They are of
one request as long as the heads are, and nothing in `QCamera3PostProcessor` sees to that: the
settings are queued with the request, and taken when a job is made, so a job for a frame of the
framework that is made before that of an older request takes the settings of the older one, with its
output buffer.

## Conventions

* `waiting` has the requests that have no job yet, oldest first; `frames` and `metas` those of the
  parent's stream whose frame, or whose metadata, is still to come.
* Frames and metadata come in the order of the requests, and reprocessed frames in the order of the
  jobs.

## Main results

* `Fitting.step`: what one step preserves.
* `jobs_paired_run`: each job is made of what is of one request.
* `fwk_takes_live_settings`: a request of the framework takes the settings of an older one.
-/

namespace Marlin

open PostProcessor List Transition

/-- The parts of a job are of one request. -/
def JobParts.Paired (p : JobParts) : Prop := p.metadata = some p.source ∧ p.settings = some p.source
deriving Decidable

/-- The request that the source frame of a job is of. -/
def PpJob.number (job : PpJob) : ℕ :=
  job.fwkSrcFrame.elim (job.srcFrame.elim 0 (·.frameNumber)) (·.frameNumber)

/-- A post-processor, and the requests whose jobs, frames and metadata are to come. -/
structure PairState where
  pp : PostProcessor := { isActive := true }
  waiting : List ℕ := []
  frames : List ℕ := []
  metas : List ℕ := []

/-- The results of the calls of a request: the settings are queued, and the snapshot buffer or the
input buffer is prepared; and for a frame of the framework, the JPEG job. -/
structure PicCalls where
  settings : Bool := true
  prepared : Bool := true
  allocated : Bool := true
  deriving DecidableEq

/-- The steps: requests, with the index of their output buffer, the frames and the metadata of the
parent's stream, the parts of `DO_NEXT_JOB`, and what comes back. -/
inductive PairEvent
  | request (frameNumber outBufIndex : ℕ) (calls : PicCalls)
  | fwkRequest (frame : FwkInput) (outBufIndex : ℕ) (calls : PicCalls)
  | frame (bufIdx : ℕ)
  | metadata (queued : Bool)
  | startJpeg (encoded : Bool)
  | startFwk (calls : FwkCalls)
  | startLive (calls : LiveCalls)
  | reprocessed (bufIdx : ℕ) (copied allocated : Bool)
  | jpegDone
  deriving DecidableEq

namespace PairState

/-- The settings of a request are queued. -/
def queueJpegSetting (s : PairState) (frameNumber outBufIndex : ℕ) (calls : PicCalls) : PairState :=
  if calls.settings then { s with pp := s.pp.processJpegSettingData ⟨outBufIndex, frameNumber⟩ }
  else s

/-- `request` of the picture channel, for a frame of its stream. -/
def request (s : PairState) (frameNumber outBufIndex : ℕ) (calls : PicCalls) : PairState :=
  let s := s.queueJpegSetting frameNumber outBufIndex calls
  if calls.prepared then
    { s with
      waiting := s.waiting ++ [frameNumber]
      frames := s.frames ++ [frameNumber]
      metas := s.metas ++ [frameNumber] }
  else s

/-- `request` of the picture channel, for a frame of the framework. Without a reprocessing it gets
its job at once. -/
def fwkRequest (s : PairState) (frame : FwkInput) (outBufIndex : ℕ) (calls : PicCalls) :
    PairState :=
  let s := s.queueJpegSetting frame.frameNumber outBufIndex calls
  if calls.prepared then
    { s with
      pp := s.pp.processFwkData frame calls.allocated
      waiting := if frame.reprocessType = .none then s.waiting
        else s.waiting ++ [frame.frameNumber] }
  else s

/-- One step. -/
def step (s : PairState) : PairEvent → Option PairState
  | .request frameNumber outBufIndex calls => some (s.request frameNumber outBufIndex calls)
  | .fwkRequest frame outBufIndex calls => some (s.fwkRequest frame outBufIndex calls)
  | .frame bufIdx =>
    match s.frames with
    | [] => none
    | n :: ns => some { s with
        pp := s.pp.processData { bufIdx := bufIdx, frameNumber := n }
        frames := ns }
  | .metadata queued =>
    match s.metas with
    | [] => none
    | n :: ns => some { s with
        pp := if queued then s.pp.processPPMetadata ⟨n⟩ else s.pp
        metas := ns }
  | .startJpeg encoded => some { s with pp := s.pp.startJpeg encoded }
  | .startFwk calls => some { s with
      pp := s.pp.startFwk calls
      waiting := s.pp.inputFWKPPQ.head?.elim s.waiting fun f => s.waiting.erase f.frameNumber }
  | .startLive calls => some { s with
      pp := s.pp.startLive calls
      waiting := if s.pp.inputMetaQ = [] then s.waiting
        else s.pp.inputPPQ.head?.elim s.waiting fun f => s.waiting.erase f.frameNumber }
  | .reprocessed bufIdx copied allocated =>
    match s.pp.reprocessing with
    | [] => none
    | n :: _ => some { s with
        pp := s.pp.jpegReprocessed { bufIdx := bufIdx, ofParent := false, frameNumber := n } copied allocated }
  | .jpegDone => some { s with pp := s.pp.findJpegJob.2 }

/-- **Steps in order**: jobs are made in the order of the requests, none of which fails; the metadata
of each frame is queued; `overrideMetadata` does not fail, and a reprocessed frame is copied. -/
def InOrder (s : PairState) : PairEvent → Prop
  | .request _ _ calls => calls.settings = true ∧ calls.prepared = true
  | .fwkRequest frame _ calls => calls.settings = true ∧ calls.prepared = true ∧
      (frame.reprocessType = .none → s.waiting = [])
  | .metadata queued => queued = true
  | .startFwk _ => ∀ f ∈ s.pp.inputFWKPPQ.head?, s.waiting.head? = some f.frameNumber
  | .startLive calls => calls.overridden = true ∧
      (s.pp.inputMetaQ ≠ [] → ∀ f ∈ s.pp.inputPPQ.head?, s.waiting.head? = some f.frameNumber)
  | .reprocessed _ copied _ => copied = true
  | _ => True

instance (s : PairState) : DecidablePred s.InOrder := fun e => by
  delta InOrder
  cases e <;> infer_instance

/-- **Each job is of one request.** -/
def JobsPaired (s : PairState) : Prop := ∀ p ∈ s.pp.created, p.Paired

/-- **The invariant.** -/
structure Fitting (s : PairState) : Prop where
  active : s.pp.queuesActive = true
  settings : s.pp.jpegSettingsQ.map (·.frameNumber) = s.waiting
  metas : s.pp.inputPPQ.map (·.frameNumber) ++ s.frames = s.pp.inputMetaQ.map (·.frameNumber) ++ s.metas
  jobs : ∀ job ∈ s.pp.ongoingPPQ, (job.parts job.number).Paired
  reprocessing : s.pp.ongoingPPQ.map PpJob.number = s.pp.reprocessing
  direct : s.pp.reprocChannel = false → s.pp.ongoingPPQ = []
  created : s.JobsPaired

variable {s t : PairState}

theorem Fitting.queueJpegSetting (h : Fitting s) (n out : ℕ) {calls : PicCalls} (hcalls : calls.settings = true) :
    s.queueJpegSetting n out calls = { s with pp := { s.pp with
      jpegSettingsQ := s.pp.jpegSettingsQ ++ [⟨out, n⟩] } } := by
  rw [PairState.queueJpegSetting, if_pos hcalls, processJpegSettingData, enqueue, if_pos h.active]

theorem Fitting.head_settings (h : Fitting s) : s.pp.jpegSettingsQ.head?.map (·.frameNumber) = s.waiting.head? := by
  rw [← h.settings, head?_map]

theorem Fitting.tail_settings (h : Fitting s) {n : ℕ} (hn : s.waiting.head? = some n) :
    s.pp.jpegSettingsQ.tail.map (·.frameNumber) = s.waiting.erase n := by
  obtain ⟨ns, hns⟩ := head?_eq_some_iff.mp hn
  rw [map_tail, h.settings, hns, tail_cons, erase_cons_head]

/-- A request for a frame of the stream. -/
theorem Fitting.request (h : Fitting s) {n out : ℕ} {calls : PicCalls}
    (hcalls : calls.settings = true ∧ calls.prepared = true) : Fitting (s.request n out calls) := by
  rw [PairState.request, h.queueJpegSetting n out hcalls.1, if_pos hcalls.2]
  refine ⟨h.active, ?_, ?_, h.jobs, h.reprocessing, h.direct, h.created⟩
  · simp only [map_append, map_cons, map_nil, h.settings]
  · simp only [← append_assoc, h.metas]

theorem Fitting.fwkRequest (h : Fitting s) {frame : FwkInput} {out : ℕ} {calls : PicCalls}
    (hcalls : calls.settings = true ∧ calls.prepared = true)
    (hfirst : frame.reprocessType = .none → s.waiting = []) :
    Fitting (s.fwkRequest frame out calls) := by
  rw [PairState.fwkRequest, h.queueJpegSetting frame.frameNumber out hcalls.1, if_pos hcalls.2]
  by_cases htype : frame.reprocessType = .none
  · have hnil : s.pp.jpegSettingsQ = [] := by
      have hmap := h.settings
      rw [hfirst htype] at hmap
      exact map_eq_nil_iff.mp hmap
    simp only [htype, if_pos, processFwkData, ne_eq, not_true_eq_false, if_false, hnil, nil_append]
    split
    · refine ⟨h.active, (hfirst htype).symm, h.metas, h.jobs, h.reprocessing, h.direct, ?_⟩
      intro p hp
      rcases mem_append.mp hp with hp | hp
      · exact h.created p hp
      · rw [mem_singleton.mp hp]
        exact ⟨rfl, rfl⟩
    · exact ⟨h.active, (hfirst htype).symm, h.metas, h.jobs, h.reprocessing, h.direct, h.created⟩
  · simp only [htype, if_false, processFwkData, ne_eq, not_false_eq_true, if_true]
    refine ⟨h.active, ?_, h.metas, h.jobs, h.reprocessing, h.direct, h.created⟩
    simp only [map_append, map_cons, map_nil, h.settings]

/-- A frame comes, or its metadata. -/
theorem Fitting.frame (h : Fitting s) {bufIdx n : ℕ} {ns : List ℕ} (hframes : s.frames = n :: ns) : Fitting { s with
      pp := s.pp.processData { bufIdx := bufIdx, frameNumber := n }
      frames := ns } := by
  rw [processData, enqueue, if_pos h.active]
  refine ⟨h.active, h.settings, ?_, h.jobs, h.reprocessing, h.direct, h.created⟩
  have hmetas := h.metas
  rw [hframes] at hmetas
  simp only [map_append, map_cons, map_nil, append_assoc, singleton_append, hmetas]

theorem Fitting.metadata (h : Fitting s) {n : ℕ} {ns : List ℕ} (hmetas : s.metas = n :: ns) :
    Fitting { s with pp := s.pp.processPPMetadata ⟨n⟩, metas := ns } := by
  rw [processPPMetadata, enqueue, if_pos h.active]
  refine ⟨h.active, h.settings, ?_, h.jobs, h.reprocessing, h.direct, h.created⟩
  have hold := h.metas
  rw [hmetas] at hold
  simp only [map_append, map_cons, map_nil, append_assoc, singleton_append, hold]

theorem Fitting.created_append (h : Fitting s) {job : PpJob} (hjob : (job.parts job.number).Paired) :
    ∀ p ∈ s.pp.created ++ [job.parts job.number], p.Paired := by
  intro p hp
  rcases mem_append.mp hp with hp | hp
  · exact h.created p hp
  · rw [mem_singleton.mp hp]
    exact hjob

theorem Fitting.jobs_append (h : Fitting s) {job : PpJob} (hjob : (job.parts job.number).Paired) :
    ∀ job' ∈ s.pp.ongoingPPQ ++ [job], (job'.parts job'.number).Paired := by
  intro job' hjob'
  rcases mem_append.mp hjob' with hjob' | hjob'
  · exact h.jobs job' hjob'
  · rw [mem_singleton.mp hjob']
    exact hjob

theorem Fitting.startFwkJob (h : Fitting s) {job : PpJob} {frame : FwkInput} {calls : FwkCalls}
    (hnumber : job.number = frame.frameNumber) (hjob : (job.parts job.number).Paired) :
    Fitting { s with pp := s.pp.startFwkJob job frame calls } := by
  have hcreated := h.created_append hjob
  rw [PostProcessor.startFwkJob, ← hnumber]
  split
  case isTrue => exact h
  case isFalse hcalls =>
    have hboth : calls.allocated = true ∧ s.pp.reprocChannel = true := by simpa using hcalls
    simp only [enqueue, if_pos h.active]
    split
    · refine ⟨h.active, h.settings, h.metas, h.jobs_append hjob, ?_, ?_, hcreated⟩
      · simp only [map_append, map_cons, map_nil, h.reprocessing]
      · intro hnone
        rw [hboth.2] at hnone
        exact absurd hnone (by simp)
    · exact ⟨h.active, h.settings, h.metas, h.jobs, h.reprocessing, h.direct, hcreated⟩

theorem Fitting.startFwk (h : Fitting s) {calls : FwkCalls}
    (hhead : ∀ f ∈ s.pp.inputFWKPPQ.head?, s.waiting.head? = some f.frameNumber) :
    Fitting { s with
      pp := s.pp.startFwk calls
      waiting := s.pp.inputFWKPPQ.head?.elim s.waiting fun f => s.waiting.erase f.frameNumber } := by
  rw [PostProcessor.startFwk]
  cases hqueue : s.pp.inputFWKPPQ with
  | nil => exact h
  | cons frame rest =>
    have hfirst : s.waiting.head? = some frame.frameNumber := hhead frame (by rw [hqueue]; rfl)
    have hpopped : Fitting { s with
        pp := { s.pp with inputFWKPPQ := rest, jpegSettingsQ := s.pp.jpegSettingsQ.tail }
        waiting := s.waiting.erase frame.frameNumber } :=
      ⟨h.active, h.tail_settings hfirst, h.metas, h.jobs, h.reprocessing, h.direct, h.created⟩
    exact hpopped.startFwkJob rfl ⟨rfl, h.head_settings.trans hfirst⟩

theorem Fitting.created_processPPData (h : Fitting s) {frame : PpFrame} {jobs : List PpJob}
    (hjobs : ∀ job ∈ jobs, (job.parts job.number).Paired)
    (hhead : ∀ job ∈ jobs.head?, job.number = frame.frameNumber) {created : List JobParts}
    (hcreated : ∀ p ∈ created, p ∈ s.pp.created ∨
      ∃ job ∈ jobs.head?, p = job.parts frame.frameNumber) : ∀ p ∈ created, p.Paired := by
  intro p hp
  rcases hcreated p hp with hp | ⟨job, hjob, rfl⟩
  · exact h.created p hp
  · rw [← hhead job hjob]
    exact hjobs job (mem_of_mem_head? hjob)

/-- A reprocessed frame comes back. -/
theorem Fitting.reprocessed (h : Fitting s) {bufIdx n : ℕ} {ns : List ℕ} {allocated : Bool}
    (hreproc : s.pp.reprocessing = n :: ns) :
    Fitting { s with
      pp := s.pp.jpegReprocessed { bufIdx := bufIdx, ofParent := false, frameNumber := n } true allocated } := by
  have hmap := h.reprocessing
  rw [hreproc] at hmap
  obtain ⟨job, rest, hjobs, hjob, hrest⟩ := map_eq_cons_iff.mp hmap
  obtain ⟨queue, created, hframe, hcreated⟩ :=
    processPPData_frame { s.pp with reprocessing := s.pp.reprocessing.tail }
      { bufIdx := bufIdx, ofParent := false, frameNumber := n } allocated
  rw [jpegReprocessed, if_pos rfl, hframe]
  refine ⟨h.active, h.settings, h.metas, ?_, ?_, ?_, ?_⟩
  · intro job' hjob'
    exact h.jobs job' (mem_of_mem_tail hjob')
  · simp only [hjobs, hreproc, tail_cons, hrest]
  · intro hnone
    simp only [h.direct hnone, tail_nil]
  · refine h.created_processPPData h.jobs ?_ hcreated
    intro job' hjob'
    rw [hjobs] at hjob'
    rw [← Option.some.inj hjob']
    exact hjob

theorem Fitting.startLiveJob (h : Fitting s) {job : PpJob} {frame : PpFrame} {calls : LiveCalls}
    (hcalls : calls.overridden = true) (hnumber : job.number = frame.frameNumber)
    (hjob : (job.parts job.number).Paired) :
    Fitting { s with pp := s.pp.startLiveJob job frame calls } := by
  have hcreated := h.created_append hjob
  have hjobs := h.jobs_append hjob
  rw [PostProcessor.startLiveJob]
  simp only [enqueue, if_pos h.active, hcalls, ← hnumber, releaseSuperBuf_frame]
  split
  case isTrue =>
    exact ⟨h.active, h.settings, h.metas, h.jobs, h.reprocessing, h.direct, h.created⟩
  case isFalse =>
    split
    case isTrue hreproc =>
      rw [if_neg (by simp)]
      split
      · refine ⟨h.active, h.settings, h.metas, hjobs, ?_, ?_, hcreated⟩
        · simp only [map_append, map_cons, map_nil, h.reprocessing]
        · intro hnone
          rw [hreproc] at hnone
          exact absurd hnone (by simp)
      · exact ⟨h.active, h.settings, h.metas, h.jobs, h.reprocessing, h.direct, hcreated⟩
    case isFalse hreproc =>
      -- without a reprocess channel the job is the only one in the queue
      have hnil := h.direct (by simpa using hreproc)
      obtain ⟨queue, created, hframe, hmade⟩ := processPPData_frame { s.pp with
          created := s.pp.created ++ [job.parts job.number]
          ongoingPPQ := s.pp.ongoingPPQ ++ [job] } frame calls.jpegAllocated
      have hpaired : ∀ p ∈ created, p.Paired := by
        intro p hp
        rcases hmade p hp with hp | ⟨job', hjob', rfl⟩
        · exact hcreated p hp
        · rw [hnil] at hjob'
          obtain rfl : job = job' := Option.some.inj hjob'
          rw [← hnumber]
          exact hjob
      have htail : (s.pp.ongoingPPQ ++ [job]).tail = [] := by rw [hnil]; rfl
      rw [hframe]
      have hreprocessing : s.pp.reprocessing = [] := by
        rw [← h.reprocessing, hnil]
        rfl
      split
      · refine ⟨h.active, h.settings, h.metas, ?_, ?_, fun _ => htail, hpaired⟩
        · simp [htail]
        · simp [htail, hreprocessing]
      · refine ⟨h.active, h.settings, h.metas, ?_, ?_, fun _ => htail, hpaired⟩
        · simp [htail]
        · simp [htail, hreprocessing]

theorem Fitting.startLive (h : Fitting s) {calls : LiveCalls} (hcalls : calls.overridden = true)
    (hhead : s.pp.inputMetaQ ≠ [] → ∀ f ∈ s.pp.inputPPQ.head?, s.waiting.head? = some f.frameNumber) :
    Fitting { s with
      pp := s.pp.startLive calls
      waiting := if s.pp.inputMetaQ = [] then s.waiting
        else s.pp.inputPPQ.head?.elim s.waiting fun f => s.waiting.erase f.frameNumber } := by
  rw [PostProcessor.startLive]
  cases hframes : s.pp.inputPPQ with
  | nil => cases hmetas : s.pp.inputMetaQ <;> exact h
  | cons frame frames =>
    cases hmetas : s.pp.inputMetaQ with
    | nil => exact h
    | cons reprocMeta metas =>
      have hfirst : s.waiting.head? = some frame.frameNumber :=
        hhead (by rw [hmetas]; simp) frame (by rw [hframes]; rfl)
      -- frames and metadata come in one order
      have hboth := h.metas
      rw [hframes, hmetas] at hboth
      obtain ⟨hmeta, hrest⟩ := cons.inj hboth
      have hpopped : Fitting { s with
          pp := { s.pp with
            inputPPQ := frames
            inputMetaQ := metas
            jpegSettingsQ := s.pp.jpegSettingsQ.tail }
          waiting := s.waiting.erase frame.frameNumber } :=
        ⟨h.active, h.tail_settings hfirst, hrest, h.jobs, h.reprocessing, h.direct, h.created⟩
      exact hpopped.startLiveJob hcalls rfl ⟨congrArg some hmeta.symm, h.head_settings.trans hfirst⟩

theorem Fitting.keep (h : Fitting s) {pp : PostProcessor} (hsame : ∃ inputJpegQ ongoingJpegQ, pp = { s.pp with
      inputJpegQ := inputJpegQ
      ongoingJpegQ := ongoingJpegQ }) : Fitting { s with pp := pp } := by
  obtain ⟨inputJpegQ, ongoingJpegQ, rfl⟩ := hsame
  exact ⟨h.active, h.settings, h.metas, h.jobs, h.reprocessing, h.direct, h.created⟩

/-- **One step** in order keeps the invariant. -/
theorem Fitting.step {e : PairEvent} (h : Fitting s) (horder : s.InOrder e) (ht : s.step e = some t) : Fitting t := by
  cases e with
  | request n out calls =>
    cases ht
    exact h.request horder
  | fwkRequest frame out calls =>
    cases ht
    exact h.fwkRequest ⟨horder.1, horder.2.1⟩ horder.2.2
  | frame bufIdx =>
    rw [PairState.step] at ht
    split at ht
    case h_1 => exact absurd ht (by simp)
    case h_2 n ns hframes =>
      cases ht
      exact h.frame hframes
  | metadata queued =>
    rw [PairState.step] at ht
    split at ht
    case h_1 => exact absurd ht (by simp)
    case h_2 n ns hmetas =>
      cases ht
      obtain rfl : queued = true := horder
      exact h.metadata hmetas
  | startJpeg encoded =>
    cases ht
    refine h.keep ?_
    rw [startJpeg]
    split
    · exact ⟨_, _, rfl⟩
    · exact ⟨_, _, rfl⟩
  | startFwk calls =>
    cases ht
    exact h.startFwk horder
  | startLive calls =>
    cases ht
    exact h.startLive horder.1 horder.2
  | reprocessed bufIdx copied allocated =>
    rw [PairState.step] at ht
    split at ht
    case h_1 => exact absurd ht (by simp)
    case h_2 n ns hreproc =>
      cases ht
      obtain rfl : copied = true := horder
      exact h.reprocessed hreproc
  | jpegDone =>
    cases ht
    exact h.keep ⟨_, _, rfl⟩

/-- A post-processor that was started, with a reprocess channel or without. -/
def started (reprocChannel : Bool) : PairState where
  pp := { isActive := true, reprocChannel := reprocChannel }

/-- **In a run in order** each job is made of a frame, metadata and settings of one request. -/
theorem jobs_paired_run {reprocChannel : Bool} {es : List PairEvent}
    (hrun : Run (guarded InOrder (fires step)) (started reprocChannel) es t) : t.JobsPaired := by
  have hstart : Fitting (started reprocChannel) :=
    ⟨rfl, rfl, rfl, by simp [started], rfl, fun _ => rfl, by simp [started, JobsPaired]⟩
  have hfitting : Fitting t := hrun.invariant (fun s e t hs ht => hs.step ht.1 ht.2) hstart
  exact hfitting.created

/-- A request of the stream and one of the framework, which gets its job last. -/
theorem jobs_paired_two : ∃ t : PairState,
    t.pp.created = [⟨1, some 1, some 1⟩, ⟨2, some 2, some 2⟩, ⟨1, some 1, some 1⟩] ∧ t.JobsPaired := by
  have ⟨t, hrun, hcreated⟩ : ∃ t, Run (guarded InOrder (fires step)) (started true)
      [.request 1 4 {}, .fwkRequest ⟨2, 0, .jpeg⟩ 5 {}, .frame 0, .metadata true, .startLive {},
        .startFwk {}, .reprocessed 0 true true] t ∧
      t.pp.created = [⟨1, some 1, some 1⟩, ⟨2, some 2, some 2⟩, ⟨1, some 1, some 1⟩] :=
    exists_run (by decide +kernel)
  exact ⟨t, hcreated, jobs_paired_run hrun⟩

/-- The request of the framework gets its job while the older one waits for its frame: it takes the
settings of that, with its output buffer. -/
theorem fwk_takes_live_settings : ∃ t : PairState, Run (fires step) (started true)
      [.request 1 4 {}, .fwkRequest ⟨2, 0, .jpeg⟩ 5 {}, .startFwk {}] t ∧
      t.pp.ongoingPPQ.map (·.jpegSettings) = [some ⟨4, 1⟩] ∧ t.pp.created = [⟨2, some 2, some 1⟩] ∧ ¬ t.JobsPaired := by
  refine (exists_run_fires (P := fun t => t.pp.ongoingPPQ.map (·.jpegSettings) = [some ⟨4, 1⟩] ∧
    t.pp.created = [⟨2, some 2, some 1⟩]) (by decide +kernel)).imp
    fun t h => ⟨h.1, h.2.1, h.2.2, fun hjobs => ?_⟩
  have hpaired := hjobs ⟨2, some 2, some 1⟩ (by rw [h.2.2]; exact mem_cons_self)
  exact absurd hpaired (by decide)

end PairState

end Marlin
