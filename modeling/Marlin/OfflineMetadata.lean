import Mathlib.Data.List.Count
import Mathlib.Data.List.Perm.Basic
import Marlin.PostProcessor
import Marlin.StreamMem
import Marlin.Transition

/-!
# The Metadata Buffers of Offline Jobs

A request with an input buffer takes one of the metadata buffers of its channel for the settings of the
frame (`mFreeOfflineMetaBuffersList`) and marks it with the frame number. The buffer is given back by a
search for that number, when the frame was reprocessed and, for a picture, when its JPEG is done. Nobody
clears the number, so the second search finds the buffer again: a picture that is reprocessed first has its
buffer free while the encoder still reads it, and twice in the list afterwards.

What fails after the reservation keeps the buffer for good.

## Conventions

* Frame numbers are below `2 ^ 31`, and no two requests have the same, as the framework counts them up.
* A job is one frame of the framework, from its reservation until nothing reads its metadata any more. A job
  without reprocessing waits for the encoder at once.
* Which jobs come next is left to the post-processor; any order is a run.
* The memory of the input buffers is left out but for the failure of its registration.
* `QCamera3YUVChannel` looks for its own heap buffers first. They carry the numbers of live requests, so a
  request with an input buffer finds none.

## Main results

* `Tracked.step`: what an event preserves.
* `offline_metadata_run`: each buffer is free or reserved by one job, where nothing fails behind a
  reservation and no reprocessed picture is encoded.
-/

namespace Marlin

open List Bool Transition

namespace OfflineMetadata

/-- Where a job is: in the queue for the reprocessing, there, or with the encoder. -/
inductive JobStage
  | queued
  | reprocessing
  | encoding
  deriving DecidableEq

/-- A frame of the framework that is processed, with its metadata buffer. -/
structure OfflineJob where
  frameNumber : ℕ
  metaBufIdx : ℕ
  reprocessType : ReprocessType
  stage : JobStage
  deriving DecidableEq

/-- The calls of a request: what comes before `setFwkInputPPData`, what that does before the reservation, its
`getBufDef` after it, and `processData`. -/
structure RequestCalls where
  allocated : Bool := true
  prepared : Bool := true
  getBufDef : Bool := true
  processData : Bool := true
  deriving DecidableEq

/-- The fields of `QCamera3ProcessingChannel` for offline metadata, with the jobs and the frame numbers of the
requests. -/
structure OfflineChannel where
  mOfflineMetaMemory : StreamMem
  mFreeOfflineMetaBuffersList : List ℕ
  jobs : List OfflineJob := []
  requested : List ℕ := []

namespace OfflineChannel

/-- `getHeapBufferIndex`. -/
def getHeapBufferIndex (m : StreamMem) (frameNumber : ℕ) : Option ℕ :=
  m.heap.findIdx? fun n => n == (frameNumber : ℤ)

/-- The number of the metadata buffers. -/
def count (s : OfflineChannel) : ℕ := s.mOfflineMetaMemory.heap.length

/-- `initialize`, where the memory is allocated. `count` is `mNumBuffers` and one for each further stage of
the reprocessing. -/
def init (count : ℕ) : OfflineChannel where
  mOfflineMetaMemory := { mMaxHeapBuffers := count, heap := List.replicate count (-1) }
  mFreeOfflineMetaBuffersList := List.range count

/-- `setFwkInputPPData`: the metadata buffer, if all goes well. -/
def setFwkInputPPData (s : OfflineChannel) (frameNumber : ℕ) (calls : RequestCalls) : Option ℕ × OfflineChannel :=
  if !calls.prepared then (none, s)
  else
    match s.mFreeOfflineMetaBuffersList with
    | [] => (none, s)
    | metaBufIdx :: rest =>
      let s := { s with
        mFreeOfflineMetaBuffersList := rest
        mOfflineMetaMemory := (s.mOfflineMetaMemory.markFrameNumber metaBufIdx frameNumber).2 }
      if calls.getBufDef then (some metaBufIdx, s) else (none, s)

/-- `request`, with an input buffer. What `processData` answers is not looked at. -/
def request (s : OfflineChannel) (frameNumber : ℕ) (reprocessType : ReprocessType)
    (calls : RequestCalls) : OfflineChannel :=
  let s := { s with requested := s.requested ++ [frameNumber] }
  if !calls.allocated then s
  else
    match s.setFwkInputPPData frameNumber calls with
    | (none, s) => s
    | (some metaBufIdx, s) =>
      if calls.processData then
        { s with jobs := s.jobs ++ [{
            frameNumber := frameNumber
            metaBufIdx := metaBufIdx
            reprocessType := reprocessType
            stage := if reprocessType = .none then .encoding else .queued }] }
      else s

/-- `releaseOfflineMemory`, of the metadata. -/
def releaseOfflineMemory (s : OfflineChannel) (resultFrameNumber : ℕ) : OfflineChannel :=
  { s with mFreeOfflineMetaBuffersList := s.mFreeOfflineMetaBuffersList ++
      (getHeapBufferIndex s.mOfflineMetaMemory resultFrameNumber).toList }

/-- A job goes on. -/
def goOn (s : OfflineChannel) (job : OfflineJob) (stage : JobStage) : OfflineChannel :=
  { s with jobs := s.jobs.erase job ++ [{ job with stage := stage }] }

/-- A job is over. -/
def drop (s : OfflineChannel) (job : OfflineJob) : OfflineChannel := { s with jobs := s.jobs.erase job }

/-- `DO_NEXT_JOB`, of a job to reprocess. One that cannot be started is freed. -/
def startReprocess (s : OfflineChannel) (job : OfflineJob) (started : Bool) : OfflineChannel :=
  if started then s.goOn job .reprocessing else s.drop job

/-- `streamCbRoutine` of the reprocess channel: `copied` is the allocation of the frame for the encoder,
`processed` whether `processPPData` makes its JPEG job. Other outputs go to `reprocessCbRoutine`. -/
def streamCbRoutine (s : OfflineChannel) (job : OfflineJob) (copied processed : Bool) :
    OfflineChannel :=
  if job.reprocessType = .jpeg then
    if !copied then s
    else
      let s := s.releaseOfflineMemory job.frameNumber
      if processed then s.goOn job .encoding else s.drop job
  else (s.releaseOfflineMemory job.frameNumber).drop job

/-- `DO_NEXT_JOB`, of a job to encode. One that cannot be started is freed. -/
def startJpeg (s : OfflineChannel) (job : OfflineJob) (started : Bool) : OfflineChannel :=
  if started then s else s.drop job

/-- `jpegEvtHandle`. -/
def jpegEvtHandle (s : OfflineChannel) (job : OfflineJob) : OfflineChannel :=
  (s.releaseOfflineMemory job.frameNumber).drop job

/-- `stop`: the jobs are freed. -/
def stop (s : OfflineChannel) : OfflineChannel := { s with jobs := [] }

/-- `putStreamBufs`: all metadata buffers are reclaimed. -/
def putStreamBufs (s : OfflineChannel) : OfflineChannel :=
  { s with mFreeOfflineMetaBuffersList := List.range s.count }

end OfflineChannel

/-- Requests, the steps of their jobs, and the end of the stream. -/
inductive Event
  | request (frameNumber : ℕ) (reprocessType : ReprocessType) (calls : RequestCalls)
  | startReprocess (job : OfflineJob) (started : Bool)
  | streamCbRoutine (job : OfflineJob) (copied processed : Bool)
  | startJpeg (job : OfflineJob) (started : Bool)
  | jpegEvtHandle (job : OfflineJob)
  | stop
  | putStreamBufs
  deriving DecidableEq

namespace OfflineChannel

variable {s t : OfflineChannel}

/-- The events that can happen. A job is at the stage that the event is for, and a frame number is new. -/
def step (s : OfflineChannel) : Event → Option OfflineChannel
  | .request frameNumber reprocessType calls =>
    if frameNumber ∈ s.requested then none else some (s.request frameNumber reprocessType calls)
  | .startReprocess job started =>
    if job ∈ s.jobs ∧ job.stage = .queued then some (s.startReprocess job started) else none
  | .streamCbRoutine job copied processed =>
    if job ∈ s.jobs ∧ job.stage = .reprocessing then some (s.streamCbRoutine job copied processed)
    else none
  | .startJpeg job started =>
    if job ∈ s.jobs ∧ job.stage = .encoding then some (s.startJpeg job started) else none
  | .jpegEvtHandle job =>
    if job ∈ s.jobs ∧ job.stage = .encoding then some (s.jpegEvtHandle job) else none
  | .stop => some s.stop
  | .putStreamBufs => some s.putStreamBufs

/-- Each metadata buffer is free once or reserved by one job, never both, and nothing else is. -/
def Conserved (s : OfflineChannel) : Prop :=
  ∀ i, s.mFreeOfflineMetaBuffersList.count i + (s.jobs.map OfflineJob.metaBufIdx).count i =
    if i < s.count then 1 else 0

/-- The condition on the events. Nothing fails behind the reservation, no picture goes from the reprocessing to
the encoder, and no job is under way when the stream ends. -/
def Whole (s : OfflineChannel) : Event → Prop
  | .request _ _ calls => calls.allocated = true → calls.prepared = true →
      s.mFreeOfflineMetaBuffersList ≠ [] → calls.getBufDef = true ∧ calls.processData = true
  | .startReprocess _ started => started = true
  | .streamCbRoutine job copied processed =>
    job.reprocessType = .jpeg → copied = true → processed = false
  | .startJpeg _ started => started = true
  | .jpegEvtHandle _ => True
  | .stop => s.jobs = []
  | .putStreamBufs => s.jobs = []

instance (s : OfflineChannel) (e : Event) : Decidable (s.Whole e) := by
  delta Whole
  cases e <;> infer_instance

/-! ### The marks -/

/-- Marks that are not -1 differ. -/
def Distinct (marks : List ℤ) : Prop :=
  ∀ (i j : ℕ) (n : ℕ), marks[i]? = some (n : ℤ) → marks[j]? = some (n : ℤ) → i = j

theorem getHeapBufferIndex_eq {m : StreamMem} (hdistinct : Distinct m.heap) {i n : ℕ}
    (hmark : m.heap[i]? = some (n : ℤ)) : getHeapBufferIndex m n = some i :=
  StreamMem.findIdx?_mark hmark fun j hj => hdistinct j i n hj hmark

theorem distinct_set {marks : List ℤ} (h : Distinct marks) {i n : ℕ}
    (hnew : (n : ℤ) ∉ marks) : Distinct (marks.set i n) := by
  have hcases (j k : ℕ) (hj : (marks.set i n)[j]? = some (k : ℤ)) :
      (j = i ∧ k = n) ∨ (j ≠ i ∧ k ≠ n ∧ marks[j]? = some (k : ℤ)) := by
    rw [getElem?_set] at hj
    by_cases hij : i = j
    · subst hij
      rw [if_pos rfl] at hj
      split at hj
      · exact .inl ⟨rfl, Int.ofNat.inj (Option.some.inj hj).symm⟩
      · cases hj
    · rw [if_neg hij] at hj
      refine .inr ⟨fun heq => hij heq.symm, fun heq => ?_, hj⟩
      exact hnew (heq ▸ mem_of_getElem? hj)
  intro j k m hj hk
  rcases hcases j m hj with ⟨hji, hm⟩ | ⟨hji, hm, hj⟩
  · rcases hcases k m hk with ⟨hki, -⟩ | ⟨-, hne, -⟩
    · rw [hji, hki]
    · exact absurd hm hne
  · rcases hcases k m hk with ⟨-, heq⟩ | ⟨-, -, hk⟩
    · exact absurd heq hm
    · exact h j k m hj hk

/-! ### The invariant -/

/-- The marks are frame numbers of requests, and each job finds its buffer by its own. -/
structure Tracked (s : OfflineChannel) : Prop where
  heap : s.mOfflineMetaMemory.mMaxHeapBuffers = s.count
  marks : Distinct s.mOfflineMetaMemory.heap
  requested : ∀ n : ℕ, (n : ℤ) ∈ s.mOfflineMetaMemory.heap → n ∈ s.requested
  job : ∀ job ∈ s.jobs, s.mOfflineMetaMemory.heap[job.metaBufIdx]? = some (job.frameNumber : ℤ)
  conserved : s.Conserved

theorem tracked_init (count : ℕ) : (init count).Tracked where
  heap := (length_replicate ..).symm
  marks i j n hi := by
    have hmem := eq_of_mem_replicate (mem_of_getElem? hi)
    omega
  requested n hn := by
    have hmem := eq_of_mem_replicate hn
    omega
  job := fun _ => nofun
  conserved i := by
    change (range count).count i + 0 = if i < (replicate count (-1 : ℤ)).length then 1 else 0
    rw [length_replicate, Nat.add_zero, nodup_range.count]
    simp only [mem_range]

theorem Conserved.of_free (h : s.Conserved) {i : ℕ} (hi : i ∈ s.mFreeOfflineMetaBuffersList) :
    i < s.count ∧ ∀ job ∈ s.jobs, job.metaBufIdx ≠ i := by
  have hone := one_le_count_iff.mpr hi
  have hcount := h i
  split at hcount
  · refine ⟨‹_›, fun job hjob heq => ?_⟩
    have hmem : i ∈ s.jobs.map OfflineJob.metaBufIdx := mem_map.mpr ⟨job, hjob, heq⟩
    have hjobs := one_le_count_iff.mpr hmem
    omega
  · omega

theorem mem_goOn {job j : OfflineJob} {stage : JobStage} (hj : j ∈ (s.goOn job stage).jobs) :
    j ∈ s.jobs ∨ j = { job with stage := stage } :=
  (mem_append.mp hj).imp mem_of_mem_erase mem_singleton.mp

theorem count_jobs {job : OfflineJob} (hjob : job ∈ s.jobs) (i : ℕ) : (s.jobs.map OfflineJob.metaBufIdx).count i =
      ((s.jobs.erase job).map OfflineJob.metaBufIdx).count i + [job.metaBufIdx].count i := by
  have hperm := ((perm_cons_erase hjob).map OfflineJob.metaBufIdx).count_eq i
  rw [hperm, map_cons, ← singleton_append, count_append, Nat.add_comm]

theorem Tracked.goOn (h : s.Tracked) {job : OfflineJob} (hjob : job ∈ s.jobs) (stage : JobStage) :
    (s.goOn job stage).Tracked := by
  refine ⟨h.heap, h.marks, h.requested, fun j hj => ?_, fun i => ?_⟩
  · rcases mem_goOn hj with hj | rfl
    · exact h.job j hj
    · exact h.job job hjob
  · have hcount := h.conserved i
    rw [count_jobs hjob] at hcount
    rw [OfflineChannel.goOn, map_append, count_append, ← Nat.add_assoc]
    rw [← Nat.add_assoc] at hcount
    exact hcount

theorem Tracked.release (h : s.Tracked) {job : OfflineJob} (hjob : job ∈ s.jobs) :
    ((s.releaseOfflineMemory job.frameNumber).drop job).Tracked := by
  have hindex := getHeapBufferIndex_eq h.marks (h.job job hjob)
  refine ⟨h.heap, h.marks, h.requested, fun j hj => h.job j (mem_of_mem_erase hj), fun i => ?_⟩
  have hcount := h.conserved i
  rw [count_jobs hjob] at hcount
  rw [drop, releaseOfflineMemory, hindex, Option.toList_some]
  change (s.mFreeOfflineMetaBuffersList ++ [job.metaBufIdx]).count i +
    ((s.jobs.erase job).map OfflineJob.metaBufIdx).count i = if i < s.count then 1 else 0
  rw [count_append]
  omega

/-- **A request** reserves the first free buffer for its job, or fails before. -/
theorem Tracked.request (h : s.Tracked) {frameNumber : ℕ} (hnew : frameNumber ∉ s.requested)
    {reprocessType : ReprocessType} {calls : RequestCalls}
    (hwhole : s.Whole (.request frameNumber reprocessType calls)) :
    (s.request frameNumber reprocessType calls).Tracked := by
  have hfailed : Tracked { s with requested := s.requested ++ [frameNumber] } :=
    ⟨h.heap, h.marks, fun n hn => mem_append_left _ (h.requested n hn), h.job, h.conserved⟩
  obtain ⟨allocated, prepared, getBufDef, processData⟩ := calls
  rw [OfflineChannel.request]
  cases allocated
  · exact hfailed
  cases prepared
  · exact hfailed
  by_cases hnil : s.mFreeOfflineMetaBuffersList = []
  · simp only [setFwkInputPPData, hnil, Bool.not_true, Bool.false_eq_true, if_false]
    rw [hnil] at hfailed
    exact hfailed
  obtain ⟨rfl, rfl⟩ : getBufDef = true ∧ processData = true := hwhole rfl rfl hnil
  obtain ⟨metaBufIdx, rest, hfree⟩ := exists_cons_of_ne_nil hnil
  obtain ⟨hlt, hjobs⟩ := h.conserved.of_free (hfree ▸ mem_cons_self : metaBufIdx ∈ _)
  have hlength : metaBufIdx < s.mOfflineMetaMemory.heap.length := hlt
  have hmark : (s.mOfflineMetaMemory.markFrameNumber metaBufIdx frameNumber).2 =
      { s.mOfflineMetaMemory with heap := s.mOfflineMetaMemory.heap.set metaBufIdx frameNumber } := by
    rw [StreamMem.markFrameNumber, if_pos (h.heap ▸ hlt), if_pos hlength]
  have hfresh : (frameNumber : ℤ) ∉ s.mOfflineMetaMemory.heap := fun hmem =>
    hnew (h.requested frameNumber hmem)
  simp only [setFwkInputPPData, hfree, Bool.not_true, Bool.false_eq_true, if_false, if_true, hmark]
  refine ⟨?_, distinct_set h.marks hfresh, fun n hn => ?_, fun j hj => ?_, fun i => ?_⟩
  · exact h.heap.trans (length_set ..).symm
  · rcases mem_or_eq_of_mem_set hn with hn | hn
    · exact mem_append_left _ (h.requested n hn)
    · exact mem_append_right _ (mem_singleton.mpr (by omega))
  · rcases mem_append.mp hj with hj | hj
    · exact (getElem?_set_ne fun heq => hjobs j hj heq.symm).trans (h.job j hj)
    · obtain rfl := mem_singleton.mp hj
      exact getElem?_set_self hlt
  · have hcount := h.conserved i
    rw [hfree] at hcount
    change rest.count i + (((s.jobs ++ [_]).map OfflineJob.metaBufIdx).count i) =
      if i < (s.mOfflineMetaMemory.heap.set metaBufIdx frameNumber).length then 1 else 0
    rw [length_set, map_append, count_append]
    rw [← singleton_append, count_append] at hcount
    change _ + (_ + [metaBufIdx].count i) = if i < s.count then 1 else 0
    omega

theorem Tracked.reclaim (h : s.Tracked) (hjobs : s.jobs = []) :
    Tracked { s with mFreeOfflineMetaBuffersList := range s.count } where
  heap := h.heap
  marks := h.marks
  requested := h.requested
  job := h.job
  conserved i := by
    change (range s.count).count i + (s.jobs.map OfflineJob.metaBufIdx).count i =
      if i < s.count then 1 else 0
    rw [hjobs, nodup_range.count]
    simp only [mem_range, map_nil, count_nil, Nat.add_zero]

/-! ### Every run -/

/-- **One event.** -/
theorem Tracked.step (h : s.Tracked) {e : Event} (hwhole : s.Whole e) (hstep : s.step e = some t) : t.Tracked := by
  cases e with
  | request frameNumber reprocessType calls =>
    rw [OfflineChannel.step] at hstep
    split at hstep
    · cases hstep
    · cases hstep
      exact h.request ‹_› hwhole
  | startReprocess job started =>
    rw [OfflineChannel.step] at hstep
    split at hstep
    · rename_i hjob
      cases hstep
      obtain rfl : started = true := hwhole
      exact h.goOn hjob.1 .reprocessing
    · cases hstep
  | streamCbRoutine job copied processed =>
    rw [OfflineChannel.step] at hstep
    split at hstep
    · rename_i hjob
      cases hstep
      rw [OfflineChannel.streamCbRoutine]
      split
      · rename_i hjpeg
        cases copied with
        | false => exact h
        | true =>
          obtain rfl : processed = false := hwhole hjpeg rfl
          exact h.release hjob.1
      · exact h.release hjob.1
    · cases hstep
  | startJpeg job started =>
    rw [OfflineChannel.step] at hstep
    split at hstep
    · cases hstep
      obtain rfl : started = true := hwhole
      exact h
    · cases hstep
  | jpegEvtHandle job =>
    rw [OfflineChannel.step] at hstep
    split at hstep
    · rename_i hjob
      cases hstep
      exact h.release hjob.1
    · cases hstep
  | stop =>
    cases hstep
    have hjobs : s.jobs = [] := hwhole
    rw [show s.stop = s by rw [OfflineChannel.stop, ← hjobs]]
    exact h
  | putStreamBufs =>
    cases hstep
    exact h.reclaim hwhole

/-- **The metadata buffers of offline jobs.** In every run whose events meet the condition each buffer is free
once or reserved by one job. -/
theorem offline_metadata_run {count : ℕ} {es : List Event}
    (h : Run (guarded Whole (fires step)) (init count) es s) : s.Conserved :=
  (h.invariant (fun _ _ _ htracked hstep => htracked.step hstep.1 hstep.2) (tracked_init count)).conserved

/-- Two buffers. A frame is reprocessed for another output, one is encoded at once, and the JPEG job of a
reprocessed picture cannot be made. -/
def offlineSession : List Event :=
  [.request 5 .yuv {}, .request 6 .none {}, .startReprocess ⟨5, 0, .yuv, .queued⟩ true,
    .streamCbRoutine ⟨5, 0, .yuv, .reprocessing⟩ true true, .request 7 .jpeg { allocated := false },
    .request 8 .jpeg {}, .startReprocess ⟨8, 0, .jpeg, .queued⟩ true,
    .streamCbRoutine ⟨8, 0, .jpeg, .reprocessing⟩ true false, .startJpeg ⟨6, 1, .none, .encoding⟩ true,
    .jpegEvtHandle ⟨6, 1, .none, .encoding⟩, .request 9 .priv {}]

/-- The buffers of the session are conserved. -/
theorem offline_metadata_session : ∃ s, Run (guarded Whole (fires step)) (init 2) offlineSession s ∧ s.Conserved ∧
      s.mFreeOfflineMetaBuffersList = [1] ∧ s.jobs = [⟨9, 0, .priv, .queued⟩] :=
  (exists_run (by decide)).imp fun _ h => ⟨h.1, offline_metadata_run h.1, h.2⟩

/-- A picture is reprocessed and encoded; then three frames are reprocessed at the same time. -/
def pictureThenThree : List Event :=
  [.request 5 .jpeg {}, .startReprocess ⟨5, 0, .jpeg, .queued⟩ true,
    .streamCbRoutine ⟨5, 0, .jpeg, .reprocessing⟩ true true, .jpegEvtHandle ⟨5, 0, .jpeg, .encoding⟩,
    .request 6 .yuv {}, .request 7 .yuv {}, .request 8 .yuv {}]

/-- The buffer of the picture is given back twice, and two of the frames share it. -/
theorem picture_shares_metadata : ∃ s, Run (fires step) (init 2) pictureThenThree s ∧
      s.jobs = [⟨6, 1, .yuv, .queued⟩, ⟨7, 0, .yuv, .queued⟩, ⟨8, 0, .yuv, .queued⟩] ∧ ¬ s.Conserved := by
  refine (exists_run_fires (by decide)).imp fun s h => ⟨h.1, h.2, fun hconserved => ?_⟩
  have hcount := hconserved 0
  rw [h.2] at hcount
  change _ + 2 = _ at hcount
  split at hcount <;> omega

end OfflineChannel

end OfflineMetadata

end Marlin
