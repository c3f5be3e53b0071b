import Marlin.CmdThread
import Marlin.OngoingJobs

/-!
# The Wake-Ups of the Post-Processor

What comes in for `dataProcessRoutine` is announced by a `DO_NEXT_JOB` command: a source frame if there is
metadata and metadata if there is a frame, each input of the framework, each JPEG job. A command starts
one encoding if none is ongoing, takes one input of the framework, and takes one frame with one metadata.
The end of an encoding sends one more command, since the jobs that waited for it have had theirs.

The commands are allocated. Where that fails `sendCmd` says so, and nobody looks.

## Conventions

* A call does its work on the queues in one step and then has its commands to send (`unsent`). A command
  is executed part by part. Anything else falls between these steps.
* `START_DATA_PROC` and `STOP_DATA_PROC` are executed with the calls that send them. The commands in the
  queue are `DO_NEXT_JOB`.
* Where the allocation of `processData` fails, it returns with `mReprocJobLock` held.

## Main results

* `Announced.step`: what one event preserves.
* `next_jobs_run`: while data processing is active there are commands for what is in the queues, as long
  as the commands are allocated.
-/

namespace Marlin

open List Option Bool Transition

/-- What is left to do of a `DO_NEXT_JOB`. -/
inductive NextPart
  | idle
  | encode
  | fwk
  | live
  deriving DecidableEq

/-- The post-processor with its thread: the commands, those that calls still have to send, and the command
that is executed. -/
structure JobThread where
  pp : PostProcessor := {}
  dataProcTh : QCameraCmdThread := {}
  unsent : ℕ := 0
  part : NextPart := .idle
  reprocJobLock : Bool := false

/-- What comes in, the commands, and what comes back. -/
inductive ThreadEvent
  | processData (f : PpFrame) (allocated : Bool)
  | processPPMetadata (m : PpMetadata)
  | processJpegSettingData (jpegSettings : JpegSettings)
  | processFwkData (f : FwkInput) (allocated : Bool)
  | send (mallocCmd mallocNode : Bool)
  | start (reprocessType : ReprocessType) (calls : PpStartCalls)
  | stop (bufDone : ℕ → Bool)
  | next (bufDone : Bool)
  | encode (encoded : Bool)
  | startFwk (calls : FwkCalls)
  | startLive (calls : LiveCalls)
  | jpegReprocessed (f : PpFrame) (copied allocated : Bool)
  | outputReprocessed
  | jpegDone
  | flush

namespace JobThread

open PostProcessor JobAccount

variable {s t : JobThread}

/-- The `DO_NEXT_JOB` commands in the queue. -/
def pending (s : JobThread) : ℕ := s.dataProcTh.cmdQueue.nodes.count .doNextJob

/-- `processData`, of a frame: a command if there is metadata. -/
def processData (s : JobThread) (f : PpFrame) (allocated : Bool) : JobThread :=
  if allocated then
    { s with
      pp := s.pp.processData f
      unsent := s.unsent + if s.pp.inputMetaQ = [] then 0 else 1 }
  else { s with reprocJobLock := true }

/-- `processPPMetadata`: a command if there is a frame. -/
def processPPMetadata (s : JobThread) (m : PpMetadata) : JobThread :=
  { s with
    pp := s.pp.processPPMetadata m
    unsent := s.unsent + if s.pp.inputPPQ = [] then 0 else 1 }

/-- Whether `processData` of an input of the framework enqueues it, or a JPEG job for it. -/
def fwkEnqueued (pp : PostProcessor) (f : FwkInput) (allocated : Bool) : Bool :=
  f.reprocessType ≠ .none || (!pp.jpegSettingsQ.isEmpty && allocated)

/-- `processData`, of an input of the framework: a command for what it enqueues. -/
def processFwkData (s : JobThread) (f : FwkInput) (allocated : Bool) : JobThread :=
  { s with
    pp := s.pp.processFwkData f allocated
    unsent := s.unsent + if fwkEnqueued s.pp f allocated then 1 else 0 }

/-- A command is sent. -/
def send (s : JobThread) (mallocCmd mallocNode : Bool) : JobThread :=
  { s with
    dataProcTh := (s.dataProcTh.sendCmd mallocCmd mallocNode .doNextJob false).2
    unsent := s.unsent - 1 }

/-- The next command of the thread. While it is not active, a `DO_NEXT_JOB` drops what is at the heads. -/
def next (s : JobThread) (bufDone : Bool) : Option JobThread :=
  s.dataProcTh.getCmd.map fun r =>
    if r.1 = .doNextJob then
      if s.pp.isActive then { s with dataProcTh := r.2, part := .encode }
      else { s with dataProcTh := r.2, pp := s.pp.dropNext bufDone }
    else { s with dataProcTh := r.2 }

/-- The first part. The release of a job whose encoding is not started sends a command. -/
def encode (s : JobThread) (encoded : Bool) : JobThread :=
  { s with
    pp := s.pp.startJpeg encoded
    part := .fwk
    unsent := s.unsent +
      if encoded = false ∧ s.pp.ongoingJpegQ = [] ∧ s.pp.inputJpegQ ≠ [] then 1 else 0 }

/-- The third part. Without a reprocess channel a JPEG job is enqueued, with a command. -/
def startLive (s : JobThread) (calls : LiveCalls) : JobThread :=
  { s with
    pp := s.pp.startLive calls
    part := .idle
    unsent := s.unsent +
      match s.pp.inputPPQ, s.pp.inputMetaQ with
      | frame :: _, reprocMeta :: _ =>
        if s.pp.reprocChannel = false ∧ liveStarts s.pp (liveJob s.pp frame reprocMeta) frame calls = true then 1 else 0
      | _, _ => 0 }

/-- `stop`: each job that is released sends a command. -/
def stop (s : JobThread) (bufDone : ℕ → Bool) : JobThread :=
  { s with
    pp := s.pp.stop bufDone
    unsent := s.unsent + s.pp.ongoingJpegQ.length + s.pp.ongoingPPQ.length + s.pp.inputJpegQ.length }

/-- The end of a reprocessing, for a JPEG: a command for the JPEG job. -/
def jpegReprocessed (s : JobThread) (f : PpFrame) (copied allocated : Bool) : JobThread :=
  { s with
    pp := s.pp.jpegReprocessed f copied allocated
    unsent := s.unsent + if copied && (s.pp.processPPData f allocated).1 then 1 else 0 }

/-- The end of a reprocessing, for another output: the release of the job sends a command. -/
def outputReprocessed (s : JobThread) : JobThread :=
  { s with
    pp := s.pp.outputReprocessed
    unsent := s.unsent + if s.pp.ongoingPPQ = [] then 0 else 1 }

/-- `jpegEvtHandle`: the job leaves its queue, and its release sends a command. -/
def jpegDone (s : JobThread) : JobThread :=
  { s with
    pp := s.pp.findJpegJob.2
    unsent := s.unsent + if s.pp.ongoingJpegQ = [] then 0 else 1 }

/-- `flush`: each job that is released sends a command. -/
def flush (s : JobThread) : JobThread :=
  { s with pp := s.pp.flush, unsent := s.unsent + s.pp.ongoingJpegQ.length }

/-- The events that can happen. What needs `mReprocJobLock` waits for it, and the thread executes one
command after the other. -/
def step (s : JobThread) : ThreadEvent → Option JobThread
  | .processData f allocated => if s.reprocJobLock then none else some (s.processData f allocated)
  | .processPPMetadata m => if s.reprocJobLock then none else some (s.processPPMetadata m)
  | .processJpegSettingData jpegSettings =>
    some { s with pp := s.pp.processJpegSettingData jpegSettings }
  | .processFwkData f allocated =>
    if s.reprocJobLock ∧ f.reprocessType ≠ .none then none else some (s.processFwkData f allocated)
  | .send mallocCmd mallocNode => if s.unsent = 0 then none else some (s.send mallocCmd mallocNode)
  | .start reprocessType calls => some { s with pp := s.pp.start reprocessType calls }
  | .stop bufDone => if s.part = .idle then some (s.stop bufDone) else none
  | .next bufDone => if s.part = .idle then s.next bufDone else none
  | .encode encoded => if s.part = .encode then some (s.encode encoded) else none
  | .startFwk calls =>
    if s.part = .fwk then some { s with pp := s.pp.startFwk calls, part := .live } else none
  | .startLive calls =>
    if s.part = .live ∧ s.reprocJobLock = false then some (s.startLive calls) else none
  | .jpegReprocessed f copied allocated => some (s.jpegReprocessed f copied allocated)
  | .outputReprocessed => some s.outputReprocessed
  | .jpegDone => some s.jpegDone
  | .flush => some s.flush

/-- Before the first call. -/
structure Initial (s : JobThread) : Prop where
  isActive : s.pp.isActive = false
  inputPPQ : s.pp.inputPPQ = []
  inputFWKPPQ : s.pp.inputFWKPPQ = []
  inputJpegQ : s.pp.inputJpegQ = []
  cmdQueue : s.dataProcTh.cmdQueue.active = true
  part : s.part = .idle

/-- The command and its node are allocated. -/
def Allocates : ThreadEvent → Prop
  | .send mallocCmd mallocNode => mallocCmd = true ∧ mallocNode = true
  | _ => True

instance (e : ThreadEvent) : Decidable (Allocates e) := by
  delta Allocates
  cases e <;> infer_instance

/-- The commands that are there or will be sent. -/
def announced (s : JobThread) : ℕ := s.pending + s.unsent

/-- There are commands for what is in the queues, with the one that is executed. -/
structure Announced (s : JobThread) : Prop where
  active : s.dataProcTh.cmdQueue.active = true
  off : s.pp.queuesActive = false → s.pp.isActive = false
  live : min s.pp.inputPPQ.length s.pp.inputMetaQ.length ≤ s.announced + if s.part = .idle then 0 else 1
  fwk : s.pp.inputFWKPPQ.length ≤ s.announced + if s.part = .encode ∨ s.part = .fwk then 1 else 0
  jpeg : s.pp.inputJpegQ ≠ [] → s.pp.ongoingJpegQ ≠ [] ∨ 0 < s.announced ∨ s.part = .encode
  idle : s.pp.isActive = false → s.part = .idle ∧ s.pp.inputJpegQ.length ≤ s.announced

theorem announced_initial (h : s.Initial) : s.Announced where
  active := h.cmdQueue
  off := fun _ => h.isActive
  live := by simp [h.inputPPQ]
  fwk := by simp [h.inputFWKPPQ]
  jpeg := fun hne => absurd h.inputJpegQ hne
  idle := fun _ => ⟨h.part, by simp [h.inputJpegQ]⟩

/-! ### What the parts do to the queues -/

theorem length_enqueue {α : Type} (active : Bool) (queue : List α) (a : α) :
    (enqueue active queue a).length ≤ queue.length + 1 := by
  rw [enqueue]
  split
  · rw [length_append]
    exact Nat.le_refl _
  · exact Nat.le_succ _

theorem processPPData_fst {pp pp' : PostProcessor} (h : pp.ongoingPPQ = pp'.ongoingPPQ)
    (f : PpFrame) (allocated : Bool) :
    (pp.processPPData f allocated).1 = (pp'.processPPData f allocated).1 := by
  rw [processPPData, processPPData, h]
  cases pp'.ongoingPPQ with
  | nil => rfl
  | cons job rest => exact queueJpegJob_fst _ _ job f allocated

theorem processPPData_jpegs (pp : PostProcessor) (f : PpFrame) (allocated : Bool) :
    (pp.processPPData f allocated).2.inputJpegQ = pp.inputJpegQ ∨ ((pp.processPPData f allocated).1 = true ∧
        (pp.processPPData f allocated).2.inputJpegQ.length ≤ pp.inputJpegQ.length + 1) := by
  rw [processPPData]
  cases pp.ongoingPPQ with
  | nil => exact .inl rfl
  | cons job rest =>
    dsimp only
    rw [queueJpegJob]
    cases job.jpegSettings with
    | none => exact .inl rfl
    | some settings =>
      dsimp only
      split
      · exact .inl rfl
      · exact .inr ⟨rfl, length_enqueue _ _ _⟩

theorem startFwk_queues (pp : PostProcessor) (calls : FwkCalls) : (pp.startFwk calls).isActive = pp.isActive ∧
      (pp.startFwk calls).queuesActive = pp.queuesActive ∧
      (pp.startFwk calls).inputPPQ = pp.inputPPQ ∧ (pp.startFwk calls).inputMetaQ = pp.inputMetaQ ∧
      (pp.startFwk calls).inputFWKPPQ = pp.inputFWKPPQ.tail ∧
      (pp.startFwk calls).inputJpegQ = pp.inputJpegQ ∧
      (pp.startFwk calls).ongoingJpegQ = pp.ongoingJpegQ := by
  rw [PostProcessor.startFwk]
  split
  · rename_i hinput
    rw [hinput]
    exact ⟨rfl, rfl, rfl, rfl, rfl, rfl, rfl⟩
  · rename_i frame rest hinput
    rw [hinput, startFwkJob]
    split
    · exact ⟨rfl, rfl, rfl, rfl, rfl, rfl, rfl⟩
    · split <;> exact ⟨rfl, rfl, rfl, rfl, rfl, rfl, rfl⟩

theorem startLiveJob_queues (pp pp' : PostProcessor) (job : PpJob) (frame : PpFrame)
    (calls : LiveCalls) (hqueues : pp.queuesActive = pp'.queuesActive)
    (hongoing : pp.ongoingPPQ = pp'.ongoingPPQ) (hchannel : pp.reprocChannel = pp'.reprocChannel) :
    (pp.startLiveJob job frame calls).isActive = pp.isActive ∧
      (pp.startLiveJob job frame calls).queuesActive = pp.queuesActive ∧
      (pp.startLiveJob job frame calls).inputPPQ = pp.inputPPQ ∧
      (pp.startLiveJob job frame calls).inputMetaQ = pp.inputMetaQ ∧
      (pp.startLiveJob job frame calls).inputFWKPPQ = pp.inputFWKPPQ ∧
      (pp.startLiveJob job frame calls).ongoingJpegQ = pp.ongoingJpegQ ∧
      ((pp.startLiveJob job frame calls).inputJpegQ = pp.inputJpegQ ∨
        (pp'.reprocChannel = false ∧ liveStarts pp' job frame calls = true)) := by
  obtain ⟨allocated, overridden, reprocessed, jpegAllocated, bufDone⟩ := calls
  rw [startLiveJob]
  simp only [releaseSuperBuf_frame]
  split
  · exact ⟨rfl, rfl, rfl, rfl, rfl, rfl, .inl rfl⟩
  · rename_i hallocated
    split
    · split
      · exact ⟨rfl, rfl, rfl, rfl, rfl, rfl, .inl rfl⟩
      · split <;> exact ⟨rfl, rfl, rfl, rfl, rfl, rfl, .inl rfl⟩
    · rename_i hdirect
      have hnone : pp'.reprocChannel = false := by
        rw [← hchannel]
        simpa using hdirect
      have hstarts : liveStarts pp' job frame ⟨allocated, overridden, reprocessed, jpegAllocated, bufDone⟩ =
          ((withLiveJob pp' job).processPPData frame jpegAllocated).1 := by
        rw [liveStarts, hnone]
        simp only [false_eq_true, if_false]
        have htrue : allocated = true := by simpa using hallocated
        rw [htrue, Bool.true_and]
      rw [hstarts]
      generalize hstarted : ({ pp with
        created := pp.created ++ [job.parts frame.frameNumber]
        ongoingPPQ := enqueue pp.queuesActive pp.ongoingPPQ job } : PostProcessor) = started
      have hfst : ((withLiveJob pp' job).processPPData frame jpegAllocated).1 =
          (started.processPPData frame jpegAllocated).1 := by
        refine processPPData_fst ?_ frame jpegAllocated
        rw [← hstarted, withLiveJob, hqueues, hongoing]
      obtain ⟨queue, created, heq, -⟩ := processPPData_frame started frame jpegAllocated
      have hjpegs := processPPData_jpegs started frame jpegAllocated
      rw [heq] at hjpegs
      have hend : (if (started.processPPData frame jpegAllocated).1 = true then
          (started.processPPData frame jpegAllocated).2
        else { (started.processPPData frame jpegAllocated).2 with
          parentBufs := (started.processPPData frame jpegAllocated).2.parentBufs ++
            if (frame.ofParent && bufDone) = true then [frame.bufIdx] else [] }) =
          { started with
            ongoingPPQ := started.ongoingPPQ.tail
            inputJpegQ := queue
            created := created
            parentBufs := if (started.processPPData frame jpegAllocated).1 = true then
              started.parentBufs else started.parentBufs ++
                if (frame.ofParent && bufDone) = true then [frame.bufIdx] else [] } := by
        rw [heq]
        split <;> rfl
      rw [hend, hfst]
      rw [← hstarted] at hjpegs ⊢
      exact ⟨rfl, rfl, rfl, rfl, rfl, rfl, hjpegs.imp_right fun htrue => ⟨hnone, htrue.1⟩⟩

/-! ### Calls -/

/-- **A call** that announces what it adds to the queues. -/
theorem Announced.call (h : s.Announced) {pp : PostProcessor} {commands : ℕ}
    (hoff : pp.queuesActive = false → pp.isActive = false)
    (hlive : min pp.inputPPQ.length pp.inputMetaQ.length ≤ min s.pp.inputPPQ.length s.pp.inputMetaQ.length + commands)
    (hfwk : pp.inputFWKPPQ.length ≤ s.pp.inputFWKPPQ.length + commands)
    (hjpeg : pp.inputJpegQ ≠ [] → 0 < commands ∨
      (s.pp.inputJpegQ ≠ [] ∧ (s.pp.ongoingJpegQ ≠ [] → pp.ongoingJpegQ ≠ [])))
    (hidle : pp.isActive = false → (s.part = .idle ∧ pp.inputJpegQ.length ≤ commands) ∨
      (s.pp.isActive = false ∧ pp.inputJpegQ.length ≤ s.pp.inputJpegQ.length + commands)) :
    Announced { s with pp := pp, unsent := s.unsent + commands } := by
  have hadd : announced { s with pp := pp, unsent := s.unsent + commands } =
      s.announced + commands := (Nat.add_assoc s.pending s.unsent commands).symm
  refine ⟨h.active, hoff, ?_, ?_, fun hne => ?_, fun hinactive => ?_⟩
  · have hold := h.live
    rw [hadd]
    change min pp.inputPPQ.length pp.inputMetaQ.length ≤ _ + commands + if s.part = .idle then 0 else 1
    omega
  · have hold := h.fwk
    rw [hadd]
    change pp.inputFWKPPQ.length ≤ _ + commands + if s.part = .encode ∨ s.part = .fwk then 1 else 0
    omega
  · rw [hadd]
    change pp.ongoingJpegQ ≠ [] ∨ _ ∨ s.part = .encode
    rcases hjpeg hne with hpos | ⟨hwaits, hkept⟩
    · exact .inr (.inl (Nat.add_pos_right _ hpos))
    · exact (h.jpeg hwaits).imp hkept (Or.imp_left fun hpos => Nat.add_pos_left hpos commands)
  · rw [hadd]
    change s.part = .idle ∧ pp.inputJpegQ.length ≤ _
    rcases hidle hinactive with ⟨hpart, hle⟩ | ⟨hold, hle⟩
    · exact ⟨hpart, Nat.le_trans hle (Nat.le_add_left _ _)⟩
    · have hjpegs := (h.idle hold).2
      exact ⟨(h.idle hold).1, by omega⟩

/-- A source frame: if there is metadata for it, it is announced. -/
theorem Announced.processData (h : s.Announced) (f : PpFrame) (allocated : Bool) :
    (s.processData f allocated).Announced := by
  rw [JobThread.processData]
  split
  · have hlength := length_enqueue s.pp.queuesActive s.pp.inputPPQ f
    refine h.call h.off ?_ (Nat.le_add_right _ _) (fun hne => .inr ⟨hne, id⟩)
      fun hoff => .inr ⟨hoff, Nat.le_add_right _ _⟩
    change min (enqueue s.pp.queuesActive s.pp.inputPPQ f).length s.pp.inputMetaQ.length ≤ _
    split
    · rename_i hmeta
      rw [hmeta]
      exact Nat.le_trans (Nat.min_le_right _ _) (Nat.zero_le _)
    · omega
  · exact ⟨h.active, h.off, h.live, h.fwk, h.jpeg, h.idle⟩

theorem Announced.processPPMetadata (h : s.Announced) (m : PpMetadata) : (s.processPPMetadata m).Announced := by
  have hlength := length_enqueue s.pp.queuesActive s.pp.inputMetaQ m
  refine h.call h.off ?_ (Nat.le_add_right _ _) (fun hne => .inr ⟨hne, id⟩)
    fun hoff => .inr ⟨hoff, Nat.le_add_right _ _⟩
  change min s.pp.inputPPQ.length (enqueue s.pp.queuesActive s.pp.inputMetaQ m).length ≤ _
  split
  · rename_i hinput
    rw [hinput]
    exact Nat.le_trans (Nat.min_le_left _ _) (Nat.zero_le _)
  · omega

theorem Announced.jpegCall (h : s.Announced) {pp : PostProcessor} {commands : ℕ}
    (hqueues : pp.queuesActive = s.pp.queuesActive) (hactive : pp.isActive = s.pp.isActive)
    (hinput : pp.inputPPQ = s.pp.inputPPQ) (hmeta : pp.inputMetaQ = s.pp.inputMetaQ)
    (hfwk : pp.inputFWKPPQ = s.pp.inputFWKPPQ) (hongoing : pp.ongoingJpegQ = s.pp.ongoingJpegQ)
    (hjpegs : pp.inputJpegQ = s.pp.inputJpegQ ∨
      (0 < commands ∧ pp.inputJpegQ.length ≤ s.pp.inputJpegQ.length + commands)) :
    Announced { s with pp := pp, unsent := s.unsent + commands } := by
  refine h.call (by rw [hqueues, hactive]; exact h.off)
    (by rw [hinput, hmeta]; exact Nat.le_add_right _ _) (by rw [hfwk]; exact Nat.le_add_right _ _)
    (fun hne => ?_) fun hinactive => .inr ⟨hactive ▸ hinactive, ?_⟩
  · rcases hjpegs with heq | ⟨hpos, -⟩
    · exact .inr ⟨heq ▸ hne, fun hbusy => hongoing ▸ hbusy⟩
    · exact .inl hpos
  · rcases hjpegs with heq | ⟨-, hle⟩
    · rw [heq]
      exact Nat.le_add_right _ _
    · exact hle

theorem Announced.processFwkData (h : s.Announced) (f : FwkInput) (allocated : Bool) :
    (s.processFwkData f allocated).Announced := by
  rw [JobThread.processFwkData, fwkEnqueued, PostProcessor.processFwkData]
  by_cases hreproc : f.reprocessType ≠ .none
  · rw [if_pos hreproc, decide_eq_true hreproc, Bool.true_or, if_pos rfl]
    exact h.call h.off (Nat.le_add_right _ _) (length_enqueue _ _ _) (fun hne => .inr ⟨hne, id⟩)
      fun hoff => .inr ⟨hoff, Nat.le_add_right _ _⟩
  · rw [if_neg hreproc, decide_eq_false hreproc, Bool.false_or]
    cases s.pp.jpegSettingsQ with
    | nil => exact h.jpegCall rfl rfl rfl rfl rfl rfl (.inl rfl)
    | cons settings rest =>
      cases allocated with
      | false => exact h.jpegCall rfl rfl rfl rfl rfl rfl (.inl rfl)
      | true =>
        exact h.jpegCall rfl rfl rfl rfl rfl rfl
          (.inr ⟨Nat.one_pos, length_enqueue s.pp.queuesActive s.pp.inputJpegQ _⟩)

theorem Announced.jpegReprocessed (h : s.Announced) (f : PpFrame) (copied allocated : Bool) :
    (s.jpegReprocessed f copied allocated).Announced := by
  rw [JobThread.jpegReprocessed, PostProcessor.jpegReprocessed]
  cases copied with
  | false => exact h.jpegCall rfl rfl rfl rfl rfl rfl (.inl rfl)
  | true =>
    rw [if_pos rfl, Bool.true_and, processPPData_fst
      (show s.pp.ongoingPPQ = { s.pp with reprocessing := s.pp.reprocessing.tail }.ongoingPPQ from rfl)]
    obtain ⟨queue, created, heq, -⟩ := processPPData_frame
      { s.pp with reprocessing := s.pp.reprocessing.tail } f allocated
    have hjpegs := processPPData_jpegs { s.pp with reprocessing := s.pp.reprocessing.tail } f allocated
    rw [heq] at hjpegs ⊢
    refine h.jpegCall rfl rfl rfl rfl rfl rfl (hjpegs.imp_right ?_)
    rintro ⟨hone, hlength⟩
    rw [if_pos hone]
    exact ⟨Nat.one_pos, hlength⟩

theorem Announced.outputReprocessed (h : s.Announced) : s.outputReprocessed.Announced :=
  h.jpegCall rfl rfl rfl rfl rfl rfl (.inl rfl)

theorem Announced.jpegDone (h : s.Announced) : s.jpegDone.Announced := by
  refine h.call h.off (Nat.le_add_right _ _) (Nat.le_add_right _ _) (fun hne => ?_)
    fun hoff => .inr ⟨hoff, Nat.le_add_right _ _⟩
  split
  · rename_i hongoing
    exact .inr ⟨hne, fun hbusy => absurd hongoing hbusy⟩
  · exact .inl Nat.one_pos

theorem Announced.flush (h : s.Announced) : s.flush.Announced := by
  refine h.call h.off (Nat.le_add_right _ _) (Nat.le_add_right _ _) (fun hne => ?_)
    fun hoff => .inr ⟨hoff, Nat.le_add_right _ _⟩
  cases hongoing : s.pp.ongoingJpegQ with
  | nil => exact .inr ⟨hne, fun hbusy => absurd rfl hbusy⟩
  | cons job rest => exact .inl (Nat.succ_pos _)

theorem Announced.same (h : s.Announced) {pp : PostProcessor} (hactive : (pp.isActive = true ∧ pp.queuesActive = true) ∨
      (pp.isActive = s.pp.isActive ∧ pp.queuesActive = s.pp.queuesActive))
    (hinput : pp.inputPPQ = s.pp.inputPPQ) (hmeta : pp.inputMetaQ = s.pp.inputMetaQ)
    (hfwk : pp.inputFWKPPQ = s.pp.inputFWKPPQ) (hjpegs : pp.inputJpegQ = s.pp.inputJpegQ)
    (hongoing : pp.ongoingJpegQ = s.pp.ongoingJpegQ) : Announced { s with pp := pp } := by
  have hcall : Announced { s with pp := pp, unsent := s.unsent + 0 } := by
    refine h.call (fun hoff => ?_) (by rw [hinput, hmeta]; exact Nat.le_refl _) (by rw [hfwk]; exact Nat.le_refl _)
      (fun hne => .inr ⟨hjpegs ▸ hne, fun hbusy => hongoing ▸ hbusy⟩) fun hinactive => ?_
    · rcases hactive with ⟨-, hon⟩ | ⟨hsame, hqueue⟩
      · rw [hon] at hoff
        cases hoff
      · exact hsame.trans (h.off (hqueue ▸ hoff))
    · rcases hactive with ⟨hon, -⟩ | ⟨hsame, -⟩
      · rw [hon] at hinactive
        cases hinactive
      · exact .inr ⟨hsame ▸ hinactive, by rw [hjpegs]; exact Nat.le_refl _⟩
  exact hcall

/-- The configuration switches the thread on, or leaves it off. -/
theorem Announced.start (h : s.Announced) (reprocessType : ReprocessType) (calls : PpStartCalls) :
    Announced { s with pp := s.pp.start reprocessType calls } := by
  rw [PostProcessor.start]
  split
  · exact h.same (.inl ⟨rfl, rfl⟩) rfl rfl rfl rfl rfl
  · dsimp only
    split
    · exact h.same (.inr ⟨rfl, rfl⟩) rfl rfl rfl rfl rfl
    · exact h.same (.inl ⟨rfl, rfl⟩) rfl rfl rfl rfl rfl

theorem stop_queues (pp : PostProcessor) (bufDone : ℕ → Bool) : (pp.stop bufDone).isActive = false ∧
      (((pp.stop bufDone).inputPPQ = [] ∧ (pp.stop bufDone).inputFWKPPQ = [] ∧ (pp.stop bufDone).inputJpegQ = []) ∨
        ((pp.stop bufDone).inputPPQ = pp.inputPPQ ∧ (pp.stop bufDone).inputMetaQ = pp.inputMetaQ ∧
          (pp.stop bufDone).inputFWKPPQ = pp.inputFWKPPQ ∧
          (pp.stop bufDone).inputJpegQ = pp.inputJpegQ)) := by
  rw [PostProcessor.stop]
  dsimp only
  split
  · obtain ⟨parentBufs, heq⟩ := releaseAll_frame bufDone (pp.ongoingPPQ.filterMap (·.srcFrame) ++ pp.inputPPQ) { pp with
        isActive := false
        ongoingJpegQ := []
        queuesActive := false
        ongoingPPQ := []
        inputJpegQ := []
        inputPPQ := []
        inputFWKPPQ := []
        inputMetaQ := []
        jpegSettingsQ := [] }
    rw [heq]
    exact ⟨rfl, .inl ⟨rfl, rfl, rfl⟩⟩
  · exact ⟨rfl, .inr ⟨rfl, rfl, rfl, rfl⟩⟩

theorem Announced.stop (h : s.Announced) (hpart : s.part = .idle) (bufDone : ℕ → Bool) :
    (s.stop bufDone).Announced := by
  obtain ⟨hinactive, hqueues⟩ := stop_queues s.pp bufDone
  have hcall : Announced { s with
      pp := s.pp.stop bufDone
      unsent := s.unsent + (s.pp.ongoingJpegQ.length + s.pp.ongoingPPQ.length + s.pp.inputJpegQ.length) } := by
    rcases hqueues with ⟨hinput, hfwk, hjpegs⟩ | ⟨hinput, hmeta, hfwk, hjpegs⟩
    · refine h.call (fun _ => hinactive) ?_ ?_ (fun hne => absurd hjpegs hne) fun _ => .inl ⟨hpart, ?_⟩
      · rw [hinput]
        exact Nat.le_trans (Nat.min_le_left _ _) (Nat.zero_le _)
      · rw [hfwk]
        exact Nat.zero_le _
      · rw [hjpegs]
        exact Nat.zero_le _
    · refine h.call (fun _ => hinactive) ?_ ?_ (fun hne => .inl ?_) fun _ => .inl ⟨hpart, ?_⟩
      · rw [hinput, hmeta]
        exact Nat.le_add_right _ _
      · rw [hfwk]
        exact Nat.le_add_right _ _
      · rw [hjpegs] at hne
        exact Nat.add_pos_right _ (length_pos_of_ne_nil hne)
      · rw [hjpegs]
        exact Nat.le_add_left _ _
  rw [JobThread.stop, Nat.add_assoc, Nat.add_assoc, ← Nat.add_assoc s.pp.ongoingJpegQ.length]
  exact hcall

/-! ### Commands -/

/-- A command that is allocated is in the queue. -/
theorem Announced.send (h : s.Announced) (hunsent : s.unsent ≠ 0) : (s.send true true).Announced := by
  have hnodes := QCameraQueue.enqueue_of_active s.dataProcTh.cmdQueue h.active CameraCmdType.doNextJob
  have hactive : (s.send true true).dataProcTh.cmdQueue.active = true :=
    QCameraQueue.nodes_of_active _ (by
      change (s.dataProcTh.cmdQueue.enqueue true .doNextJob).2.nodes ≠ []
      rw [hnodes.2]
      simp)
  have hsame : (s.send true true).announced = s.announced := by
    change (s.dataProcTh.cmdQueue.enqueue true .doNextJob).2.nodes.count .doNextJob +
      (s.unsent - 1) = s.dataProcTh.cmdQueue.nodes.count .doNextJob + s.unsent
    rw [hnodes.2, count_append, count_singleton_self]
    omega
  refine ⟨hactive, h.off, ?_, ?_, fun hne => ?_, fun hoff => ?_⟩
  · rw [hsame]
    exact h.live
  · rw [hsame]
    exact h.fwk
  · rw [hsame]
    exact h.jpeg hne
  · rw [hsame]
    exact h.idle hoff

theorem dropNext_queues (pp : PostProcessor) (bufDone : Bool) : (pp.dropNext bufDone).isActive = pp.isActive ∧
      (pp.dropNext bufDone).queuesActive = pp.queuesActive ∧
      (pp.dropNext bufDone).inputPPQ = pp.inputPPQ.tail ∧
      (pp.dropNext bufDone).inputMetaQ = pp.inputMetaQ.tail ∧
      (pp.dropNext bufDone).inputFWKPPQ = pp.inputFWKPPQ.tail ∧
      (pp.dropNext bufDone).inputJpegQ = pp.inputJpegQ.tail ∧
      (pp.dropNext bufDone).ongoingJpegQ = pp.ongoingJpegQ := by
  rw [PostProcessor.dropNext]
  dsimp only
  split
  · rename_i hinput
    rw [hinput]
    exact ⟨rfl, rfl, rfl, rfl, rfl, rfl, rfl⟩
  · rename_i frame frames hinput
    rw [releaseSuperBuf_frame, hinput]
    exact ⟨rfl, rfl, rfl, rfl, rfl, rfl, rfl⟩

theorem next_cases {bufDone : Bool} (hnext : s.next bufDone = some t) :
    ∃ th : QCameraCmdThread, th.cmdQueue.active = s.dataProcTh.cmdQueue.active ∧
      ((th.cmdQueue.nodes.count .doNextJob + 1 = s.pending ∧
          ((s.pp.isActive = true ∧ t = { s with dataProcTh := th, part := .encode }) ∨
            (s.pp.isActive = false ∧ t = { s with dataProcTh := th, pp := s.pp.dropNext bufDone }))) ∨
        (th.cmdQueue.nodes.count .doNextJob = s.pending ∧ t = { s with dataProcTh := th })) := by
  obtain ⟨⟨cmd, th⟩, hget, heq⟩ := map_eq_some_iff.mp hnext
  rw [QCameraCmdThread.getCmd] at hget
  split at hget
  · cases hget
  · obtain ⟨hcmd, hth⟩ := Prod.mk.inj (some.inj hget)
    have hactive : th.cmdQueue.active = s.dataProcTh.cmdQueue.active := by rw [← hth]; rfl
    have hnodes : th.cmdQueue.nodes = s.dataProcTh.cmdQueue.nodes.tail := by rw [← hth]; rfl
    refine ⟨th, hactive, ?_⟩
    rw [hnodes, JobThread.pending]
    rw [QCameraQueue.fst_dequeue] at hcmd
    dsimp only at heq
    by_cases hdo : cmd = .doNextJob
    · rw [if_pos hdo] at heq
      refine .inl ⟨?_, ?_⟩
      · cases hqueue : s.dataProcTh.cmdQueue.nodes with
        | nil =>
          rw [hqueue, hdo] at hcmd
          cases hcmd
        | cons c rest =>
          rw [hqueue, hdo] at hcmd
          obtain rfl : c = .doNextJob := hcmd
          rw [count_cons_self, tail_cons]
      · split at heq
        · rename_i hon
          exact .inl ⟨hon, heq.symm⟩
        · rename_i hoff
          exact .inr ⟨by simpa using hoff, heq.symm⟩
    · rw [if_neg hdo] at heq
      refine .inr ⟨?_, heq.symm⟩
      cases hqueue : s.dataProcTh.cmdQueue.nodes with
      | nil => rfl
      | cons c rest =>
        rw [hqueue] at hcmd
        have hne : c ≠ .doNextJob := fun hc => hdo (hcmd ▸ hc)
        rw [tail_cons, count_cons_of_ne hne]

theorem Announced.next (h : s.Announced) (hpart : s.part = .idle) {bufDone : Bool}
    (hnext : s.next bufDone = some t) : t.Announced := by
  obtain ⟨th, hqueue, hcases⟩ := next_cases hnext
  have hlive := h.live
  have hfwk := h.fwk
  rw [if_pos hpart] at hlive
  rw [if_neg (by rw [hpart]; decide)] at hfwk
  rcases hcases with ⟨hcount, ⟨hactive, rfl⟩ | ⟨hinactive, rfl⟩⟩ | ⟨hcount, rfl⟩
  · refine ⟨hqueue.trans h.active, h.off, ?_, ?_, fun _ => .inr (.inr rfl), fun hoff => ?_⟩
    · change min s.pp.inputPPQ.length s.pp.inputMetaQ.length ≤ th.cmdQueue.nodes.count .doNextJob + s.unsent + 1
      rw [announced] at hlive
      omega
    · change s.pp.inputFWKPPQ.length ≤ th.cmdQueue.nodes.count .doNextJob + s.unsent + 1
      rw [announced] at hfwk
      omega
    · rw [hactive] at hoff
      cases hoff
  · obtain ⟨-, hjpegs⟩ := h.idle hinactive
    rw [announced] at hlive hfwk hjpegs
    obtain ⟨h₁, h₂, h₃, h₄, h₅, h₆, h₇⟩ := dropNext_queues s.pp bufDone
    refine ⟨hqueue.trans h.active, fun _ => h₁.trans hinactive, ?_, ?_, fun hne => .inr (.inl ?_), fun _ => ⟨hpart, ?_⟩⟩
    · change min (s.pp.dropNext bufDone).inputPPQ.length (s.pp.dropNext bufDone).inputMetaQ.length ≤
        th.cmdQueue.nodes.count .doNextJob + s.unsent + _
      rw [h₃, h₄, length_tail, length_tail]
      omega
    · change (s.pp.dropNext bufDone).inputFWKPPQ.length ≤ th.cmdQueue.nodes.count .doNextJob + s.unsent + _
      rw [h₅, length_tail]
      omega
    · change 0 < th.cmdQueue.nodes.count .doNextJob + s.unsent
      have hpos : 0 < (s.pp.dropNext bufDone).inputJpegQ.length := length_pos_of_ne_nil hne
      rw [h₆, length_tail] at hpos
      omega
    · change (s.pp.dropNext bufDone).inputJpegQ.length ≤ th.cmdQueue.nodes.count .doNextJob + s.unsent
      rw [h₆, length_tail]
      omega
  · have hsame : announced { s with dataProcTh := th } = s.announced :=
      congrArg (· + s.unsent) hcount
    refine ⟨hqueue.trans h.active, h.off, ?_, ?_, fun hne => ?_, fun hoff => ?_⟩
    · rw [hsame]
      exact h.live
    · rw [hsame]
      exact h.fwk
    · rw [hsame]
      exact h.jpeg hne
    · rw [hsame]
      exact h.idle hoff

theorem Announced.executing (h : s.Announced) (hpart : s.part ≠ .idle) : s.pp.isActive = true := by
  by_contra hoff
  exact hpart (h.idle (by simpa using hoff)).1

/-- The first part: an encoding is ongoing, or nothing waits for it, or the release of the job is
announced. -/
theorem Announced.encode (h : s.Announced) (hpart : s.part = .encode) (encoded : Bool) :
    (s.encode encoded).Announced := by
  have hactive := h.executing (by rw [hpart]; decide)
  have hlive := h.live
  have hfwk := h.fwk
  rw [if_neg (by rw [hpart]; decide)] at hlive
  rw [if_pos (.inl hpart)] at hfwk
  rw [announced] at hlive hfwk
  have hqueues : (s.pp.startJpeg encoded).isActive = s.pp.isActive ∧
      (s.pp.startJpeg encoded).queuesActive = s.pp.queuesActive ∧
      (s.pp.startJpeg encoded).inputPPQ = s.pp.inputPPQ ∧
      (s.pp.startJpeg encoded).inputMetaQ = s.pp.inputMetaQ ∧
      (s.pp.startJpeg encoded).inputFWKPPQ = s.pp.inputFWKPPQ ∧
      ((s.pp.startJpeg encoded).inputJpegQ ≠ [] → (s.pp.startJpeg encoded).ongoingJpegQ ≠ [] ∨
        (encoded = false ∧ s.pp.ongoingJpegQ = [] ∧ s.pp.inputJpegQ ≠ [])) := by
    rw [startJpeg]
    split
    · rename_i job rest hongoing hinput
      refine ⟨rfl, rfl, rfl, rfl, rfl, fun _ => ?_⟩
      cases encoded with
      | true => exact .inl (cons_ne_nil _ _)
      | false => exact .inr ⟨rfl, hongoing, hinput ▸ cons_ne_nil _ _⟩
    · rename_i hnone
      refine ⟨rfl, rfl, rfl, rfl, rfl, fun hne => .inl fun hidle => ?_⟩
      cases hinput : s.pp.inputJpegQ with
      | nil => exact hne hinput
      | cons job rest => exact hnone job rest hidle hinput
  obtain ⟨h₁, h₂, h₃, h₄, h₅, hjpegs⟩ := hqueues
  refine ⟨h.active, fun hoff => ?_, ?_, ?_, fun hne => ?_, fun hoff => ?_⟩
  · exact h₁.trans (h.off (h₂ ▸ hoff))
  · change min (s.pp.startJpeg encoded).inputPPQ.length (s.pp.startJpeg encoded).inputMetaQ.length ≤
      s.pending + (s.unsent + _) + 1
    rw [h₃, h₄]
    omega
  · change (s.pp.startJpeg encoded).inputFWKPPQ.length ≤ s.pending + (s.unsent + _) + 1
    rw [h₅]
    omega
  · refine (hjpegs hne).imp id fun hreleased => .inl ?_
    change 0 < s.pending + (s.unsent + _)
    rw [if_pos hreleased]
    exact Nat.succ_pos _
  · rw [show (s.encode encoded).pp.isActive = true from h₁.trans hactive] at hoff
    cases hoff

theorem Announced.startFwk (h : s.Announced) (hpart : s.part = .fwk) (calls : FwkCalls) :
    Announced { s with pp := s.pp.startFwk calls, part := .live } := by
  have hactive := h.executing (by rw [hpart]; decide)
  have hlive := h.live
  have hfwk := h.fwk
  rw [if_neg (by rw [hpart]; decide)] at hlive
  rw [if_pos (.inr hpart)] at hfwk
  rw [announced] at hlive hfwk
  obtain ⟨h₁, h₂, h₃, h₄, h₅, h₆, h₇⟩ := startFwk_queues s.pp calls
  refine ⟨h.active, fun hoff => ?_, ?_, ?_, fun hne => ?_, fun hoff => ?_⟩
  · exact h₁.trans (h.off (h₂ ▸ hoff))
  · change min (s.pp.startFwk calls).inputPPQ.length (s.pp.startFwk calls).inputMetaQ.length ≤ s.pending + s.unsent + 1
    rw [h₃, h₄]
    exact hlive
  · change (s.pp.startFwk calls).inputFWKPPQ.length ≤ s.pending + s.unsent + 0
    rw [h₅, length_tail]
    omega
  · have hold := h.jpeg (h₆ ▸ hne)
    change (s.pp.startFwk calls).ongoingJpegQ ≠ [] ∨ 0 < s.announced ∨ _
    rw [h₇]
    exact hold.imp id fun hpos => .inl (hpos.resolve_right (by rw [hpart]; decide))
  · have hoff : (s.pp.startFwk calls).isActive = false := hoff
    rw [h₁, hactive] at hoff
    cases hoff

/-- The third part takes a frame with its metadata, and announces the JPEG job that it enqueues. -/
theorem Announced.startLive (h : s.Announced) (hpart : s.part = .live) (calls : LiveCalls) :
    (s.startLive calls).Announced := by
  have hactive := h.executing (by rw [hpart]; decide)
  have hlive := h.live
  have hfwk := h.fwk
  rw [if_neg (by rw [hpart]; decide)] at hlive
  rw [if_neg (by rw [hpart]; decide)] at hfwk
  rw [announced] at hlive hfwk
  have hold (hne : s.pp.inputJpegQ ≠ []) : s.pp.ongoingJpegQ ≠ [] ∨ 0 < s.announced :=
    (h.jpeg hne).imp id fun hpos => hpos.resolve_right (by rw [hpart]; decide)
  have hfinish (pp : PostProcessor) (commands : ℕ) (h₁ : pp.isActive = s.pp.isActive)
      (h₂ : pp.queuesActive = s.pp.queuesActive)
      (hless : min pp.inputPPQ.length pp.inputMetaQ.length ≤ min s.pp.inputPPQ.length s.pp.inputMetaQ.length - 1)
      (h₅ : pp.inputFWKPPQ = s.pp.inputFWKPPQ) (h₆ : pp.ongoingJpegQ = s.pp.ongoingJpegQ)
      (hjpegs : pp.inputJpegQ = s.pp.inputJpegQ ∨ 0 < commands) :
      Announced { s with pp := pp, part := .idle, unsent := s.unsent + commands } := by
    refine ⟨h.active, fun hoff => h₁.trans (h.off (h₂ ▸ hoff)), ?_, ?_, fun hne => ?_, fun hoff => ?_⟩
    · change min pp.inputPPQ.length pp.inputMetaQ.length ≤ s.pending + (s.unsent + commands) + 0
      omega
    · change pp.inputFWKPPQ.length ≤ s.pending + (s.unsent + commands) + 0
      rw [h₅]
      omega
    · change pp.ongoingJpegQ ≠ [] ∨ 0 < s.pending + (s.unsent + commands) ∨ _
      rw [h₆]
      rcases hjpegs with heq | hpos
      · refine (hold (heq ▸ hne)).imp id fun hpos => .inl ?_
        rw [announced] at hpos
        omega
      · exact .inr (.inl (by omega))
    · have hoff : pp.isActive = false := hoff
      rw [h₁, hactive] at hoff
      cases hoff
  have hempty (hzero : min s.pp.inputPPQ.length s.pp.inputMetaQ.length = 0) : Announced { s with part := .idle } :=
    hfinish s.pp 0 rfl rfl (by omega) rfl rfl (.inl rfl)
  rcases hinput : s.pp.inputPPQ with _ | ⟨frame, frames⟩
  · rw [JobThread.startLive, PostProcessor.startLive, hinput]
    exact hempty (by rw [hinput]; exact Nat.zero_min _)
  · rcases hmeta : s.pp.inputMetaQ with _ | ⟨reprocMeta, metas⟩
    · rw [JobThread.startLive, PostProcessor.startLive, hinput, hmeta]
      exact hempty (by rw [hmeta]; exact Nat.min_zero _)
    · obtain ⟨h₁, h₂, h₃, h₄, h₅, h₆, hjpegs⟩ := startLiveJob_queues { s.pp with
          inputPPQ := frames
          inputMetaQ := metas
          jpegSettingsQ := s.pp.jpegSettingsQ.tail }
        s.pp (liveJob s.pp frame reprocMeta) frame calls rfl rfl rfl
      rw [JobThread.startLive, PostProcessor.startLive, hinput, hmeta]
      refine hfinish _ _ h₁ h₂ ?_ h₅ h₆ (hjpegs.imp id fun hdirect => ?_)
      · have hlengths : s.pp.inputPPQ.length = frames.length + 1 ∧ s.pp.inputMetaQ.length = metas.length + 1 := by
          rw [hinput, hmeta]
          exact ⟨rfl, rfl⟩
        refine Nat.le_trans (Nat.le_of_eq (congrArg₂ min (congrArg length h₃) (congrArg length h₄))) ?_
        change min frames.length metas.length ≤ _
        omega
      · change 0 < if s.pp.reprocChannel = false ∧
          liveStarts s.pp (liveJob s.pp frame reprocMeta) frame calls = true then 1 else 0
        rw [if_pos hdirect]
        exact Nat.one_pos

/-! ### Every run -/

/-- **One event.** -/
theorem Announced.step (h : s.Announced) {e : ThreadEvent} (hsends : Allocates e)
    (hstep : s.step e = some t) : t.Announced := by
  cases e with
  | processData f allocated =>
    simp only [JobThread.step, ite_none_left_eq_some, some.injEq] at hstep
    obtain ⟨-, rfl⟩ := hstep
    exact h.processData f allocated
  | processPPMetadata m =>
    simp only [JobThread.step, ite_none_left_eq_some, some.injEq] at hstep
    obtain ⟨-, rfl⟩ := hstep
    exact h.processPPMetadata m
  | processJpegSettingData jpegSettings =>
    cases hstep
    exact h.same (.inr ⟨rfl, rfl⟩) rfl rfl rfl rfl rfl
  | processFwkData f allocated =>
    simp only [JobThread.step, ite_none_left_eq_some, some.injEq] at hstep
    obtain ⟨-, rfl⟩ := hstep
    exact h.processFwkData f allocated
  | send mallocCmd mallocNode =>
    simp only [JobThread.step, ite_none_left_eq_some, some.injEq] at hstep
    obtain ⟨hunsent, rfl⟩ := hstep
    obtain ⟨rfl, rfl⟩ := hsends
    exact h.send hunsent
  | start reprocessType calls =>
    cases hstep
    exact h.start reprocessType calls
  | stop bufDone =>
    simp only [JobThread.step, ite_none_right_eq_some, some.injEq] at hstep
    obtain ⟨hpart, rfl⟩ := hstep
    exact h.stop hpart bufDone
  | next bufDone =>
    simp only [JobThread.step, ite_none_right_eq_some] at hstep
    exact h.next hstep.1 hstep.2
  | encode encoded =>
    simp only [JobThread.step, ite_none_right_eq_some, some.injEq] at hstep
    obtain ⟨hpart, rfl⟩ := hstep
    exact h.encode hpart encoded
  | startFwk calls =>
    simp only [JobThread.step, ite_none_right_eq_some, some.injEq] at hstep
    obtain ⟨hpart, rfl⟩ := hstep
    exact h.startFwk hpart calls
  | startLive calls =>
    simp only [JobThread.step, ite_none_right_eq_some, some.injEq] at hstep
    obtain ⟨⟨hpart, -⟩, rfl⟩ := hstep
    exact h.startLive hpart calls
  | jpegReprocessed f copied allocated =>
    cases hstep
    exact h.jpegReprocessed f copied allocated
  | outputReprocessed =>
    cases hstep
    exact h.outputReprocessed
  | jpegDone =>
    cases hstep
    exact h.jpegDone
  | flush =>
    cases hstep
    exact h.flush

/-- No wake-up is lost: there is a command for each pair of a frame and metadata, and for each input of
the framework; where JPEG jobs wait, an encoding is ongoing or there is a command. -/
structure Woken (s : JobThread) : Prop where
  live : min s.pp.inputPPQ.length s.pp.inputMetaQ.length ≤ s.pending
  fwk : s.pp.inputFWKPPQ.length ≤ s.pending
  jpeg : s.pp.inputJpegQ ≠ [] → s.pp.ongoingJpegQ ≠ [] ∨ 0 < s.pending

/-- Nothing is left that the thread could do. -/
def Drained (s : JobThread) : Prop :=
  (s.pp.inputPPQ = [] ∨ s.pp.inputMetaQ = []) ∧ s.pp.inputFWKPPQ = [] ∧ s.pp.inputJpegQ = []

theorem Woken.drained (h : s.Woken) (hpending : s.pending = 0) (hongoing : s.pp.ongoingJpegQ = []) : s.Drained := by
  have hlive := h.live
  have hfwk := h.fwk
  rw [hpending] at hlive hfwk
  refine ⟨?_, length_eq_zero_iff.mp (Nat.le_zero.mp hfwk), ?_⟩
  · rcases Nat.min_eq_zero_iff.mp (Nat.le_zero.mp hlive) with hzero | hzero
    · exact .inl (length_eq_zero_iff.mp hzero)
    · exact .inr (length_eq_zero_iff.mp hzero)
  · by_contra hne
    rcases h.jpeg hne with hbusy | hpos
    · exact hbusy hongoing
    · omega

theorem Announced.woken (h : s.Announced) (hpart : s.part = .idle) (hunsent : s.unsent = 0) : s.Woken := by
  have hsame : s.announced = s.pending := by rw [announced, hunsent, Nat.add_zero]
  have hlive := h.live
  have hfwk := h.fwk
  rw [if_pos hpart, hsame, Nat.add_zero] at hlive
  rw [if_neg (by rw [hpart]; decide), hsame, Nat.add_zero] at hfwk
  refine ⟨hlive, hfwk, fun hne => (h.jpeg hne).imp id fun hpos => ?_⟩
  rw [← hsame]
  exact hpos.resolve_right (by rw [hpart]; decide)

/-- **No wake-up is lost.** In every run in which the commands are allocated, what is in the queues is
announced by commands that are pending, are still to be sent, or are being executed; and so by pending
ones in each state between the calls and the commands, where nothing is left if there are none. -/
theorem next_jobs_run {es : List ThreadEvent} (hs : s.Initial)
    (h : Run (guarded (fun _ => Allocates) (fires step)) s es t) :
    t.Announced ∧ (t.part = .idle → t.unsent = 0 → t.Woken ∧ (t.pending = 0 → t.pp.ongoingJpegQ = [] → t.Drained)) := by
  have hinv : t.Announced :=
    h.invariant (fun _ _ _ hinv hstep => hinv.step hstep.1 hstep.2) (announced_initial hs)
  refine ⟨hinv, fun hpart hunsent => ?_⟩
  have hwoken := hinv.woken hpart hunsent
  exact ⟨hwoken, hwoken.drained⟩

/-- A frame and its metadata come in for an active thread. -/
def pairArrives : List ThreadEvent :=
  [.start .jpeg {}, .processJpegSettingData ⟨0, 7⟩, .processData { bufIdx := 3, frameNumber := 7 } true,
    .processPPMetadata ⟨7⟩]

/-- Their job is done, up to the command for its JPEG job. -/
def pairSession : List ThreadEvent :=
  pairArrives ++ [.send true true, .next true, .encode true, .startFwk {}, .startLive {},
    .jpegReprocessed { bufIdx := 0, ofParent := false, frameNumber := 7 } true true, .send true true]

/-- The JPEG job is there, and a command for it. -/
theorem next_jobs_pair : Initial {} ∧ ∃ t, Run (guarded (fun _ => Allocates) (fires step)) {} pairSession t ∧ t.Woken ∧
      t.pending = 1 ∧ t.pp.inputJpegQ.length = 1 := by
  have hinitial : Initial {} := ⟨rfl, rfl, rfl, rfl, rfl, rfl⟩
  refine ⟨hinitial, (exists_run (P := fun t => (t.part = .idle ∧ t.unsent = 0) ∧ t.pending = 1 ∧
    t.pp.inputJpegQ.length = 1) (by decide)).imp fun t h => ⟨h.1, ?_⟩⟩
  exact ⟨((next_jobs_run hinitial h.1).2 h.2.1.1 h.2.1.2).1, h.2.2⟩

/-- If the command cannot be allocated the frame and the metadata stay, and nothing is left to be sent. -/
theorem unsent_wakeup : Initial {} ∧
    ∃ t, Run (fires step) {} (pairArrives ++ [.send false true]) t ∧ t.pp.isActive = true ∧
      t.part = .idle ∧ t.unsent = 0 ∧ t.pending = 0 ∧ t.pp.ongoingJpegQ = [] ∧
      t.pp.inputPPQ.length = 1 ∧ t.pp.inputMetaQ.length = 1 ∧ ¬ t.Woken ∧ ¬ t.Drained := by
  refine ⟨⟨rfl, rfl, rfl, rfl, rfl, rfl⟩, (exists_run_fires (P := fun t => t.pp.isActive = true ∧
    t.part = .idle ∧ t.unsent = 0 ∧ t.pending = 0 ∧ t.pp.ongoingJpegQ = [] ∧ t.pp.inputPPQ.length = 1 ∧
    t.pp.inputMetaQ.length = 1) (by decide)).imp fun t ht => ⟨ht.1, ?_⟩⟩
  obtain ⟨-, h₁, h₂, h₃, hpending, h₅, hinput, hmeta⟩ := ht
  refine ⟨h₁, h₂, h₃, hpending, h₅, hinput, hmeta, fun hwoken => ?_, fun hdrained => ?_⟩
  · have hlive := hwoken.live
    rw [hpending, hinput, hmeta] at hlive
    omega
  · rcases hdrained.1 with hnil | hnil
    · rw [hnil] at hinput
      cases hinput
    · rw [hnil] at hmeta
      cases hmeta

end JobThread

end Marlin
