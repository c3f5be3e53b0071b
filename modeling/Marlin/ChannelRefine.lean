import Marlin.SuperbufRefine

/-!
# The Command Thread Refines the Bundle

While frame sync is off, a command of `mm_channel_process_stream_buf` is a run of
`Bundle.Step` on the bundle of the channel: its own steps (`handleCmd_steps`), then flushes
and sends.

## Main results

* `processStreamBuf_steps`: what a command does to the bundle.
* `processStreamBuf_reaches`: a command is a run of the steps it can take, so that what
  these preserve holds after every run of commands.
-/

namespace Marlin

open Marlin.Bundle List Transition MmChannel

/-- The traffic holds no report of a complete super-buffer to the frame-sync table. -/
def Bundle.NoSync (B : Bundle) : Prop :=
  B.attr.enableFrameSync = false ∧ ∀ frameIdx, Action.frameSyncAdd frameIdx ∉ B.traffic

theorem Bundle.Step.noSync {B B' : Bundle} {a : Bundle.Act} (h : Bundle.Step B a B') (hB : B.NoSync) : B'.NoSync := by
  obtain ⟨hattr, htraffic⟩ := hB
  cases h with
  | flush camType hq => simp_all [Bundle.NoSync, pop, qbufs, log]
  | dequeue hq hm => simp_all [Bundle.NoSync, pop, log]
  | dequeueFrame hq hm => exact ⟨hattr, htraffic⟩
  | send hq hm hd =>
    rcases hd with ⟨ready, unlock, rfl⟩ | rfl <;>
      simp_all [Bundle.NoSync, pop, log]
  | discard => simp_all [Bundle.NoSync, qbufs, log]
  | taken h hs => simp_all [Bundle.NoSync, qbufs, log]
  | keep h hs hopen expected => exact ⟨hattr, htraffic⟩
  | complete h hs hfull =>
    simp_all [Bundle.NoSync, countMatch, qbufs, log]
  | insert h expected =>
    simp only [Bundle.NoSync, countMatch, evict, qbufs, log]
    split <;> simp_all
  | noMemory h => simp_all [Bundle.NoSync, evict, qbufs, log]

theorem noSync_of_reaches {A : Bundle.Act → Prop} {B B' : Bundle}
    (h : Reaches Bundle.Step A B B') (hB : B.NoSync) : B'.NoSync :=
  h.invariant (fun _ _ _ _ hI hs => hs.noSync hI) hB

namespace MmChannel

/-! ### The command -/

theorem generalCmd_reaches (ch : MmChannel) (cmd : MmCameraGenericCmd) :
    Flushes ch.bundle (ch.generalCmd cmd).bundle := by
  unfold generalCmd
  split
  · exact superbufFlush_reaches ch .default
  · exact superbufFlush_reaches ch .default
  · exact superbufFlush_reaches ch .default
  · exact superbufFlush_reaches ch .default
  · exact Reaches.refl _
  · exact Reaches.refl _

/-- The steps of a command before super-buffers are dispatched. -/
inductive CmdSteps (ch : MmChannel) : MmCameraCmdcb → MmChannel → Prop
  /-- A buffer of a bundled stream is offered to the queue. -/
  | dataCb {b : MmCameraBufInfo} {bufSIdx visits : ℕ} {B : Bundle} {ch' : MmChannel}
      (hi : ch.queue.bundledStreams.findIdx? (b.streamId == ·) = some bufSIdx)
      (hf : Flushes ch.bundle B) (hv : ch.releasesTwice b = false → visits ≤ 1)
      (hs : Bundle.Step B (.enqueue bufSIdx b visits) ch'.bundle) : CmdSteps ch (.dataCb b) ch'
  /-- A buffer of another stream. -/
  | unbundled {b : MmCameraBufInfo}
      (hi : ch.queue.bundledStreams.findIdx? (b.streamId == ·) = none) :
      CmdSteps ch (.dataCb b) ch
  /-- A flush of one type. -/
  | flushQueue {frameIdx : ℕ} {camType : CamStreamType} {ch' : MmChannel}
      (hf : Reaches Bundle.Step (· = .flush camType) ch.bundle ch'.bundle) :
      CmdSteps ch (.flushQueue frameIdx camType) ch'
  /-- The other commands. -/
  | other {cmd : MmCameraCmdcb} {ch' : MmChannel} (hdata : ∀ b, cmd ≠ .dataCb b)
      (hf : Flushes ch.bundle ch'.bundle) : CmdSteps ch cmd ch'

variable {cmd : MmCameraCmdcb}

theorem CmdSteps.noSync {ch ch' : MmChannel} (h : CmdSteps ch cmd ch')
    (hch : ch.bundle.NoSync) : ch'.bundle.NoSync := by
  cases h with
  | dataCb hi hf hv hs => exact hs.noSync (noSync_of_reaches hf hch)
  | unbundled hi => exact hch
  | flushQueue hf => exact noSync_of_reaches hf hch
  | other hdata hf => exact noSync_of_reaches hf hch

/-- The branches of `mm_channel_process_stream_buf` on the command type. -/
theorem handleCmd_steps {fuel : ℕ} {ch ch' : MmChannel}
    (h : ch.handleCmd fuel cmd = some ch') : CmdSteps ch cmd ch' := by
  cases cmd with
  | dataCb b =>
    obtain rfl : (ch.superbufCompAndEnqueue b).2 = ch' := Option.some.inj h
    cases hi : ch.queue.bundledStreams.findIdx? (b.streamId == ·) with
    | none =>
      rw [superbufCompAndEnqueue_unbundled hi]
      exact .unbundled hi
    | some bufSIdx =>
      obtain ⟨B, visits, hf, hv, hs⟩ := superbufCompAndEnqueue_steps hi
      exact .dataCb hi hf hv hs
  | reqDataCb reqBuf => exact .other (by simp) (@superbufSkip_reaches (ch.requestBuf reqBuf) ch' fuel h)
  | startZsl =>
    cases h
    refine .other (by simp) ?_
    rw [bundle_call_control _ rfl]
    exact Reaches.refl _
  | stopZsl =>
    cases h
    refine .other (by simp) ?_
    rw [bundle_call_control _ rfl]
    exact Reaches.refl _
  | configNotify notifyMode =>
    cases h
    exact .other (by simp) (Reaches.refl _)
  | flushQueue frameIdx camType =>
    cases h
    refine .flushQueue ?_
    rw [bundle_call_control _ rfl]
    exact superbufFlush_reaches { ch with queue.expectedFrameId := frameIdx } camType
  | general genCmd =>
    cases h
    exact .other (by simp) (generalCmd_reaches ch genCmd)
  | other =>
    cases h
    exact .other (by simp) (Reaches.refl _)

/-! ### Start and stop of a ZSL snapshot -/

theorem bundle_startZslForPending (ch : MmChannel) : ch.startZslForPending.bundle = ch.bundle :=
  bundle_call_control ch rfl

theorem triggerZsl_reaches (ch : MmChannel) : Flushes ch.bundle ch.triggerZsl.bundle := by
  unfold triggerZsl
  split
  · rw [bundle_startZslForPending]
    exact superbufFlush_reaches ch.deferCapture .default
  · split
    · rw [bundle_startZslForPending]
      exact Reaches.refl _
    · split
      · have h := bundle_call_control ch (a := .stopZslSnapshot) rfl
        exact h ▸ Reaches.refl _
      · exact Reaches.refl _

/-! ### Dispatching a super-buffer -/

/-- The bundle steps that flush the queue and send super-buffers. -/
def Dispatches : Bundle → Bundle → Prop :=
  Reaches Bundle.Step fun a => a = .flush .default ∨ ∃ n, a = .send n

theorem Flushes.dispatches {B B' : Bundle} (h : Flushes B B') : Dispatches B B' :=
  h.mono fun _ ha => Or.inl ha

theorem takeNode_cases (ch : MmChannel) : (∃ ch', ch.takeNode = (none, ch') ∧ Flushes ch.bundle ch'.bundle) ∨
    ∃ n rest ch', ch.takeNode = (some n, ch') ∧ ch.queue.que = n :: rest ∧
      n.matched = true ∧ ch'.bundle = ch.bundle.pop n rest := by
  unfold takeNode superbufDequeue
  rcases superbufDequeueInternal_cases ch true with ⟨hd, -⟩ | ⟨n, rest, hq, hm, hd⟩
  · rw [hd]
    exact Or.inl ⟨ch, rfl, Reaches.refl _⟩
  · rw [hd]
    have haccess : ((ch.afterDequeue n rest).call
        (.captureAccess (ch.afterDequeue n rest).curCaptureIdx)).bundle = ch.bundle.pop n rest := by
      rw [bundle_call_control _ rfl, bundle_afterDequeue]
    simp only [checkExpected]
    split
    · split
      · refine Or.inl ⟨_, rfl, Reaches.single ?_ rfl⟩
        rw [bundle_qbufs, haccess, ← flushedBufs_default]
        exact Bundle.Step.flush .default hq
      · exact Or.inr ⟨n, rest, _, rfl, hq, hm rfl, haccess⟩
    · exact Or.inr ⟨n, rest, _, rfl, hq, hm rfl, bundle_afterDequeue ch n rest⟩

theorem bundle_stopZslWhenDone (ch : MmChannel) : ch.stopZslWhenDone.bundle = ch.bundle := by
  unfold stopZslWhenDone
  split
  · exact bundle_call_control ch (a := .stopZslSnapshot) rfl
  · rfl

theorem bundle_startBatch (ch : MmChannel) (idx : ℕ) : (ch.startBatch idx).bundle = ch.bundle :=
  bundle_call_control ch (a := .captureAccess idx) rfl

theorem bundle_countBatchFrame (ch : MmChannel) : ch.countBatchFrame.bundle = ch.bundle :=
  bundle_call_control ch (a := .captureAccess ch.curCaptureIdx) rfl

theorem bundle_countPending (ch : MmChannel) : ch.countPending.bundle = ch.bundle := by
  simp only [bundle, countPending]

theorem bundle_countBurstFrame (ch : MmChannel) : ch.countBurstFrame.bundle = ch.bundle := by
  unfold countBurstFrame nextBatch
  split_ifs <;> simp only [bundle_startBatch, bundle_countBatchFrame, bundle_stopZslWhenDone, bundle_countPending]

theorem myHdl_countBurstFrame (ch : MmChannel) : ch.countBurstFrame.myHdl = ch.myHdl := by
  have hpending : ch.countPending.myHdl = ch.myHdl := by
    simp only [countPending]
  have hstop : ∀ c : MmChannel, c.stopZslWhenDone.myHdl = c.myHdl := by
    intro c
    unfold stopZslWhenDone
    split <;> rfl
  have hstart : ∀ (c : MmChannel) (idx : ℕ), (c.startBatch idx).myHdl = c.myHdl :=
    fun _ _ => rfl
  have hcount : ∀ c : MmChannel, c.countBatchFrame.myHdl = c.myHdl := fun _ => rfl
  unfold countBurstFrame nextBatch
  split_ifs <;> simp only [hstart, hcount, hstop, hpending]

theorem bundle_sendSuperBuf (ch : MmChannel) (n : MmChannelQueueNode) :
    ∃ delivery, ((∃ ready unlock, delivery = [.cbEnq n.bufs ready unlock]) ∨ delivery = n.bufs.map .qbuf) ∧
      (ch.sendSuperBuf n).bundle = ch.bundle.log (.sendSuperBuf n :: delivery) := by
  have hsend := bundle_call_traffic ch (a := .sendSuperBuf n) rfl
  have hret : (ch.bundle.log [.sendSuperBuf n]).qbufs n.bufs = ch.bundle.log (.sendSuperBuf n :: n.bufs.map .qbuf) := by
    simp [Bundle.qbufs, Bundle.log]
  unfold sendSuperBuf
  split
  · split
    · refine ⟨_, Or.inl ⟨ch.bWaitForPrepSnapshotDone, ch.unLockAEC, rfl⟩, ?_⟩
      have henq := bundle_call_traffic (ch.call (.sendSuperBuf n))
        (a := .cbEnq n.bufs ch.bWaitForPrepSnapshotDone ch.unLockAEC) rfl
      rw [hsend] at henq
      simp only [Bundle.log, append_assoc, singleton_append] at henq ⊢
      exact henq
    · refine ⟨_, Or.inr rfl, ?_⟩
      rw [bundle_qbufs, ← hret, ← hsend]
      rfl
  · refine ⟨_, Or.inr rfl, ?_⟩
    rw [bundle_qbufs, hsend, hret]

end MmChannel

namespace ChannelThread

/-- Frame sync is off: the channel reports nothing to the table, and the table has no
matched frame. -/
def FrameSyncOff (t : ChannelThread) : Prop :=
  t.ch.bundle.NoSync ∧ ∀ n ∈ t.fs.node, n.matched = false

theorem fsCall_unmatched {hdl : ℕ} {fs : FrameSyncInfo} {a : Action}
    (ha : ∀ frameIdx, a ≠ .frameSyncAdd frameIdx) (h : ∀ n ∈ fs.node, n.matched = false) :
    ∀ n ∈ (fsCall hdl fs a).node, n.matched = false := by
  cases a with
  | frameSyncAdd frameIdx => exact absurd rfl (ha frameIdx)
  | frameSyncRemove frameIdx =>
    simp only [fsCall, FrameSyncInfo.remove]
    split_ifs
    · exact h
    · split
      · intro n hn
        rcases mem_or_eq_of_mem_set hn with hn | rfl
        · exact h n hn
        · rfl
      · exact h
  | _ => exact h

theorem FrameSyncOff.update {t : ChannelThread} {ch : MmChannel} (h : t.FrameSyncOff)
    (hch : ch.bundle.NoSync) : (t.update ch).FrameSyncOff := by
  refine ⟨hch, ?_⟩
  have hout : ∀ a ∈ ch.out.drop t.ch.out.length, ∀ frameIdx, a ≠ .frameSyncAdd frameIdx := by
    rintro a ha frameIdx rfl
    exact hch.2 frameIdx (mem_filter.mpr ⟨mem_of_mem_drop ha, rfl⟩)
  change ∀ n ∈ ((ch.out.drop t.ch.out.length).foldl (fsCall ch.myHdl) t.fs).node, _
  refine foldlRecOn (motive := fun fs : FrameSyncInfo => ∀ n ∈ fs.node, n.matched = false)
    _ _ h.2 ?_
  intro fs hfs a ha
  exact fsCall_unmatched (hout a ha) hfs

theorem takeNodes_cases {t : ChannelThread} (hoff : t.FrameSyncOff) :
    (∃ t₁, t.takeNodes = ([], t₁) ∧ Flushes t.ch.bundle t₁.ch.bundle ∧ t₁.FrameSyncOff) ∨
    ∃ n rest t₁, t.takeNodes = ([(t₁.ch.myHdl, n)], t₁) ∧ t.ch.bundle.que = n :: rest ∧
      n.matched = true ∧ t₁.ch.bundle = t.ch.bundle.pop n rest ∧ t₁.FrameSyncOff := by
  cases hreq : t.ch.reqType with
  | frameSyncBuf =>
    refine Or.inl ⟨t, ?_, Reaches.refl _, hoff⟩
    simp [takeNodes, hreq, takeMatchedFrame, FrameSyncInfo.findMatched_eq_zero hoff.2]
  | superBuf =>
    rcases takeNode_cases t.ch with ⟨ch₁, htk, hflush⟩ | ⟨n, rest, ch₁, htk, hq, hm, hpop⟩
    · refine Or.inl ⟨t.update ch₁, ?_, hflush, hoff.update (noSync_of_reaches hflush hoff.1)⟩
      simp only [takeNodes, hreq, htk]
    · refine Or.inr ⟨n, rest, t.update ch₁, ?_, hq, hm, hpop, hoff.update ?_⟩
      · simp only [takeNodes, hreq, htk, update]
      · exact hpop ▸ (Bundle.Step.dequeue (B := t.ch.bundle) hq hm).noSync hoff.1

theorem sendSuperBufs_self (t : ChannelThread) (n : MmChannelQueueNode) :
    t.sendSuperBufs [(t.ch.myHdl, n)] = { t with ch := t.ch.sendSuperBuf n } := by
  simp [sendSuperBufs, channel, setChannel]

variable {t t' : ChannelThread}

theorem dispatchBody_steps {notifyMode : NotifyMode} (hoff : t.FrameSyncOff)
    (h : dispatchBody notifyMode t = .yield t' ∨ dispatchBody notifyMode t = .done t') :
    Dispatches t.ch.bundle t'.ch.bundle ∧ t'.FrameSyncOff := by
  unfold dispatchBody at h
  split at h
  · rcases takeNodes_cases hoff with ⟨t₁, ht, hflush, hoff₁⟩ | ⟨n, rest, t₁, ht, hq, hm, hpop, hoff₁⟩
    · simp only [ht, reduceCtorEq, false_or, ForInStep.done.injEq] at h
      exact h ▸ ⟨hflush.dispatches, hoff₁⟩
    · simp only [ht, reduceCtorEq, or_false, ForInStep.yield.injEq] at h
      set t₂ := if notifyMode = .burst then { t₁ with ch := t₁.ch.countBurstFrame } else t₁
        with ht₂
      have hhdl : t₁.ch.myHdl = t₂.ch.myHdl := by
        rw [ht₂]
        split
        · exact (myHdl_countBurstFrame t₁.ch).symm
        · rfl
      have hbundle : t₂.ch.bundle = t₁.ch.bundle := by
        rw [ht₂]
        split
        · exact bundle_countBurstFrame t₁.ch
        · rfl
      have hfs : t₂.fs = t₁.fs := by
        rw [ht₂]
        split <;> rfl
      rw [hhdl, sendSuperBufs_self] at h
      obtain ⟨delivery, hd, hsend⟩ := bundle_sendSuperBuf t₂.ch n
      have hstep : Bundle.Step t.ch.bundle (.send n) t'.ch.bundle := by
        rw [← h, hsend, hbundle, hpop]
        exact Bundle.Step.send hq hm hd
      refine ⟨Reaches.single hstep (Or.inr ⟨n, rfl⟩), hstep.noSync hoff.1, ?_⟩
      rw [← h, hfs]
      exact hoff₁.2
  · simp only [reduceCtorEq, false_or, ForInStep.done.injEq] at h
    exact h ▸ ⟨Reaches.refl _, hoff⟩

theorem dispatch_steps {notifyMode : NotifyMode} {fuel : ℕ}
    (hoff : t.FrameSyncOff) (h : Loop.run (dispatchBody notifyMode) fuel t = some t') :
    Dispatches t.ch.bundle t'.ch.bundle ∧ t'.FrameSyncOff :=
  Loop.run_relates (R := fun t t' : ChannelThread => t.FrameSyncOff →
      Dispatches t.ch.bundle t'.ch.bundle ∧ t'.FrameSyncOff)
    (fun _ hoff => ⟨Reaches.refl _, hoff⟩)
    (fun _ _ _ h₁ h₂ hoff => ⟨(h₁ hoff).1.trans (h₂ (h₁ hoff).2).1, (h₂ (h₁ hoff).2).2⟩)
    (fun _ _ hbody hoff => dispatchBody_steps hoff hbody) h hoff

/-- **What a command does to the bundle**, while frame sync is off: its own steps, then
flushes and sends. -/
theorem processStreamBuf_steps {fuel : ℕ} {cmd : MmCameraCmdcb}
    (hoff : t.FrameSyncOff) (h : t.processStreamBuf fuel cmd = some t') :
    ∃ ch, t.ch.CmdSteps cmd ch ∧ Dispatches ch.bundle t'.ch.bundle ∧ t'.FrameSyncOff := by
  unfold processStreamBuf at h
  cases hcmd : t.ch.handleCmd fuel cmd with
  | none => simp [hcmd] at h
  | some ch =>
    have hsteps := handleCmd_steps hcmd
    have hch : ch.bundle.NoSync := hsteps.noSync hoff.1
    simp only [hcmd] at h
    refine ⟨ch, hsteps, ?_⟩
    split at h
    · cases h
      exact ⟨Reaches.refl _, hoff.update hch⟩
    · have htrigger := triggerZsl_reaches ch
      cases hover : ch.triggerZsl.superbufBufdoneOverflow fuel with
      | none => simp [hover] at h
      | some ch' =>
        simp only [hover] at h
        have hflush : Flushes ch.bundle ch'.bundle :=
          htrigger.trans (superbufBufdoneOverflow_reaches hover)
        have hoff' : (t.update ch').FrameSyncOff :=
          hoff.update (noSync_of_reaches hflush hch)
        obtain ⟨hrun, hend⟩ := dispatch_steps hoff' h
        exact ⟨hflush.dispatches.trans hrun, hend⟩

/-- The bundle steps that a command can take. -/
def CmdAct (ch : MmChannel) (cmd : MmCameraCmdcb) : Bundle.Act → Prop
  | .flush camType => camType = .default ∨ ∃ frameIdx, cmd = .flushQueue frameIdx camType
  | .send _ => True
  | .enqueue i b visits => cmd = .dataCb b ∧
      ch.queue.bundledStreams.findIdx? (b.streamId == ·) = some i ∧
      (ch.releasesTwice b = false → visits ≤ 1)
  | .dequeue _ | .dequeueFrame _ => False

/-- A command is a run of the steps it can take. -/
theorem processStreamBuf_reaches {fuel : ℕ} {cmd : MmCameraCmdcb}
    (hoff : t.FrameSyncOff) (h : t.processStreamBuf fuel cmd = some t') :
    Reaches Bundle.Step (CmdAct t.ch cmd) t.ch.bundle t'.ch.bundle ∧ t'.FrameSyncOff := by
  obtain ⟨ch, hcmd, hdisp, hoff'⟩ := processStreamBuf_steps hoff h
  refine ⟨?_, hoff'⟩
  have hflush : ∀ {B B' : Bundle}, Flushes B B' → Reaches Bundle.Step (CmdAct t.ch cmd) B B' :=
    fun hf => hf.mono fun a ha => ha ▸ Or.inl rfl
  have hrest : Reaches Bundle.Step (CmdAct t.ch cmd) ch.bundle t'.ch.bundle := by
    refine hdisp.mono fun a ha => ?_
    rcases ha with rfl | ⟨n, rfl⟩
    · exact Or.inl rfl
    · trivial
  cases hcmd with
  | dataCb hi hf hv hs =>
    exact ((hflush hf).trans (Reaches.single hs ⟨rfl, hi, hv⟩)).trans hrest
  | unbundled hi => exact hrest
  | flushQueue hf =>
    exact (hf.mono fun a ha => ha ▸ Or.inr ⟨_, rfl⟩).trans hrest
  | other hdata hf => exact (hflush hf).trans hrest

/-- One command of the thread, with whatever budget its loops need. -/
def Step (t : ChannelThread) (cmd : MmCameraCmdcb) (t' : ChannelThread) : Prop :=
  ∃ fuel, t.processStreamBuf fuel cmd = some t'

theorem processStreamBuf_mono {cmd : MmCameraCmdcb} {n m : ℕ} (hnm : n ≤ m)
    (h : t.processStreamBuf n cmd = some t') : t.processStreamBuf m cmd = some t' := by
  have hskip : ∀ {ch ch' : MmChannel}, ch.superbufSkip n = some ch' → ch.superbufSkip m = some ch' := by
    intro ch ch' hch
    rw [superbufSkip] at hch ⊢
    split
    · rwa [if_pos ‹_›] at hch
    · rw [if_neg ‹_›] at hch
      exact Loop.run_mono hnm hch
  have hover : ∀ {ch ch' : MmChannel}, ch.superbufBufdoneOverflow n = some ch' →
      ch.superbufBufdoneOverflow m = some ch' := by
    intro ch ch' hch
    rw [superbufBufdoneOverflow] at hch ⊢
    split
    · rwa [if_pos ‹_›] at hch
    · rw [if_neg ‹_›] at hch
      exact Loop.run_mono hnm hch
  have hhandle : ∀ {ch : MmChannel}, t.ch.handleCmd n cmd = some ch → t.ch.handleCmd m cmd = some ch := by
    intro ch hch
    cases cmd with
    | reqDataCb req => exact hskip hch
    | _ => exact hch
  rw [processStreamBuf] at h
  split at h
  · cases h
  · rename_i ch hcmd
    rw [processStreamBuf, hhandle hcmd]
    split at h
    · exact h
    · split at h
      · cases h
      · rename_i ch' hch'
        simp only [hover hch']
        exact Loop.run_mono hnm h

theorem Step.unique {t u v : ChannelThread} {cmd : MmCameraCmdcb} (hu : Step t cmd u) (hv : Step t cmd v) : u = v := by
  obtain ⟨n, hn⟩ := hu
  obtain ⟨m, hm⟩ := hv
  have h₁ := processStreamBuf_mono (le_max_left n m) hn
  have h₂ := processStreamBuf_mono (le_max_right n m) hm
  exact Option.some.inj (h₁.symm.trans h₂)

/-- The thread after a list of commands, each with the same budget and meeting `G`. -/
def runCmds (G : ChannelThread → MmCameraCmdcb → Bool) (fuel : ℕ) :
    ChannelThread → List MmCameraCmdcb → Option ChannelThread :=
  exec G (processStreamBuf fuel)

theorem run_of_runCmds {G : ChannelThread → MmCameraCmdcb → Bool} {fuel : ℕ}
    {cmds : List MmCameraCmdcb}
    (h : runCmds G fuel t cmds = some t') :
    Run (guarded (fun t cmd => G t cmd = true) Step) t cmds t' :=
  (run_of_exec h).mono fun _ _ _ h => ⟨h.1, fuel, h.2⟩

end ChannelThread

end Marlin
