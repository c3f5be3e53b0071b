import Mathlib.Data.List.Perm.Basic
import Mathlib.Data.List.Count
import Marlin.JobManager
import Marlin.Transition

/-!
# The Sessions and Output Buffers of the Encoder

An encode session of a chain is in the chain's queue of free sessions or runs an ongoing job, and an
output buffer that jobs take by themselves is in the queue of free buffers or held by such a job.
The completion paths of a job do not know of each other, so this holds only while a session is
reported on once: `mm_jpeg_fbd` does not look whether the session is encoding, nor does the job
manager when an OMX call fails. An abort gives neither the session nor the buffer back, and without
a free buffer the job manager drops the session with its job.

## Main results

* `Ledger.step`: what a step that keeps to `Orderly` preserves.
* `accounted_run`: in an orderly run every session and every buffer is accounted for.
* `abort_loses_session`: an aborted job takes its session and its output buffer with it.
-/

namespace Marlin

namespace MmJpeg

open MmJpegObj JobState List Function Option Transition

/-- A chain of encode sessions: its two queues, its sessions, and how many output buffers. -/
structure EncodeChain where
  sessionQ : ℕ
  outBufQ : ℕ
  sessions : List SessionPtr
  numOut : ℕ

namespace JobState

/-- An ongoing job runs on the session, and the session carries it. -/
def Runs (s : JobState) (q : SessionPtr) (node : JobNode) : Prop :=
  node.session = some q ∧ node.jobId = (s.obj.session q).jobId ∧ node.encodeJob = (s.obj.session q).encodeJob

/-- An ongoing job holds an output buffer that was taken for it. -/
def Holds (s : JobState) (c : EncodeChain) (node : JobNode) : Bool :=
  node.session.any fun q => c.sessions.contains q && (s.obj.session q).autoOutBuf

/-- The buffer of a job. -/
def bufOf (node : JobNode) : ℕ := (node.encodeJob.dstIndex + 1).toNat

/-- **Everything accounted for**: each session of the chain is in the queue once or runs one ongoing
job, and each output buffer is in the queue once or held by one such job. -/
structure Accounted (s : JobState) (c : EncodeChain) : Prop where
  sessions : ∀ q ∈ c.sessions,
    (s.obj.sessionQ c.sessionQ).count q + s.ongoing.countP (fun node => node.session = some q) = 1
  outBufs : ∀ b ∈ List.range' 1 c.numOut, (s.obj.outBufQ c.outBufQ).count b +
      s.ongoing.countP (fun node => s.Holds c node && bufOf node = b) = 1

/-- Who is encoding: at most one job is ongoing, and a session that encodes runs it. -/
structure Control (s : JobState) : Prop where
  limit : s.ongoing.length ≤ 1
  encoding : ∀ q, (s.obj.session q).active = true → (s.obj.session q).encoding = true →
    ∃ node, s.ongoing = [node] ∧ s.Runs q node
  ready : s.pc = .ready → s.ongoing = []
  setup : ∀ q, s.pc = .setup q → (s.obj.session q).encoding = false ∧ ∃ node, s.ongoing = [node] ∧ s.Runs q node
  atWork : ∀ q, s.atWork = some q → (s.obj.session q).active = true
  queued : ∀ n, ∀ q ∈ s.obj.sessionQ n, (s.obj.session q).active = true ∧ (s.obj.session q).sessionHandleQ = some n

/-- The queues of a chain and the jobs on it make up its sessions and its buffers. -/
structure Ledger (s : JobState) (c : EncodeChain) : Prop where
  sessionQ : ∀ q, (s.obj.session q).sessionHandleQ = some c.sessionQ ↔ q ∈ c.sessions
  outBufQ : ∀ q, (s.obj.session q).outBufQ = some c.outBufQ ↔ q ∈ c.sessions
  sessions : (s.obj.sessionQ c.sessionQ ++ (s.ongoing.filterMap (·.session)).filter (· ∈ c.sessions)).Perm c.sessions
  outBufs : (s.obj.outBufQ c.outBufQ ++ (s.ongoing.filter (s.Holds c)).map bufOf).Perm (List.range' 1 c.numOut)

/-- The ledger says where each session and each buffer is. -/
theorem Ledger.accounted {s : JobState} {c : EncodeChain} (h : Ledger s c)
    (hnodup : c.sessions.Nodup) : Accounted s c := by
  constructor
  · intro q hq
    have hcount := h.sessions.count_eq q
    rw [count_append, count_eq_one_of_mem hnodup hq,
      count_filter (by simpa using hq), count_filterMap] at hcount
    rw [← hcount]
    congr 1
    apply countP_congr
    intro node _
    simp
  · intro b hb
    have hcount := h.outBufs.count_eq b
    have hheld : ((s.ongoing.filter (s.Holds c)).map bufOf).count b =
        s.ongoing.countP fun node => s.Holds c node && bufOf node = b := by
      rw [count_eq_countP, countP_map, countP_filter]
      apply countP_congr
      intro node _
      simp [and_comm]
    rw [count_append, count_eq_one_of_mem nodup_range' hb, hheld] at hcount
    exact hcount

/-- The output buffer that the next job would take for a session. -/
def nextOutBuf (s : JobState) (q : SessionPtr) : Option ℕ :=
  (s.obj.session q).outBufQ.bind fun m => (s.obj.outBufQ m).head?

/-- The session that the next job would take. -/
def nextSession (s : JobState) (node : JobNode) : Option SessionPtr :=
  (getSession node.jobId).bind fun p =>
    (s.obj.session p).sessionHandleQ.bind fun n => (s.obj.sessionQ n).head?

/-- A job that takes an output buffer by itself finds one, and a node for the queue of the ongoing
jobs, when it finds a session. -/
def Served (s : JobState) (enqueued : Bool) : Prop :=
  ∀ node ∈ s.jobQueue.head?, ∀ q ∈ s.nextSession node, node.encodeJob.dstIndex < 0 →
    enqueued = true ∧ ∃ b ∈ s.nextOutBuf q, b ≠ 0
deriving Decidable

/-- The session at work is encoding, where the job manager is past its set-up. -/
def WorkEncodes (s : JobState) : Prop := ∀ q ∈ s.atWork, (s.obj.session q).encoding = true
deriving Decidable

/-- **The orderly steps**: `mm_jpeg_fbd` and a failing OMX call find their session encoding, a job
that takes an output buffer finds one when it finds a session, and no ongoing job is aborted. The
chain is not destroyed. -/
def Orderly (s : JobState) : JobEvent → Prop
  | .take enqueued => s.Served enqueued
  | .emptyThisBuffer ok => ok = true ∨ s.WorkEncodes
  | .fillThisBuffer ok => ok = true ∨ s.WorkEncodes
  | .fbd q => (s.obj.session q).encoding = true
  | .abortJob id _ => (s.jobQueue.any fun node => node.jobId = id) = true ∨
      ¬ (s.ongoing.any fun node => node.jobId = id) = true
  | .destroySession _ _ => False
  | _ => True

instance (s : JobState) : DecidablePred s.Orderly := fun e => by
  delta Orderly
  cases e <;> infer_instance

/-! ### Control -/

variable {s t : JobState} {q : SessionPtr} {c : EncodeChain}

theorem Control.congr (h : Control s) (hongoing : t.ongoing = s.ongoing)
    (hpc : t.pc = s.pc ∨ t.pc = .waiting) (hqueue : t.obj.sessionQ = s.obj.sessionQ)
    (hactive : ∀ q, (t.obj.session q).active = (s.obj.session q).active)
    (hencoding : ∀ q, (t.obj.session q).encoding = (s.obj.session q).encoding)
    (hhandle : ∀ q, (t.obj.session q).sessionHandleQ = (s.obj.session q).sessionHandleQ)
    (hid : ∀ q, (t.obj.session q).jobId = (s.obj.session q).jobId)
    (hjob : ∀ q, (t.obj.session q).encodeJob = (s.obj.session q).encodeJob) : Control t := by
  have hruns : ∀ q node, t.Runs q node ↔ s.Runs q node := by
    intro q node
    rw [Runs, Runs, hid, hjob]
  constructor
  · rw [hongoing]
    exact h.limit
  · intro q hq henc
    rw [hactive] at hq
    rw [hencoding] at henc
    obtain ⟨node, hnode, hr⟩ := h.encoding q hq henc
    exact ⟨node, hongoing.trans hnode, (hruns q node).mpr hr⟩
  · intro hready
    rcases hpc with hpc | hpc
    · rw [hongoing]
      exact h.ready (hpc.symm.trans hready)
    · rw [hpc] at hready
      exact absurd hready (by simp)
  · intro q hset
    rcases hpc with hpc | hpc
    · obtain ⟨henc, node, hnode, hr⟩ := h.setup q (hpc.symm.trans hset)
      exact ⟨(hencoding q).trans henc, node, hongoing.trans hnode, (hruns q node).mpr hr⟩
    · rw [hpc] at hset
      exact absurd hset (by simp)
  · intro q hq
    rw [hactive]
    rcases hpc with hpc | hpc
    · apply h.atWork
      rw [JobState.atWork, ← hpc]
      exact hq
    · rw [JobState.atWork, hpc] at hq
      exact absurd hq (by simp)
  · intro n q hq
    rw [hactive, hhandle]
    rw [hqueue] at hq
    exact h.queued n q hq

variable {node : JobNode}

theorem Control.jobDone (h : Control s) (hactive : (s.obj.session q).active = true)
    (hongoing : s.ongoing = [node]) (hruns : s.Runs q node)
    (hpc : s.pc = .waiting ∨ (s.obj.session q).encoding = true) : Control (s.jobDone q) := by
  have hgone : (s.jobDone q).ongoing = [] := by
    simp [JobState.jobDone, hongoing, hruns.2.1]
  have hpc' : (s.jobDone q).pc = s.pc := rfl
  have hact : ∀ r, ((s.jobDone q).obj.session r).active = (s.obj.session r).active :=
    jobDone_field (·.active) (fun _ => rfl) s.obj q
  have hhdl : ∀ r, ((s.jobDone q).obj.session r).sessionHandleQ = (s.obj.session r).sessionHandleQ :=
    jobDone_field (·.sessionHandleQ) (fun _ => rfl) s.obj q
  -- nobody encodes once the session that does is done
  have hidle : ∀ r, (s.obj.session r).active = true → ((s.jobDone q).obj.session r).encoding = false := by
    intro r hr
    rw [JobState.jobDone, jobDone_session]
    by_cases hrq : r = q
    · rw [hrq, update_self]
    · rw [update_of_ne hrq]
      by_contra henc
      obtain ⟨node', hnode', hr'⟩ := h.encoding r hr (by simpa only [Bool.not_eq_false] using henc)
      rw [hongoing] at hnode'
      obtain rfl := singleton_inj.mp hnode'
      exact hrq (some.inj (hr'.1.symm.trans hruns.1))
  constructor
  · rw [hgone]
    exact Nat.zero_le _
  · intro r hr henc
    rw [hact] at hr
    rw [hidle r hr] at henc
    exact absurd henc (by simp)
  · intro _
    exact hgone
  · intro r hset
    exfalso
    rw [hpc'] at hset
    rcases hpc with hpc | henc
    · rw [hpc] at hset
      exact absurd hset (by simp)
    · obtain ⟨hfalse, node', hnode', hr'⟩ := h.setup r hset
      rw [hongoing] at hnode'
      obtain rfl := singleton_inj.mp hnode'
      obtain rfl := some.inj (hruns.1.symm.trans hr'.1)
      rw [henc] at hfalse
      exact absurd hfalse (by simp)
  · intro r hr
    rw [hact]
    apply h.atWork
    rw [JobState.atWork, ← hpc']
    exact hr
  · intro n r hr
    rw [hact, hhdl]
    rw [JobState.jobDone, jobDone_sessionQ] at hr
    split at hr
    case isTrue hn =>
      rcases mem_append.mp hr with hr | hr
      · exact h.queued n r hr
      · obtain rfl := mem_singleton.mp hr
        exact ⟨hactive, hn⟩
    case isFalse => exact h.queued n r hr

theorem Control.of_obj (h : Control s) (hobj : t.obj = s.obj) (hongoing : t.ongoing = s.ongoing)
    (hpc : t.pc = s.pc ∨ t.pc = .waiting) : Control t :=
  h.congr hongoing hpc (by rw [hobj]) (fun _ => by rw [hobj]) (fun _ => by rw [hobj])
    (fun _ => by rw [hobj]) (fun _ => by rw [hobj]) fun _ => by rw [hobj]

theorem Control.encodeError (h : Control s) (hactive : (s.obj.session q).active = true) (hongoing : s.ongoing = [node])
    (hruns : s.Runs q node) (cb : Bool) : Control (s.encodeError q cb) := by
  have hwaiting : Control { s with pc := .waiting } := h.of_obj rfl rfl (.inr rfl)
  have hdone := hwaiting.jobDone hactive hongoing hruns (.inl rfl)
  refine hdone.of_obj ?_ ?_ (.inr rfl)
  · exact encodeError_obj s q cb
  · exact encodeError_ongoing s q cb

/-! ### Taking a job -/

variable {enqueued : Bool}

/-- What the job manager does with a token, when it is served: nothing, or it processes the first job
with a free session, and with a free output buffer where the job takes one by itself. -/
theorem take_cases (ht : s.take enqueued = some t) (hserved : s.Served enqueued) : s.pc = .ready ∧
    ((t.obj = s.obj ∧ t.ongoing = s.ongoing ∧ t.pc = .waiting) ∨ ∃ node rest n q qs, s.obj.sessionQ n = q :: qs ∧
        (t = ({ s with jobQueue := rest }.popSession n q qs).processWith node q enqueued ∨
          ∃ m, ∃ b : ℕ, ∃ bs, (s.obj.session q).outBufQ = some m ∧ s.obj.outBufQ m = (b + 1) :: bs ∧
            t = (({ s with jobQueue := rest }.popSession n q qs).popBuffer q m bs).processWith
              { node with encodeJob := { node.encodeJob with dstIndex := b } } q true)) := by
  rw [take] at ht
  split at ht
  case isFalse => exact absurd ht (by simp)
  case isTrue hready =>
    refine ⟨hready, ?_⟩
    cases hqueue : s.jobQueue with
    | nil =>
      rw [hqueue] at ht
      cases ht
      exact .inl ⟨rfl, rfl, rfl⟩
    | cons node rest =>
      rw [hqueue] at ht
      simp only [processEncodingJob] at ht
      cases hp : getSession node.jobId with
      | none =>
        rw [hp] at ht
        cases ht
        exact .inl ⟨rfl, rfl, rfl⟩
      | some p =>
        rw [hp] at ht
        cases hn : (s.obj.session p).sessionHandleQ with
        | none =>
          simp only [hn] at ht
          exact absurd ht (by simp)
        | some n =>
          simp only [hn] at ht
          cases hq : s.obj.sessionQ n with
          | nil =>
            simp only [hq] at ht
            cases ht
            exact .inl ⟨rfl, rfl, rfl⟩
          | cons q qs =>
            simp only [hq, takeBuffer] at ht
            refine .inr ⟨node, rest, n, q, qs, hq, ?_⟩
            split at ht
            case isFalse =>
              cases ht
              exact .inl rfl
            case isTrue hdst =>
              have hnext : s.nextSession node = some q := by
                simp [nextSession, hp, hn, hq]
              obtain ⟨henq, b, hb, hne⟩ := hserved node (by simp [hqueue]) q hnext hdst
              obtain ⟨m, hm, hb⟩ := bind_eq_some_iff.mp hb
              obtain ⟨bs, hb⟩ := head?_eq_some_iff.mp hb
              obtain ⟨b, rfl⟩ := Nat.exists_eq_succ_of_ne_zero hne
              have hm' : (({ s with jobQueue := rest }.popSession n q qs).obj.session q).outBufQ = some m := by
                rw [← hm]
                exact popSession_field (·.outBufQ) (fun _ => rfl) _ n q qs q
              have hb' : ({ s with jobQueue := rest }.popSession n q qs).obj.outBufQ m = (b + 1) :: bs := hb
              simp only [hm', hb'] at ht
              cases ht
              exact .inr ⟨m, b, bs, hm, hb, by rw [henq]⟩

section ProcessWith

variable {node : JobNode} (hongoing : s.ongoing = [])
  (hidle : ∀ r, (s.obj.session r).active = true → (s.obj.session r).encoding = false)
  (hactive : (s.obj.session q).active = true)
  (hqueued : ∀ n, ∀ r ∈ s.obj.sessionQ n, (s.obj.session r).active = true ∧
    (s.obj.session r).sessionHandleQ = some n)

include hongoing hidle hactive hqueued

theorem Control.processWith_false : Control (s.processWith node q false) := by
  have hobj : (s.processWith node q false).obj = s.obj.jobDone q := rfl
  have hact : ∀ r, ((s.processWith node q false).obj.session r).active = (s.obj.session r).active := by
    rw [hobj]
    exact jobDone_field (·.active) (fun _ => rfl) s.obj q
  have hhdl : ∀ r, ((s.processWith node q false).obj.session r).sessionHandleQ = (s.obj.session r).sessionHandleQ := by
    rw [hobj]
    exact jobDone_field (·.sessionHandleQ) (fun _ => rfl) s.obj q
  have hnone : (s.processWith node q false).ongoing = [] := by
    change s.ongoing.eraseP _ = []
    rw [hongoing]
    rfl
  refine ⟨by rw [hnone]; exact Nat.zero_le _, ?_, fun _ => hnone, ?_, ?_, ?_⟩
  · intro r hr henc
    rw [hact] at hr
    rw [hobj, jobDone_session] at henc
    by_cases hrq : r = q
    · rw [hrq, update_self] at henc
      exact absurd henc (by simp)
    · rw [update_of_ne hrq, hidle r hr] at henc
      exact absurd henc (by simp)
  · intro r hset
    exact absurd hset (by simp [JobState.processWith, JobState.encodeError])
  · intro r hr
    exact absurd hr (by simp [JobState.atWork, JobState.processWith, JobState.encodeError])
  · intro n r hr
    rw [hact, hhdl]
    rw [hobj, jobDone_sessionQ] at hr
    split at hr
    case isTrue hn =>
      rcases mem_append.mp hr with hr | hr
      · exact hqueued n r hr
      · obtain rfl := mem_singleton.mp hr
        exact ⟨hactive, hn⟩
    case isFalse => exact hqueued n r hr

theorem Control.processWith_true : Control (s.processWith node q true) := by
  have hone : (s.processWith node q true).ongoing = [{ node with session := some q }] := by
    change s.ongoing ++ _ = _
    rw [hongoing]
    rfl
  have hsession : (s.processWith node q true).obj.session = update s.obj.session q { s.obj.session q with
        encodeJob := node.encodeJob
        jobId := node.jobId
        abortState := .none
        encoding := false } := rfl
  have hact : ∀ r, ((s.processWith node q true).obj.session r).active = (s.obj.session r).active := by
    rw [hsession]
    exact update_field (·.active) rfl
  have hhdl : ∀ r, ((s.processWith node q true).obj.session r).sessionHandleQ = (s.obj.session r).sessionHandleQ := by
    rw [hsession]
    exact update_field (·.sessionHandleQ) rfl
  have hencoding : ∀ r, (s.obj.session r).active = true →
      ((s.processWith node q true).obj.session r).encoding = false := by
    intro r hr
    rw [hsession]
    by_cases hrq : r = q
    · rw [hrq, update_self]
    · rw [update_of_ne hrq]
      exact hidle r hr
  refine ⟨by rw [hone]; exact le_rfl, ?_, ?_, ?_, ?_, ?_⟩
  · intro r hr henc
    rw [hact] at hr
    rw [hencoding r hr] at henc
    exact absurd henc (by simp)
  · intro hready
    exact absurd hready (by simp [processWith])
  · intro r hset
    obtain rfl : q = r := Pc.setup.inj hset
    refine ⟨hencoding q hactive, _, hone, rfl, ?_, ?_⟩
    · rw [hsession, update_self]
    · rw [hsession, update_self]
  · intro r hr
    obtain rfl : q = r := some.inj hr
    rw [hact]
    exact hactive
  · intro n r hr
    rw [hact, hhdl]
    exact hqueued n r hr

theorem Control.processWith (enqueued : Bool) : Control (s.processWith node q enqueued) := by
  cases enqueued with
  | false => exact Control.processWith_false hongoing hidle hactive hqueued
  | true => exact Control.processWith_true hongoing hidle hactive hqueued

end ProcessWith

theorem Control.idle (h : Control s) (hongoing : s.ongoing = []) (r : SessionPtr)
    (hr : (s.obj.session r).active = true) : (s.obj.session r).encoding = false := by
  by_contra henc
  obtain ⟨node, hnode, -⟩ := h.encoding r hr (by simpa only [Bool.not_eq_false] using henc)
  rw [hongoing] at hnode
  exact absurd hnode (by simp)

/-- Who is encoding, after the job manager has taken a job. -/
theorem Control.take (h : Control s) (ht : s.take enqueued = some t) (hserved : s.Served enqueued) : Control t := by
  obtain ⟨hready, hcases⟩ := take_cases ht hserved
  have hongoing := h.ready hready
  rcases hcases with ⟨hobj, hsame, hpc⟩ | ⟨node, rest, n, q, qs, hq, hcases⟩
  · exact h.of_obj hobj hsame (.inr hpc)
  · have hpopped : ∀ k, ∀ r ∈ ({ s with jobQueue := rest }.popSession n q qs).obj.sessionQ k, r ∈ s.obj.sessionQ k := by
      intro k r hr
      change r ∈ update s.obj.sessionQ n qs k at hr
      by_cases hk : k = n
      · rw [hk, update_self] at hr
        rw [hk, hq]
        exact mem_cons_of_mem _ hr
      · rw [update_of_ne hk] at hr
        exact hr
    have hactive := (h.queued n q (hq ▸ mem_cons_self)).1
    have hact := popSession_field (·.active) (fun _ => rfl) { s with jobQueue := rest } n q qs
    have henc := popSession_field (·.encoding) (fun _ => rfl) { s with jobQueue := rest } n q qs
    have hhdl := popSession_field (·.sessionHandleQ) (fun _ => rfl) { s with jobQueue := rest } n q qs
    rcases hcases with rfl | ⟨m, b, bs, -, -, rfl⟩
    · apply Control.processWith
      · exact hongoing
      · intro r hr
        rw [hact] at hr
        rw [henc]
        exact h.idle hongoing r hr
      · rw [hact]
        exact hactive
      · intro k r hr
        rw [hact, hhdl]
        exact h.queued k r (hpopped k r hr)
    · have hact' := popBuffer_field (·.active) (fun _ => rfl) ({ s with jobQueue := rest }.popSession n q qs) q m bs
      have henc' := popBuffer_field (·.encoding) (fun _ => rfl) ({ s with jobQueue := rest }.popSession n q qs) q m bs
      have hhdl' := popBuffer_field (·.sessionHandleQ) (fun _ => rfl)
        ({ s with jobQueue := rest }.popSession n q qs) q m bs
      apply Control.processWith
      · exact hongoing
      · intro r hr
        rw [hact', hact] at hr
        rw [henc', henc]
        exact h.idle hongoing r hr
      · rw [hact', hact]
        exact hactive
      · intro k r hr
        rw [hact', hact, hhdl', hhdl]
        exact h.queued k r (hpopped k r hr)

/-! ### The ledger -/

theorem Ledger.congr (h : Ledger s c) (hongoing : t.ongoing = s.ongoing)
    (hsessionQ : t.obj.sessionQ = s.obj.sessionQ) (houtBufQ : t.obj.outBufQ = s.obj.outBufQ)
    (hhandle : ∀ q, (t.obj.session q).sessionHandleQ = (s.obj.session q).sessionHandleQ)
    (hout : ∀ q, (t.obj.session q).outBufQ = (s.obj.session q).outBufQ)
    (hauto : ∀ q, (t.obj.session q).autoOutBuf = (s.obj.session q).autoOutBuf) : Ledger t c := by
  have hholds : t.Holds c = s.Holds c := by
    funext node
    simp only [Holds, hauto]
  constructor
  · intro q
    rw [hhandle]
    exact h.sessionQ q
  · intro q
    rw [hout]
    exact h.outBufQ q
  · rw [hsessionQ, hongoing]
    exact h.sessions
  · rw [houtBufQ, hongoing, hholds]
    exact h.outBufs

theorem Ledger.jobDone (h : Ledger s c) (hongoing : s.ongoing = [node])
    (hruns : s.Runs q node) : Ledger (s.jobDone q) c := by
  have hgone : (s.jobDone q).ongoing = [] := by
    simp [JobState.jobDone, hongoing, hruns.2.1]
  have hhdl : ∀ r, ((s.jobDone q).obj.session r).sessionHandleQ = (s.obj.session r).sessionHandleQ :=
    jobDone_field (·.sessionHandleQ) (fun _ => rfl) s.obj q
  have hout : ∀ r, ((s.jobDone q).obj.session r).outBufQ = (s.obj.session r).outBufQ :=
    jobDone_field (·.outBufQ) (fun _ => rfl) s.obj q
  have hsessions := h.sessions
  have houtBufs := h.outBufs
  rw [hongoing] at hsessions houtBufs
  constructor
  · intro r
    rw [hhdl]
    exact h.sessionQ r
  · intro r
    rw [hout]
    exact h.outBufQ r
  · have hq := jobDone_sessionQ s.obj q c.sessionQ
    simp only [h.sessionQ q] at hq
    simp only [filterMap_cons, hruns.1, filterMap_nil, filter_cons, filter_nil, decide_eq_true_eq] at hsessions
    rw [hgone]
    change (((s.obj.jobDone q).sessionQ c.sessionQ) ++ []).Perm _
    rw [hq, append_nil]
    split at hsessions
    case isTrue hmem => rwa [if_pos hmem]
    case isFalse hmem =>
      rw [if_neg hmem]
      simpa using hsessions
  · have hb := jobDone_outBufQ s.obj q c.outBufQ
    simp only [h.outBufQ q] at hb
    have hholds : s.Holds c node = true ↔ (s.obj.session q).autoOutBuf = true ∧ q ∈ c.sessions := by
      simp [Holds, hruns.1, and_comm]
    rw [hgone]
    change (((s.obj.jobDone q).outBufQ c.outBufQ) ++ []).Perm _
    rw [hb, append_nil]
    simp only [filter_cons, filter_nil, hholds] at houtBufs
    split at houtBufs
    case isTrue hmem =>
      rw [if_pos hmem, ← hruns.2.2]
      exact houtBufs
    case isFalse hmem =>
      rw [if_neg hmem]
      simpa using houtBufs

theorem Ledger.encodeError (h : Ledger s c) (hongoing : s.ongoing = [node])
    (hruns : s.Runs q node) (cb : Bool) : Ledger (s.encodeError q cb) c := by
  have hobj := encodeError_obj s q cb
  exact (h.jobDone hongoing hruns).congr (encodeError_ongoing s q cb) (by rw [hobj]; rfl)
    (by rw [hobj]; rfl) (fun _ => by rw [hobj]; rfl) (fun _ => by rw [hobj]; rfl)
    fun _ => by rw [hobj]; rfl

/-- The ledger while the job manager has a session, and a buffer if the job takes one, in hand. -/
structure InHand (s : JobState) (c : EncodeChain) (q : SessionPtr) (node : JobNode) : Prop where
  ongoing : s.ongoing = []
  sessionQ : ∀ q, (s.obj.session q).sessionHandleQ = some c.sessionQ ↔ q ∈ c.sessions
  outBufQ : ∀ q, (s.obj.session q).outBufQ = some c.outBufQ ↔ q ∈ c.sessions
  sessions : (s.obj.sessionQ c.sessionQ ++ if q ∈ c.sessions then [q] else []).Perm c.sessions
  outBufs : (s.obj.outBufQ c.outBufQ ++
    if (s.obj.session q).autoOutBuf = true ∧ q ∈ c.sessions then [bufOf node] else []).Perm (List.range' 1 c.numOut)

theorem InHand.processWith (h : InHand s c q node) (henq : enqueued = true ∨ (s.obj.session q).autoOutBuf = false) :
    Ledger (s.processWith node q enqueued) c := by
  cases enqueued with
  | true =>
    have hone : (s.processWith node q true).ongoing = [{ node with session := some q }] := by
      change s.ongoing ++ _ = _
      rw [h.ongoing]
      rfl
    have hfield : ∀ {β : Type} (f : JobSession → β) (r : SessionPtr), (∀ sess : JobSession, f { sess with
          encodeJob := node.encodeJob
          jobId := node.jobId
          abortState := .none
          encoding := false } = f sess) →
        f ((s.processWith node q true).obj.session r) = f (s.obj.session r) :=
      fun f r hf => update_field f (hf _) r
    have hholds : (s.processWith node q true).Holds c { node with session := some q } = true ↔
        (s.obj.session q).autoOutBuf = true ∧ q ∈ c.sessions := by
      simp only [Holds, any_some, hfield (·.autoOutBuf) q fun _ => rfl]
      simp [and_comm]
    refine ⟨?_, ?_, ?_, ?_⟩
    · intro r
      rw [hfield (·.sessionHandleQ) r fun _ => rfl]
      exact h.sessionQ r
    · intro r
      rw [hfield (·.outBufQ) r fun _ => rfl]
      exact h.outBufQ r
    · rw [hone]
      simp only [filterMap_cons, filterMap_nil, filter_cons, filter_nil,
        decide_eq_true_eq]
      exact h.sessions
    · rw [hone]
      simp only [filter_cons, filter_nil, hholds]
      have houtBufs := h.outBufs
      split at houtBufs
      case isTrue hmem =>
        rw [if_pos hmem]
        exact houtBufs
      case isFalse hmem =>
        rw [if_neg hmem]
        exact houtBufs
  | false =>
    have hauto : (s.obj.session q).autoOutBuf = false := by simpa using henq
    have hnone : (s.processWith node q false).ongoing = [] := by
      change s.ongoing.eraseP _ = []
      rw [h.ongoing]
      rfl
    have hobj : (s.processWith node q false).obj = s.obj.jobDone q := rfl
    have hsessions := h.sessions
    have houtBufs := h.outBufs
    rw [if_neg (by simp [hauto]), append_nil] at houtBufs
    refine ⟨?_, ?_, ?_, ?_⟩
    · intro r
      rw [hobj, jobDone_field (·.sessionHandleQ) fun _ => rfl]
      exact h.sessionQ r
    · intro r
      rw [hobj, jobDone_field (·.outBufQ) fun _ => rfl]
      exact h.outBufQ r
    · rw [hnone, hobj, jobDone_sessionQ]
      simp only [h.sessionQ q, filterMap_nil, filter_nil, append_nil]
      split at hsessions
      case isTrue hmem => rwa [if_pos hmem]
      case isFalse hmem => rwa [if_neg hmem, ← append_nil (s.obj.sessionQ c.sessionQ)]
    · rw [hnone, hobj, jobDone_outBufQ, if_neg (by simp [hauto])]
      simpa using houtBufs

theorem Ledger.popSession {n : ℕ} {qs : List SessionPtr} (h : Ledger s c)
    (hongoing : s.ongoing = []) (hq : s.obj.sessionQ n = q :: qs)
    (hhandle : (s.obj.session q).sessionHandleQ = some n) (node : JobNode) :
    InHand (s.popSession n q qs) c q node := by
  have hsessions := h.sessions
  have houtBufs := h.outBufs
  rw [hongoing] at hsessions houtBufs
  simp only [filterMap_nil, filter_nil, append_nil] at hsessions
  simp only [filter_nil, map_nil, append_nil] at houtBufs
  have hmem := h.sessionQ q
  rw [hhandle, some.injEq] at hmem
  have hauto : ((s.popSession n q qs).obj.session q).autoOutBuf = false := by
    change (update s.obj.session q _ q).autoOutBuf = false
    rw [update_self]
  refine ⟨hongoing, ?_, ?_, ?_, ?_⟩
  · intro r
    rw [popSession_field (·.sessionHandleQ) fun _ => rfl]
    exact h.sessionQ r
  · intro r
    rw [popSession_field (·.outBufQ) fun _ => rfl]
    exact h.outBufQ r
  · change (update s.obj.sessionQ n qs c.sessionQ ++ _).Perm _
    by_cases hn : n = c.sessionQ
    · rw [if_pos (hmem.mp hn), ← hn, update_self]
      rw [← hn, hq] at hsessions
      exact (perm_append_singleton q qs).trans hsessions
    · rw [if_neg fun hin => hn (hmem.mpr hin), update_of_ne (Ne.symm hn), append_nil]
      exact hsessions
  · rw [if_neg (by simp [hauto]), append_nil]
    exact houtBufs

theorem InHand.popBuffer {m b : ℕ} {bs : List ℕ} (h : InHand s c q node)
    (hauto : (s.obj.session q).autoOutBuf = false) (hm : (s.obj.session q).outBufQ = some m)
    (hb : s.obj.outBufQ m = (b + 1) :: bs) :
    InHand (s.popBuffer q m bs) c q { node with encodeJob := { node.encodeJob with dstIndex := b } } := by
  have houtBufs := h.outBufs
  rw [if_neg (by simp [hauto]), append_nil] at houtBufs
  have hmem := h.outBufQ q
  rw [hm, some.injEq] at hmem
  have hauto' : ((s.popBuffer q m bs).obj.session q).autoOutBuf = true := by
    change (update s.obj.session q _ q).autoOutBuf = true
    rw [update_self]
  refine ⟨h.ongoing, ?_, ?_, h.sessions, ?_⟩
  · intro r
    rw [popBuffer_field (·.sessionHandleQ) fun _ => rfl]
    exact h.sessionQ r
  · intro r
    rw [popBuffer_field (·.outBufQ) fun _ => rfl]
    exact h.outBufQ r
  · have hbuf : bufOf { node with encodeJob := { node.encodeJob with dstIndex := b } } = b + 1 :=
      rfl
    rw [hauto', hbuf]
    simp only [true_and]
    change (update s.obj.outBufQ m bs c.outBufQ ++ _).Perm _
    by_cases hn : m = c.outBufQ
    · rw [if_pos (hmem.mp hn), ← hn, update_self]
      rw [← hn, hb] at houtBufs
      exact (perm_append_singleton (b + 1) bs).trans houtBufs
    · rw [if_neg fun hin => hn (hmem.mpr hin), update_of_ne (Ne.symm hn), append_nil]
      exact houtBufs

/-- The sessions and the buffers, after the job manager has taken a job. -/
theorem Ledger.take (h : Ledger s c) (hcontrol : Control s)
    (ht : s.take enqueued = some t) (hserved : s.Served enqueued) : Ledger t c := by
  obtain ⟨hready, hcases⟩ := take_cases ht hserved
  have hongoing := hcontrol.ready hready
  rcases hcases with ⟨hobj, hsame, -⟩ | ⟨node, rest, n, q, qs, hq, hcases⟩
  · exact h.congr hsame (by rw [hobj]) (by rw [hobj]) (fun _ => by rw [hobj])
      (fun _ => by rw [hobj]) fun _ => by rw [hobj]
  · have hhandle := (hcontrol.queued n q (hq ▸ mem_cons_self)).2
    have hrest : Ledger { s with jobQueue := rest } c :=
      h.congr rfl rfl rfl (fun _ => rfl) (fun _ => rfl) fun _ => rfl
    have hinHand := hrest.popSession hongoing hq hhandle node
    have hauto : (({ s with jobQueue := rest }.popSession n q qs).obj.session q).autoOutBuf =
        false := by
      change (update s.obj.session q _ q).autoOutBuf = false
      rw [update_self]
    rcases hcases with rfl | ⟨m, b, bs, hm, hb, rfl⟩
    · exact hinHand.processWith (.inr hauto)
    · have hm' : (({ s with jobQueue := rest }.popSession n q qs).obj.session q).outBufQ = some m := by
        rw [← hm]
        exact popSession_field (·.outBufQ) (fun _ => rfl) _ n q qs q
      exact (hinHand.popBuffer hauto hm' hb).processWith (.inl rfl)

/-! ### A run -/

theorem startJob_cases (s : JobState) (job : EncodeJob) (calls : StartCalls) :
    (s.startJob job calls).ongoing = s.ongoing ∧ (s.startJob job calls).pc = s.pc ∧
      ((s.startJob job calls).obj = s.obj ∨ ∃ p k, (s.startJob job calls).obj =
          s.obj.setSession p { s.obj.session p with jobHist := k }) := by
  rw [startJob]
  cases getSession job.sessionId with
  | none => exact ⟨rfl, rfl, .inl rfl⟩
  | some p =>
    simp only
    split
    · exact ⟨rfl, rfl, .inl rfl⟩
    · split
      · exact ⟨rfl, rfl, .inr ⟨p, _, rfl⟩⟩
      · exact ⟨rfl, rfl, .inr ⟨p, _, rfl⟩⟩

variable {sess : JobSession}

theorem Control.setSession (h : Control s) (hobj : t.obj = s.obj.setSession q sess) (hongoing : t.ongoing = s.ongoing)
    (hpc : t.pc = s.pc) (hactive : sess.active = (s.obj.session q).active)
    (hencoding : sess.encoding = (s.obj.session q).encoding)
    (hhandle : sess.sessionHandleQ = (s.obj.session q).sessionHandleQ)
    (hid : sess.jobId = (s.obj.session q).jobId)
    (hjob : sess.encodeJob = (s.obj.session q).encodeJob) : Control t := by
  refine h.congr hongoing (.inl hpc) (by rw [hobj]; rfl) ?_ ?_ ?_ ?_ ?_
  · rw [hobj]
    exact update_field (·.active) hactive
  · rw [hobj]
    exact update_field (·.encoding) hencoding
  · rw [hobj]
    exact update_field (·.sessionHandleQ) hhandle
  · rw [hobj]
    exact update_field (·.jobId) hid
  · rw [hobj]
    exact update_field (·.encodeJob) hjob

theorem Ledger.setSession (h : Ledger s c) (hobj : t.obj = s.obj.setSession q sess) (hongoing : t.ongoing = s.ongoing)
    (hhandle : sess.sessionHandleQ = (s.obj.session q).sessionHandleQ)
    (hout : sess.outBufQ = (s.obj.session q).outBufQ)
    (hauto : sess.autoOutBuf = (s.obj.session q).autoOutBuf) : Ledger t c := by
  refine h.congr hongoing (by rw [hobj]; rfl) (by rw [hobj]; rfl) ?_ ?_ ?_
  · rw [hobj]
    exact update_field (·.sessionHandleQ) hhandle
  · rw [hobj]
    exact update_field (·.outBufQ) hout
  · rw [hobj]
    exact update_field (·.autoOutBuf) hauto

theorem Control.setupDone (h : Control s) (hpc : s.pc = .setup q) :
    Control { s.setSession q { s.obj.session q with encoding := true } with pc := .emptying q } := by
  obtain ⟨-, node, hnode, hruns⟩ := h.setup q hpc
  have hactive := h.atWork q (by rw [JobState.atWork, hpc])
  have hact : ∀ r, ((s.setSession q { s.obj.session q with encoding := true }).obj.session
      r).active = (s.obj.session r).active :=
    update_field (·.active) rfl
  have hhdl : ∀ r, ((s.setSession q { s.obj.session q with encoding := true }).obj.session
      r).sessionHandleQ = (s.obj.session r).sessionHandleQ :=
    update_field (·.sessionHandleQ) rfl
  refine ⟨h.limit, ?_, ?_, ?_, ?_, ?_⟩
  · intro r hr henc
    by_cases hrq : r = q
    · subst hrq
      refine ⟨node, hnode, ?_⟩
      rw [Runs]
      simp only [setSession_session]
      exact hruns
    · simp only [setSession_session_of_ne hrq] at hr henc
      obtain ⟨node', hnode', hruns'⟩ := h.encoding r hr henc
      refine ⟨node', hnode', ?_⟩
      rw [Runs]
      simp only [setSession_session_of_ne hrq]
      exact hruns'
  · intro hready
    exact absurd hready (by simp)
  · intro r hset
    exact absurd hset (by simp)
  · intro r hr
    obtain rfl : q = r := some.inj hr
    rw [hact]
    exact hactive
  · intro n r hr
    rw [hact]
    rw [hhdl]
    exact h.queued n r hr

/-- The job of an encoding session, once a write to the session and a callback have gone before. -/
theorem Control.reported {u : JobState} (h : Control s)
    (hactive : (s.obj.session q).active = true) (henc : (s.obj.session q).encoding = true)
    (hobj : u.obj = s.obj.setSession q sess) (hongoing : u.ongoing = s.ongoing)
    (hpc : u.pc = s.pc) (hsame : ∃ k e, sess = { s.obj.session q with fbdCount := k, errorFlag := e })
    (hc : Ledger s c) : Control (u.jobDone q) ∧ Ledger (u.jobDone q) c := by
  obtain ⟨k, e, rfl⟩ := hsame
  obtain ⟨node, hnode, hruns⟩ := h.encoding q hactive henc
  have hu : Control u := h.setSession hobj hongoing hpc rfl rfl rfl rfl rfl
  have hu' : Ledger u c := hc.setSession hobj hongoing rfl rfl rfl
  have hself : u.obj.session q = { s.obj.session q with fbdCount := k, errorFlag := e } := by
    rw [hobj, MmJpegObj.setSession_session]
  have hruns' : u.Runs q node := by
    rw [Runs, hself]
    exact hruns
  have hnode' : u.ongoing = [node] := hongoing.trans hnode
  refine ⟨hu.jobDone ?_ hnode' hruns' (.inr ?_), hu'.jobDone hnode' hruns'⟩
  · rw [hself]
    exact hactive
  · rw [hself]
    exact henc

/-- **One step** of an orderly run keeps both. -/
theorem Ledger.step {e : JobEvent} (hcontrol : Control s) (h : Ledger s c)
    (horderly : s.Orderly e) (ht : s.step e = some t) : Control t ∧ Ledger t c := by
  have hsame {u : JobState} (hobj : u.obj = s.obj) (hongoing : u.ongoing = s.ongoing) : Ledger u c :=
    h.congr hongoing (by rw [hobj]) (by rw [hobj]) (fun _ => by rw [hobj]) (fun _ => by rw [hobj]) fun _ => by rw [hobj]
  cases does_of_step ht with
  | startJob job calls =>
    obtain ⟨hongoing, hpc, hobj | ⟨p, k, hobj⟩⟩ := startJob_cases s job calls
    · exact ⟨hcontrol.of_obj hobj hongoing (.inl hpc), hsame hobj hongoing⟩
    · exact ⟨hcontrol.setSession hobj hongoing hpc rfl rfl rfl rfl rfl, h.setSession hobj hongoing rfl rfl rfl⟩
  | atLimit _ _ _ => exact ⟨hcontrol.of_obj rfl rfl (.inl rfl), hsame rfl rfl⟩
  | ready _ _ hlimit =>
    have hnil : s.ongoing = [] := by
      rw [mmJpegConcurrentSessionsCount] at hlimit
      exact length_eq_zero_iff.mp (by omega)
    refine ⟨⟨hcontrol.limit, hcontrol.encoding, fun _ => hnil, ?_, ?_, hcontrol.queued⟩, hsame rfl rfl⟩
    · intro q hset
      exact absurd hset (by simp)
    · intro q hq
      exact absurd hq (by simp [atWork])
  | take htake => exact ⟨hcontrol.take htake horderly, h.take hcontrol htake horderly⟩
  | setUp hpc => exact ⟨hcontrol.setupDone hpc, h.setSession rfl rfl rfl rfl rfl⟩
  | @setupFails q hpc =>
    obtain ⟨-, node, hnode, hruns⟩ := hcontrol.setup q hpc
    have hactive := hcontrol.atWork q (by rw [atWork, hpc])
    exact ⟨hcontrol.encodeError hactive hnode hruns true, h.encodeError hnode hruns true⟩
  | @emptied q hpc =>
    have hactive := hcontrol.atWork q (by rw [atWork, hpc])
    refine ⟨⟨hcontrol.limit, hcontrol.encoding, ?_, ?_, ?_, hcontrol.queued⟩, hsame rfl rfl⟩
    · intro hready
      exact absurd hready (by simp)
    · intro r hset
      exact absurd hset (by simp)
    · intro r hr
      obtain rfl : q = r := some.inj hr
      exact hactive
  | filled hpc => exact ⟨hcontrol.of_obj rfl rfl (.inr rfl), hsame rfl rfl⟩
  | @emptyFails q hpc | @fillFails q hpc =>
    have hwork : s.atWork = some q := by rw [atWork, hpc]
    have hactive := hcontrol.atWork q hwork
    obtain ⟨node, hnode, hruns⟩ := hcontrol.encoding q hactive (horderly.resolve_left (by simp) q hwork)
    exact ⟨hcontrol.encodeError hactive hnode hruns true, h.encodeError hnode hruns true⟩
  | @fbd q hactive =>
    rw [fbd]
    simp only
    split
    case isTrue => exact ⟨hcontrol.of_obj rfl rfl (.inl rfl), hsame rfl rfl⟩
    case isFalse =>
      split
      case isTrue =>
        exact hcontrol.reported hactive horderly (by rw [jpegCb_obj]; rfl)
          (by rw [jpegCb_ongoing]; rfl) (by rw [jpegCb_pc]; rfl) ⟨_, _, rfl⟩ h
      case isFalse =>
        exact ⟨hcontrol.setSession rfl rfl rfl rfl rfl rfl rfl rfl, h.setSession rfl rfl rfl rfl rfl⟩
  | @eventError q nData2 hactive =>
    rw [eventError]
    simp only
    split
    case isTrue =>
      exact ⟨hcontrol.setSession rfl rfl rfl rfl rfl rfl rfl rfl, h.setSession rfl rfl rfl rfl rfl⟩
    case isFalse =>
      split
      case isTrue henc =>
        exact hcontrol.reported hactive henc (by rw [jpegCb_obj]; rfl)
          (by rw [jpegCb_ongoing]; rfl) (by rw [jpegCb_pc]; rfl) ⟨_, _, rfl⟩ h
      case isFalse =>
        exact ⟨hcontrol.setSession rfl rfl rfl rfl rfl rfl rfl rfl, h.setSession rfl rfl rfl rfl rfl⟩
  | eventCmdComplete hactive =>
    rw [eventCmdComplete]
    split
    case isTrue =>
      exact ⟨hcontrol.setSession rfl rfl rfl rfl rfl rfl rfl rfl, h.setSession rfl rfl rfl rfl rfl⟩
    case isFalse =>
      exact ⟨hcontrol.setSession rfl rfl rfl rfl rfl rfl rfl rfl, h.setSession rfl rfl rfl rfl rfl⟩
  | abortJob id sendOk hfree =>
    rw [abortJob]
    split
    case isTrue => exact ⟨hcontrol.of_obj rfl rfl (.inl rfl), hsame rfl rfl⟩
    case isFalse hqueue =>
      rw [if_neg (horderly.resolve_left hqueue)]
      exact ⟨hcontrol, h⟩
  | destroySession p sendOk _ _ => exact absurd horderly id

/-- A chain as `mm_jpeg_create_session` leaves it: its sessions are active, do not encode, and share
its two queues, which hold all of them and all output buffers. -/
structure Created (o : MmJpegObj) (c : EncodeChain) : Prop where
  nodup : c.sessions.Nodup
  sessionQ : ∀ q, (o.session q).sessionHandleQ = some c.sessionQ ↔ q ∈ c.sessions
  outBufQ : ∀ q, (o.session q).outBufQ = some c.outBufQ ↔ q ∈ c.sessions
  queued : o.sessionQ c.sessionQ = c.sessions
  freeBufs : o.outBufQ c.outBufQ = List.range' 1 c.numOut

/-- No active session encodes, and the queues hold active sessions that have them. -/
structure Idle (o : MmJpegObj) : Prop where
  encoding : ∀ q, (o.session q).active = true → (o.session q).encoding = false
  queued : ∀ n, ∀ q ∈ o.sessionQ n, (o.session q).active = true ∧ (o.session q).sessionHandleQ = some n

theorem Created.start {o : MmJpegObj} (h : Created o c) (hidle : Idle o) :
    Control { obj := o } ∧ Ledger { obj := o } c := by
  refine ⟨⟨Nat.zero_le _, ?_, fun _ => rfl, ?_, ?_, hidle.queued⟩, ⟨h.sessionQ, h.outBufQ, ?_, ?_⟩⟩
  · intro q hq henc
    rw [hidle.encoding q hq] at henc
    exact absurd henc (by simp)
  · intro q hset
    exact absurd hset (by simp)
  · intro q hq
    exact absurd hq (by simp [atWork])
  · simp [h.queued]
  · simp [h.freeBufs]

/-- **In an orderly run** each session of a chain is free once or runs one ongoing job, and each of
its output buffers is free once or held by one such job. -/
theorem accounted_run {o : MmJpegObj} {es : List JobEvent} (hcreated : Created o c)
    (hidle : Idle o) (hrun : Run (guarded Orderly (fires step)) { obj := o } es t) :
    Accounted t c := by
  have hboth : Control t ∧ Ledger t c :=
    hrun.invariant (I := fun s => Control s ∧ Ledger s c)
      (fun s e t hs ht => hs.2.step hs.1 ht.1 ht.2) (hcreated.start hidle)
  exact hboth.2.accounted hcreated.nodup

/-- A client with one session and one output buffer, as `mm_jpeg_create_session` leaves them. -/
def oneSession : MmJpegObj where
  session q :=
    if q = ⟨0, 0⟩ then
      { active := true
        omxHandle := some 7
        params := { numSrcBufs := 1, numDstBufs := 1 }
        sessionId := 0x1000000
        sessionHandleQ := some 0
        outBufQ := some 1 }
    else {}
  numSessions := 1
  sessionQ n := if n = 0 then [⟨0, 0⟩] else []
  outBufQ n := if n = 1 then [1] else []
  numQueues := 2

/-- Its chain. -/
def oneChain : EncodeChain := { sessionQ := 0, outBufQ := 1, sessions := [⟨0, 0⟩], numOut := 1 }

theorem oneSession_created : Created oneSession oneChain := by
  refine ⟨nodup_singleton _, ?_, ?_, rfl, rfl⟩
  · intro q
    by_cases hq : q = ⟨0, 0⟩ <;> simp [oneSession, oneChain, hq]
  · intro q
    by_cases hq : q = ⟨0, 0⟩ <;> simp [oneSession, oneChain, hq]

theorem oneSession_idle : Idle oneSession := by
  constructor
  · intro q _
    by_cases hq : q = ⟨0, 0⟩ <;> simp [oneSession, hq]
  · intro n q hq
    by_cases hn : n = 0
    · obtain rfl : q = ⟨0, 0⟩ := by simpa [oneSession, hn] using hq
      simp [oneSession, hn]
    · simp [oneSession, hn] at hq

/-- A job that takes an output buffer by itself, up to the return of `mm_jpeg_session_encode`. -/
def startOne : List JobEvent :=
  [.startJob { sessionId := 0x1000000, dstIndex := -1 } {}, .wake, .take true, .setupDone true,
    .emptyThisBuffer true, .fillThisBuffer true]

/-- The job is done: everything is back in its queue. -/
theorem accounted_one : ∃ t, t.obj.sessionQ 0 = [⟨0, 0⟩] ∧ t.obj.outBufQ 1 = [1] ∧ Accounted t oneChain := by
  have ⟨t, hrun, hsession, hout⟩ : ∃ t, Run (guarded Orderly (fires step)) { obj := oneSession }
      (startOne ++ [.fbd ⟨0, 0⟩]) t ∧ t.obj.sessionQ 0 = [⟨0, 0⟩] ∧ t.obj.outBufQ 1 = [1] :=
    exists_run (by decide +kernel)
  exact ⟨t, hsession, hout, accounted_run oneSession_created oneSession_idle hrun⟩

/-- An aborted job takes its session and its output buffer with it. -/
theorem abort_loses_session : ∃ t,
    Run (fires step) { obj := oneSession } (startOne ++ [.abortJob 0x1000000 fun _ => true]) t ∧
      t.ongoing = [] ∧ t.obj.sessionQ 0 = [] ∧ t.obj.outBufQ 1 = [] ∧ ¬ Accounted t oneChain := by
  refine (exists_run_fires (P := fun t => t.ongoing = [] ∧ t.obj.sessionQ 0 = [] ∧ t.obj.outBufQ 1 = [])
    (by decide +kernel)).imp fun t ht => ⟨ht.1, ?_⟩
  obtain ⟨-, hongoing, hsession, hout⟩ := ht
  refine ⟨hongoing, hsession, hout, fun h => ?_⟩
  have hcount := h.sessions ⟨0, 0⟩ mem_cons_self
  rw [show oneChain.sessionQ = 0 from rfl, hsession, hongoing] at hcount
  exact absurd hcount (by decide)

end JobState

end MmJpeg

end Marlin
