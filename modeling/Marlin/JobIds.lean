import Marlin.JpegSession
import Marlin.StartJob

/-!
# The Ids of Jobs

The id of a job is packed by `|` from the id of its session, whose byte 3 is the magic value, and from the number
of the job, which is the history count of the session modulo `JOB_HIST_MAX` and goes from bit 16 upwards. A
number of a job may have fourteen bits, so that its bit 8 is the bit of the magic value.

## Conventions

* A history has the calls of `mm_jpeg_start_job` and, between them, anything that leaves the history counts of
  the sessions as they are. A call is for a session of a client, and its job has the id of the session.
* What the code does not have: for an accepted job, its session and the history count that it found.
* The data of a queue's node is `none` where the pointer is `NULL`.

## Main results

* `jobId_inj`: when two jobs of a session get the same id.
* `identify_iff`: when the ids of a history's jobs identify the jobs.
-/

namespace Marlin

namespace MmJpeg

namespace Start

open Progress (idOf)

/-! ### The queue -/

/-- `mm_jpeg_job_q_node_t`. -/
inductive JobData
  | encode (node : Node)
  | decode (job_id : ℕ)
  deriving DecidableEq

/-- The id of the job. -/
def JobData.jobId : JobData → ℕ
  | .encode node => node.job_id
  | .decode job_id => job_id

/-- `mm_jpeg_queue_remove_job_by_job_id`: the job that is removed, and the queue that is left. -/
def removeJobByJobId (job_id : ℕ) : List (Option JobData) → Option JobData × List (Option JobData)
  | [] => (none, [])
  | none :: q => (none, none :: q)
  | some data :: q =>
    if data.jobId = job_id then (some data, q)
    else
      let (job, rest) := removeJobByJobId job_id q
      (job, some data :: rest)

/-! ### Histories -/

/-- The number that a history count gives to a job. -/
def histNumber (count : ℕ) : ℕ := count % 2 ^ 32 % jobHistMax

/-- An accepted job. -/
structure Accepted where
  session : SessionPtr
  count : ℕ
  node : Node

/-- The object, and the jobs that were accepted. -/
structure History where
  obj : Obj := {}
  accepted : List Accepted := []

/-- A call of `mm_jpeg_start_job`, or what happens between the calls. -/
inductive HistEvent
  | start (client : Fin maxJpegClientNum) (idx : Fin mmJpegMaxSession) (job : JobParams) (calls : Calls)
  | other (obj : Obj)

namespace History

/-- One event. The jobs that a call accepts are those it appends to the queue. -/
def step (concurrent : ℕ) (h : History) : HistEvent → History
  | .start client idx job calls =>
    let p : SessionPtr := ⟨client, idx⟩
    let o := (h.obj.startJob concurrent (some { job with session_id := idOf client idx }) calls).obj
    { obj := o
      accepted := h.accepted ++
        (o.job_queue.drop h.obj.job_queue.length).map (Accepted.mk p (h.obj.session p).job_hist) }
  | .other o =>
    { h with obj := { o with
        session := fun p => { o.session p with job_hist := (h.obj.session p).job_hist } } }

/-- The history of some events. -/
def run (concurrent : ℕ) (o : Obj) (events : List HistEvent) : History :=
  events.foldl (step concurrent) { obj := o }

/-- The accepted jobs of a session. -/
def jobsOf (h : History) (p : SessionPtr) : List Accepted := h.accepted.filter fun a => a.session = p

/-- Jobs of a session that were accepted one after the other, `JOB_HIST_MAX` at most. -/
def Window (h : History) (p : SessionPtr) (w : List Accepted) : Prop :=
  w <:+: h.jobsOf p ∧ w.length ≤ jobHistMax

/-- Jobs that wait together: those of each session are from one window. -/
def Waiting (h : History) (queue : List Accepted) : Prop :=
  (∀ a ∈ queue, a ∈ h.accepted) ∧ ∀ p, ∃ w, h.Window p w ∧ (queue.filter fun a => a.session = p).Sublist w

/-- The data of a queue in which jobs wait. -/
def data (queue : List Accepted) : List (Option JobData) := queue.map fun a => some (.encode a.node)

/-- **Job identifiers identify jobs.** -/
structure Identify (h : History) : Prop where
  distinct : ∀ p w, h.Window p w → (w.map fun a => a.node.job_id).Nodup
  sessions : ∀ a ∈ h.accepted, ∀ b ∈ h.accepted, a.session ≠ b.session → a.node.job_id ≠ b.node.job_id
  back : ∀ a ∈ h.accepted, getSession a.node.job_id = some a.session
  removes : ∀ queue, h.Waiting queue → ∀ i a, queue[i]? = some a →
    removeJobByJobId a.node.job_id (data queue) = (some (.encode a.node), data (queue.eraseIdx i))

/-- No two jobs of a window found counts whose numbers are the same, or differ only in the bit that the magic
value has in the id. -/
def Clear (h : History) : Prop :=
  ∀ p w, h.Window p w → w.Pairwise fun a b =>
      histNumber b.count ≠ histNumber a.count ∧ histNumber b.count ≠ histNumber a.count ^^^ jobIdMagicval <<< 8

end History

/-! ### The id of a job -/

/-- The id that a session gives to a job. -/
def jobId (p : SessionPtr) (count : ℕ) : ℕ := idOf p.client p.idx ||| histNumber count <<< 16

theorem or_two_pow_inj {m n k : ℕ} : 2 ^ k ||| m = 2 ^ k ||| n ↔ n = m ∨ n = m ^^^ 2 ^ k := by
  constructor
  · intro h
    have hbit : ∀ i, i ≠ k → n.testBit i = m.testBit i := fun i hi => by
      have := congrArg (Nat.testBit · i) h
      simpa [Nat.testBit_or, Nat.testBit_two_pow, Ne.symm hi] using this.symm
    by_cases hk : n.testBit k = m.testBit k
    · refine .inl (Nat.eq_of_testBit_eq fun i => ?_)
      by_cases hi : i = k
      · rw [hi, hk]
      · exact hbit i hi
    · refine .inr (Nat.eq_of_testBit_eq fun i => ?_)
      rw [Nat.testBit_xor, Nat.testBit_two_pow]
      by_cases hi : i = k
      · rw [hi, decide_eq_true rfl, Bool.xor_true]
        exact Bool.eq_not_of_ne hk
      · rw [hbit i hi, decide_eq_false (Ne.symm hi), Bool.xor_false]
  · rintro (rfl | rfl)
    · rfl
    · refine Nat.eq_of_testBit_eq fun i => ?_
      rw [Nat.testBit_or, Nat.testBit_or, Nat.testBit_xor, Nat.testBit_two_pow]
      by_cases hi : k = i
      · simp [hi]
      · simp [hi]

variable {p q : SessionPtr} {m n : ℕ}

/-- The session of a client: its indices are within the tables. -/
def Known (p : SessionPtr) : Prop := p.client < maxJpegClientNum ∧ p.idx < mmJpegMaxSession

theorem getSession_idOf (h : Known p) : getSession (idOf p.client p.idx) = some p := by
  obtain ⟨client, idx⟩ := p
  obtain ⟨hc, hi⟩ := h
  have hall : ∀ c < maxJpegClientNum, ∀ i < mmJpegMaxSession, getSession (idOf c i) = some ⟨c, i⟩ := by
    decide
  exact hall client hc idx hi

theorem getSession_eq (h : Known p) (count : ℕ) : getSession (jobId p count) = some p := by
  rw [jobId, getSession_jobId, getSession_idOf h]

theorem jobId_shiftRight (h : Known p) (count : ℕ) : jobId p count >>> 16 = 2 ^ 8 ||| histNumber count := by
  obtain ⟨client, idx⟩ := p
  obtain ⟨hc, hi⟩ := h
  have hall : ∀ c < maxJpegClientNum, ∀ i < mmJpegMaxSession, idOf c i >>> 16 = 2 ^ 8 := by decide
  rw [jobId, Nat.shiftRight_or_distrib, Nat.shiftLeft_shiftRight, hall client hc idx hi]

theorem jobId_eq (p : SessionPtr) (count : ℕ) :
    jobId p count = (p.idx <<< 8 ||| p.client) ||| (2 ^ 8 ||| histNumber count) <<< 16 := by
  have hmagic : jobIdMagicval <<< 24 = 2 ^ 8 <<< 16 := by decide
  rw [jobId, idOf, hmagic, Nat.shiftLeft_or_distrib, Nat.or_assoc (2 ^ 8 <<< 16),
    Nat.or_comm (2 ^ 8 <<< 16), Nat.or_assoc]

/-- **When two jobs of a session get the same id.** -/
theorem jobId_inj (h : Known p) : jobId p m = jobId p n ↔
      histNumber n = histNumber m ∨ histNumber n = histNumber m ^^^ jobIdMagicval <<< 8 := by
  have hmagic : jobIdMagicval <<< 8 = 2 ^ 8 := by decide
  rw [hmagic, ← or_two_pow_inj]
  constructor
  · intro heq
    rw [← jobId_shiftRight h, ← jobId_shiftRight h, heq]
  · intro heq
    rw [jobId_eq, jobId_eq, heq]

theorem jobId_ne (hp : Known p) (hq : Known q) (hne : p ≠ q) : jobId p m ≠ jobId q n := by
  intro heq
  have hsame := congrArg getSession heq
  rw [getSession_eq hp, getSession_eq hq] at hsame
  exact hne (Option.some.inj hsame)

/-! ### The queue -/

theorem removeJobByJobId_data {queue : List Accepted}
    (h : queue.Pairwise fun a b => a.node.job_id ≠ b.node.job_id) {i : ℕ} {a : Accepted}
    (hi : queue[i]? = some a) :
    removeJobByJobId a.node.job_id (History.data queue) = (some (.encode a.node), History.data (queue.eraseIdx i)) := by
  induction queue generalizing i with
  | nil => simp at hi
  | cons b queue ih =>
    obtain ⟨hb, hrest⟩ := List.pairwise_cons.mp h
    cases i with
    | zero =>
      obtain rfl : b = a := by simpa using hi
      rw [History.data, List.map_cons, removeJobByJobId, if_pos (by rfl)]
      rfl
    | succ i =>
      have hi : queue[i]? = some a := by simpa using hi
      have hne : (JobData.encode b.node).jobId ≠ a.node.job_id := hb a (List.mem_of_getElem? hi)
      have hdata : History.data (b :: queue) = some (.encode b.node) :: History.data queue := rfl
      rw [hdata, removeJobByJobId, if_neg hne, ih hrest hi]
      rfl

/-! ### What a call adds -/

section

variable {concurrent : ℕ} {o : Obj} {job : JobParams} {calls : Calls}

theorem startJob_appends (concurrent : ℕ) (o : Obj) (job : JobParams) (calls : Calls)
    (hp : getSession job.session_id = some p) :
    (o.startJob concurrent (some job) calls).obj.job_queue.drop o.job_queue.length =
        [(o.session p).node job] ∧ o.Takes concurrent p job calls ∨
      (o.startJob concurrent (some job) calls).obj.job_queue.drop o.job_queue.length = [] := by
  by_cases h : o.Takes concurrent p job calls
  · rw [(startJob_takes hp h).2.2.1, List.drop_left]
    exact .inl ⟨rfl, h⟩
  · rw [(startJob_not_takes hp h).1, List.drop_length]
    exact .inr rfl

theorem settleBuffer_job_hist (concurrent : ℕ) (p : SessionPtr) (job : JobParams) (ba : ℕ → Bool) (o : Obj)
    (q : SessionPtr) :
    ((o.settleBuffer concurrent p job ba).2.2.session q).job_hist = (o.session q).job_hist := by
  rw [Obj.settleBuffer]
  split
  · dsimp only [Obj.setSession]
    by_cases hq : q = p
    · rw [hq, Function.update_self]
    · rw [Function.update_of_ne hq]
  · rfl

theorem enqueueJob_job_hist (p : SessionPtr) (job : JobParams) (calls : Calls) (o : Obj) (q : SessionPtr) :
    ((o.enqueueJob p job calls).obj.session q).job_hist =
      (o.session q).job_hist + if q = p ∧ calls.malloc = true then 1 else 0 := by
  rw [Obj.enqueueJob]
  cases calls.malloc with
  | false => simp
  | true =>
    have hcount : ((o.setSession p { o.session p with job_hist := (o.session p).job_hist + 1 }).session
        q).job_hist = (o.session q).job_hist + if q = p then 1 else 0 := by
      dsimp only [Obj.setSession]
      by_cases hq : q = p
      · rw [hq, if_pos rfl, Function.update_self]
      · rw [if_neg hq, Function.update_of_ne hq, Nat.add_zero]
    cases calls.enq <;> simpa using hcount

theorem startJob_job_hist_le (concurrent : ℕ) (o : Obj) (job : JobParams) (calls : Calls) (q : SessionPtr) :
    (o.session q).job_hist ≤ ((o.startJob concurrent (some job) calls).obj.session q).job_hist := by
  rw [Obj.startJob]
  dsimp only
  split
  · exact le_rfl
  · have hsame := settleBuffer_job_hist concurrent
    split
    · exact (hsame ..).ge
    split
    · exact (hsame ..).ge
    split
    · exact (hsame ..).ge
    · rw [enqueueJob_job_hist, hsame]
      exact Nat.le_add_right ..

theorem startJob_takes_job_hist (hp : getSession job.session_id = some p) (h : o.Takes concurrent p job calls) :
    ((o.startJob concurrent (some job) calls).obj.session p).job_hist = (o.session p).job_hist + 1 := by
  obtain ⟨hgoes, -⟩ := settleBuffer_spec concurrent p job calls.bufferAllocate o
  obtain ⟨-, -, b, hsession⟩ := settleBuffer_frame concurrent p job calls.bufferAllocate o
  obtain ⟨hactive, hsrc, hdst⟩ := h.accepts
  rw [Obj.startJob, hp]
  dsimp only
  rw [hgoes.mpr h.buffer, Bool.not_true, if_neg Bool.false_ne_true, hsession]
  dsimp only
  rw [hactive, Bool.not_true, if_neg Bool.false_ne_true,
    if_neg (not_or.mpr ⟨Int.not_le.mpr hsrc, Int.not_le.mpr hdst⟩), enqueueJob_job_hist,
    settleBuffer_job_hist, if_pos ⟨rfl, h.malloc⟩]

end

namespace History

/-- Accepted jobs have the ids that their sessions gave them. -/
def Recorded (h : History) : Prop :=
  ∀ a ∈ h.accepted, Known a.session ∧ a.node.job_id = jobId a.session a.count

/-- The counts of a session's jobs increase, and are below its history count. -/
def Counted (h : History) (p : SessionPtr) : Prop :=
  (h.jobsOf p).Pairwise (fun a b => a.count < b.count) ∧ ∀ a ∈ h.jobsOf p, a.count < (h.obj.session p).job_hist

variable {concurrent : ℕ} {h : History}

theorem step_start (concurrent : ℕ) (h : History) (client : Fin maxJpegClientNum)
    (idx : Fin mmJpegMaxSession) (job : JobParams) (calls : Calls) :
    h.step concurrent (.start client idx job calls) =
      let r := h.obj.startJob concurrent (some { job with session_id := idOf client idx }) calls
      { obj := r.obj
        accepted := h.accepted ++ (r.obj.job_queue.drop h.obj.job_queue.length).map
          (Accepted.mk ⟨client, idx⟩ (h.obj.session ⟨client, idx⟩).job_hist) } :=
  rfl

theorem step_cases (concurrent : ℕ) (h : History) (e : HistEvent) :
    (∀ q, (h.obj.session q).job_hist ≤ ((h.step concurrent e).obj.session q).job_hist) ∧
      ((h.step concurrent e).accepted = h.accepted ∨
        ∃ p node, Known p ∧ node.job_id = jobId p (h.obj.session p).job_hist ∧
          (h.step concurrent e).accepted = h.accepted ++ [⟨p, (h.obj.session p).job_hist, node⟩] ∧
          ((h.step concurrent e).obj.session p).job_hist = (h.obj.session p).job_hist + 1) := by
  cases e with
  | other o => exact ⟨fun _ => le_rfl, .inl rfl⟩
  | start client idx job calls =>
    have hknown : Known ⟨client, idx⟩ := ⟨client.isLt, idx.isLt⟩
    have hp := getSession_idOf hknown
    dsimp only at hp
    rw [step_start]
    dsimp only
    generalize hjob : ({ job with session_id := idOf client idx } : JobParams) = job'
    have hid : job'.session_id = idOf client idx := by rw [← hjob]
    refine ⟨startJob_job_hist_le concurrent h.obj job' calls, ?_⟩
    rw [← hid] at hp
    rcases startJob_appends concurrent h.obj job' calls hp with ⟨hnew, htakes⟩ | hnew
    · refine .inr ⟨⟨client, idx⟩, (h.obj.session ⟨client, idx⟩).node job', hknown, ?_, ?_,
        startJob_takes_job_hist hp htakes⟩
      · rw [jobId, ← hid]
        rfl
      · rw [hnew]
        rfl
    · rw [hnew, List.map_nil, List.append_nil]
      exact .inl rfl

theorem Recorded.step (hr : h.Recorded) (e : HistEvent) : (h.step concurrent e).Recorded := by
  intro a ha
  rcases (step_cases concurrent h e).2 with hacc | ⟨p, node, hknown, hid, hacc, -⟩
  · rw [hacc] at ha
    exact hr a ha
  · rw [hacc, List.mem_append, List.mem_singleton] at ha
    rcases ha with ha | rfl
    · exact hr a ha
    · exact ⟨hknown, hid⟩

theorem Counted.step {p : SessionPtr} (hc : h.Counted p) (e : HistEvent) : (h.step concurrent e).Counted p := by
  obtain ⟨hpair, hbelow⟩ := hc
  obtain ⟨hle, hcase⟩ := step_cases concurrent h e
  rcases hcase with hacc | ⟨q, node, -, -, hacc, hcount⟩
  · rw [Counted, jobsOf, hacc]
    exact ⟨hpair, fun a ha => (hbelow a ha).trans_le (hle p)⟩
  · rw [Counted, jobsOf, hacc, List.filter_append]
    by_cases hq : q = p
    · subst hq
      rw [List.filter_singleton, decide_eq_true rfl, cond_true, hcount]
      refine ⟨List.pairwise_append.mpr ⟨hpair, List.pairwise_singleton .., fun a ha b hb => ?_⟩, fun a ha => ?_⟩
      · obtain rfl := List.mem_singleton.mp hb
        exact hbelow a ha
      · rcases List.mem_append.mp ha with ha | ha
        · exact Nat.lt_succ_of_lt (hbelow a ha)
        · obtain rfl := List.mem_singleton.mp ha
          exact Nat.lt_succ_self _
    · rw [List.filter_singleton, decide_eq_false hq, cond_false, List.append_nil]
      exact ⟨hpair, fun a ha => (hbelow a ha).trans_le (hle p)⟩

theorem run_spec (concurrent : ℕ) (o : Obj) (events : List HistEvent) :
    (run concurrent o events).Recorded ∧ ∀ p, (run concurrent o events).Counted p := by
  rw [run]
  have hstart : ({ obj := o } : History).Recorded ∧ ∀ p, ({ obj := o } : History).Counted p :=
    ⟨fun a ha => absurd ha List.not_mem_nil, fun p => ⟨List.Pairwise.nil, fun a ha => absurd ha List.not_mem_nil⟩⟩
  generalize ({ obj := o } : History) = h at hstart ⊢
  induction events generalizing h with
  | nil => exact hstart
  | cons e events ih => exact ih _ ⟨hstart.1.step e, fun p => (hstart.2 p).step e⟩

/-! ### When the ids identify the jobs -/

theorem Window.mem {p : SessionPtr} {w : List Accepted} (hw : h.Window p w) {a : Accepted} (ha : a ∈ w) :
    a ∈ h.accepted ∧ a.session = p := by
  have hmem := List.mem_filter.mp (hw.1.subset ha)
  exact ⟨hmem.1, of_decide_eq_true hmem.2⟩

/-- **The ids of a window are distinct where its counts are far enough apart.** -/
theorem Recorded.nodup_iff (hr : h.Recorded) {p : SessionPtr} {w : List Accepted} (hw : h.Window p w) :
    (w.map fun a => a.node.job_id).Nodup ↔ w.Pairwise fun a b => histNumber b.count ≠ histNumber a.count ∧
        histNumber b.count ≠ histNumber a.count ^^^ jobIdMagicval <<< 8 := by
  rw [List.Nodup, List.pairwise_map]
  refine List.Pairwise.iff_of_mem fun {a b} ha hb => ?_
  obtain ⟨hamem, hap⟩ := hw.mem ha
  obtain ⟨hbmem, hbp⟩ := hw.mem hb
  obtain ⟨hknown, hida⟩ := hr a hamem
  obtain ⟨-, hidb⟩ := hr b hbmem
  rw [hida, hidb, hbp, ← hap, Ne, jobId_inj hknown, not_or]

/-- Jobs of different sessions have different ids. -/
theorem Recorded.sessions (hr : h.Recorded) :
    ∀ a ∈ h.accepted, ∀ b ∈ h.accepted, a.session ≠ b.session → a.node.job_id ≠ b.node.job_id := by
  intro a ha b hb hne
  obtain ⟨hknowna, hida⟩ := hr a ha
  obtain ⟨hknownb, hidb⟩ := hr b hb
  rw [hida, hidb]
  exact jobId_ne hknowna hknownb hne

theorem Recorded.waiting (hr : h.Recorded)
    (hdistinct : ∀ p w, h.Window p w → (w.map fun a => a.node.job_id).Nodup) {queue : List Accepted}
    (hq : h.Waiting queue) : queue.Pairwise fun a b => a.node.job_id ≠ b.node.job_id := by
  obtain ⟨hmem, hwindow⟩ := hq
  rw [List.pairwise_iff_forall_sublist]
  intro a b hab
  have ha : a ∈ queue := hab.subset List.mem_cons_self
  have hb : b ∈ queue := hab.subset (List.mem_cons_of_mem _ List.mem_cons_self)
  by_cases hsame : a.session = b.session
  · obtain ⟨w, hw, hsub⟩ := hwindow a.session
    have hpair : [a, b].Sublist (queue.filter fun c => c.session = a.session) := by
      have := hab.filter fun c : Accepted => c.session = a.session
      rwa [List.filter_cons_of_pos (by simp), List.filter_cons_of_pos (by simp [hsame]), List.filter_nil] at this
    have hnodup := (hdistinct _ w hw).sublist ((hpair.trans hsub).map fun a => a.node.job_id)
    simpa using hnodup
  · exact hr.sessions a (hmem a ha) b (hmem b hb) hsame

/-- **When the ids of a history's jobs identify the jobs**: no two jobs of a session, fewer than `JOB_HIST_MAX`
jobs apart, found history counts with the same number up to the bit of the magic value. -/
theorem identify_iff (concurrent : ℕ) (o : Obj) (events : List HistEvent) :
    (run concurrent o events).Identify ↔ (run concurrent o events).Clear := by
  obtain ⟨hr, -⟩ := run_spec concurrent o events
  constructor
  · intro h p w hw
    exact (hr.nodup_iff hw).mp (h.distinct p w hw)
  · intro h
    have hdistinct : ∀ p w, (run concurrent o events).Window p w → (w.map fun a => a.node.job_id).Nodup :=
      fun p w hw => (hr.nodup_iff hw).mpr (h p w hw)
    refine ⟨hdistinct, hr.sessions, fun a ha => ?_, fun queue hq i a hi => ?_⟩
    · obtain ⟨hknown, hid⟩ := hr a ha
      rw [hid, getSession_eq hknown]
    · exact removeJobByJobId_data (hr.waiting hdistinct hq) hi

/-! ### A session that takes a job each time -/

/-- A session with a buffer for the source and one for the destination. -/
def oneSession (job_hist : ℕ) : Session := { active := true, num_src_bufs := 1, num_dst_bufs := 1, job_hist }

/-- A call that is accepted. -/
def oneCall : HistEvent := .start ⟨0, by decide⟩ ⟨0, by decide⟩ { session_id := 0 } {}

theorem step_oneCall {n : ℕ} (hreuse : h.obj.reuse_reproc_buffer = false)
    (hsession : h.obj.session ⟨0, 0⟩ = oneSession n) :
    (h.step 1 oneCall).obj.reuse_reproc_buffer = false ∧ (h.step 1 oneCall).obj.session ⟨0, 0⟩ = oneSession (n + 1) ∧
      (h.step 1 oneCall).accepted.map (fun a => (a.session, a.count)) =
        h.accepted.map (fun a => (a.session, a.count)) ++ [(⟨0, 0⟩, n)] := by
  have hp : getSession (idOf 0 0) = some ⟨0, 0⟩ := by decide
  have hobj : (h.obj.startJob 1 (some { session_id := idOf 0 0 }) {}).obj =
      { h.obj.setSession ⟨0, 0⟩ (oneSession (n + 1)) with
        job_queue := h.obj.job_queue ++ [(oneSession n).node { session_id := idOf 0 0 }]
        job_sem := h.obj.job_sem + 1 } := by
    simp [Obj.startJob, hp, Obj.settleBuffer, hreuse, hsession, Obj.enqueueJob, oneSession, Obj.setSession]
  rw [oneCall, step_start]
  simp [hobj, hreuse, hsession, oneSession, Obj.setSession]

theorem run_replicate (n : ℕ) :
    let h := run 1 { session := fun _ => oneSession 0 } (List.replicate n oneCall)
    h.obj.reuse_reproc_buffer = false ∧ h.obj.session ⟨0, 0⟩ = oneSession n ∧
      h.accepted.map (fun a => (a.session, a.count)) = (List.range n).map fun k => (⟨0, 0⟩, k) := by
  induction n with
  | zero => exact ⟨rfl, rfl, rfl⟩
  | succ n ih =>
    obtain ⟨hreuse, hsession, hacc⟩ := ih
    obtain ⟨hreuse', hsession', hacc'⟩ := step_oneCall hreuse hsession
    rw [List.replicate_succ', run, List.foldl_append]
    refine ⟨hreuse', hsession', hacc'.trans ?_⟩
    rw [hacc, List.range_succ, List.map_append]
    rfl

/-- The jobs of a new session with the counts 0 and 256 have the same id. -/
theorem not_identify_of_257 : ¬ (run 1 { session := fun _ => oneSession 0 } (List.replicate 257 oneCall)).Identify := by
  intro h
  obtain ⟨-, -, hacc⟩ := run_replicate 257
  obtain ⟨hr, -⟩ := run_spec 1 { session := fun _ => oneSession 0 } (List.replicate 257 oneCall)
  generalize run 1 { session := fun _ => oneSession 0 } (List.replicate 257 oneCall) = r at h hacc hr
  have hsession : ∀ a ∈ r.accepted, a.session = ⟨0, 0⟩ := fun a ha => by
    have := List.mem_map_of_mem (f := fun a => (a.session, a.count)) ha
    rw [hacc] at this
    obtain ⟨k, -, hk⟩ := List.mem_map.mp this
    exact (congrArg Prod.fst hk).symm
  have hjobs : r.jobsOf ⟨0, 0⟩ = r.accepted := List.filter_eq_self.mpr fun a ha => by simp [hsession a ha]
  have hlen : r.accepted.length = 257 := by
    have := congrArg List.length hacc
    simpa using this
  have hids : r.accepted.map (fun a => a.node.job_id) = (List.range 257).map (jobId ⟨0, 0⟩) := by
    have := congrArg (List.map fun c : SessionPtr × ℕ => jobId c.1 c.2) hacc
    rw [List.map_map, List.map_map] at this
    refine Eq.trans (List.map_congr_left fun a ha => ?_) this
    exact (hr a ha).2
  have hnodup := h.distinct ⟨0, 0⟩ r.accepted ⟨hjobs ▸ List.infix_rfl, by rw [hlen]; decide⟩
  rw [hids] at hnodup
  have hsame : jobId ⟨0, 0⟩ 0 = jobId ⟨0, 0⟩ 256 := by decide
  exact absurd (List.inj_on_of_nodup_map hnodup (List.mem_range.mpr (by decide))
    (List.mem_range.mpr (by decide)) hsame) (by decide)

end History

end Start

end MmJpeg

end Marlin
