import Marlin.JobManager
import Marlin.WorkBuffers

/-!
# Starting an Encode Job

`mm_jpeg_start_job` has one variable for its result and for the index of the work buffer that it allocates. When
it looks at the session and the indices of the job, the variable holds that index, and is returned where they are
not accepted. Of the indices it looks only at the upper bounds of the source and of the destination.

## Conventions

* `concurrent` is `MM_JPEG_CONCURRENT_SESSIONS_COUNT`.
* The number of the sessions and the numbers of buffers are far below where their counters wrap.
* A job may be encoded by another session of the chain, which was created with the same parameters.
* `mm_jpeg_create_session` queues the numbers from 1 to `num_dst_bufs` as output buffers, and a job gives back
  the one it took. What a job that chooses none finds there, or 0 where nothing is left, is therefore at most
  `num_dst_bufs`.

## Main results

* `startJob_reports_iff`: when the result and the indices are what they should be.
* `startJob_jobQueue`: the queue is that of the job manager's model.
-/

namespace Marlin

open List

namespace MmJpeg

namespace Start

/-- `mm_jpeg_dim_t`. -/
structure Dim where
  src_dim : ℤ × ℤ := (0, 0)
  dst_dim : ℤ × ℤ := (0, 0)
  crop : (ℤ × ℤ) × (ℤ × ℤ) := ((0, 0), (0, 0))
  deriving DecidableEq

/-- `mm_jpeg_encode_job_t`. `work_buf` is the address of the HAL's work buffer, or 0. -/
structure JobParams where
  session_id : ℕ
  src_index : ℤ := 0
  dst_index : ℤ := 0
  thumb_index : ℕ := 0
  work_buf : ℕ := 0
  main_dim : Dim := {}
  thumb_dim : Dim := {}
  deriving DecidableEq

/-- `mm_jpeg_job_session_t`. -/
structure Session where
  active : Bool := false
  num_src_bufs : ℕ := 0
  num_dst_bufs : ℕ := 0
  num_tmb_bufs : ℕ := 0
  encode_thumbnail : Bool := false
  thumb_from_main : Bool := false
  job_hist : ℕ := 0
  client_hdl : ℕ := 0
  work_buffer : BufferT := .null
  deriving DecidableEq

/-- `mm_jpeg_job_q_node_t`, for an encode job. -/
structure Node where
  job_id : ℕ
  client_handle : ℕ
  encode_job : JobParams
  deriving DecidableEq

/-- `mm_jpeg_obj`. -/
structure Obj where
  reuse_reproc_buffer : Bool := false
  num_sessions : ℕ := 0
  bufs : WorkBuffers := {}
  session : SessionPtr → Session := fun _ => {}
  job_queue : List Node := []
  job_sem : ℕ := 0

/-- What the calls outside return: the allocations of work buffers, of the node, and of the queue's node. -/
structure Calls where
  bufferAllocate : ℕ → Bool := fun _ => true
  malloc : Bool := true
  enq : Bool := true

/-- The result, `*job_id`, and the object. -/
structure Result where
  rc : ℤ
  job_id : ℕ
  obj : Obj

/-- The id that a session gives to its next job. -/
def Session.nextJobId (s : Session) (session_id : ℕ) : ℕ :=
  session_id ||| (s.job_hist % 2 ^ 32 % jobHistMax) <<< 16

/-- The node for a job. -/
def Session.node (s : Session) (job : JobParams) : Node where
  job_id := s.nextJobId job.session_id
  client_handle := s.client_hdl
  encode_job :=
    if s.thumb_from_main then
      { job with thumb_dim := { job.thumb_dim with src_dim := job.main_dim.src_dim, crop := job.main_dim.crop } }
    else job

namespace Obj

/-- A session is written. -/
def setSession (o : Obj) (p : SessionPtr) (s : Session) : Obj :=
  { o with session := Function.update o.session p s }

/-- The work buffer of the session is settled: `rc`, whether the call goes on, and the object. -/
def settleBuffer (concurrent : ℕ) (p : SessionPtr) (job : JobParams) (bufferAllocate : ℕ → Bool) (o : Obj) :
    ℤ × Bool × Obj :=
  if o.reuse_reproc_buffer then
    let r := o.bufs.startBuffer concurrent o.num_sessions job.work_buf bufferAllocate
    (r.rc, r.goesOn, { o.setSession p { o.session p with work_buffer := r.work_buffer } with bufs := r.bufs })
  else (-1, true, o)

/-- The node is allocated and queued. -/
def enqueueJob (p : SessionPtr) (job : JobParams) (calls : Calls) (o : Obj) : Result :=
  let s := o.session p
  if !calls.malloc then { rc := -1, job_id := 0, obj := o }
  else
    let o := o.setSession p { s with job_hist := s.job_hist + 1 }
    if calls.enq then
      { rc := 0
        job_id := s.nextJobId job.session_id
        obj := { o with job_queue := o.job_queue ++ [s.node job], job_sem := o.job_sem + 1 } }
    else { rc := -1, job_id := s.nextJobId job.session_id, obj := o }

/-- `mm_jpeg_start_job`. -/
def startJob (concurrent : ℕ) (job : Option JobParams) (calls : Calls) (o : Obj) : Result :=
  match job with
  | none => { rc := -1, job_id := 0, obj := o }
  | some job =>
    match getSession job.session_id with
    | none => { rc := -1, job_id := 0, obj := o }
    | some p =>
      let (rc, goesOn, o) := o.settleBuffer concurrent p job calls.bufferAllocate
      if !goesOn then { rc := -1, job_id := 0, obj := o }
      else if !(o.session p).active then { rc := rc, job_id := 0, obj := o }
      else if (o.session p).num_src_bufs ≤ job.src_index ∨ (o.session p).num_dst_bufs ≤ job.dst_index then
        { rc := rc, job_id := 0, obj := o }
      else o.enqueueJob p job calls

end Obj

/-- The indices with which `mm_jpeg_session_encode` goes to the buffers of the session. -/
structure Indices where
  src : ℤ
  thumb : Option ℤ
  dst : ℤ
  deriving DecidableEq

/-- The indices that an encode job uses, where `buf_idx` is what it finds in `out_buf_q` if it has to look there.
It is not encoded where nothing is left, nor where the thumbnail is from the main image, which it has not. -/
def Session.encodeIndices (s : Session) (job : JobParams) (buf_idx : ℕ) : Option Indices :=
  if job.dst_index < 0 ∧ buf_idx = 0 then none
  else if s.thumb_from_main ∧ job.src_index < 0 then none
  else
    some
      { src := job.src_index
        thumb :=
          if s.encode_thumbnail then some (if s.thumb_from_main then job.src_index else job.thumb_index) else none
        dst := if job.dst_index < 0 then buf_idx - 1 else job.dst_index }

/-! ### What should be reported -/

/-- The indices are within the buffers of the session. -/
structure Indices.Within (u : Indices) (s : Session) : Prop where
  src : 0 ≤ u.src ∧ u.src < s.num_src_bufs
  thumb : ∀ i ∈ u.thumb, 0 ≤ i ∧ i < s.num_tmb_bufs
  dst : 0 ≤ u.dst ∧ u.dst < s.num_dst_bufs

/-- One node for the job was appended, and one token posted. -/
def Appended (o o' : Obj) (job : JobParams) (node : Node) : Prop :=
  o'.job_queue = o.job_queue ++ [node] ∧ o'.job_sem = o.job_sem + 1 ∧
    ∃ p ∈ getSession job.session_id, node = (o.session p).node job

/-- **The result is that of the call**: it is 0 exactly where a node for the job was appended, whose id is then
`*job_id`, and an accepted job goes to no buffer that the session has not. -/
structure Reports (concurrent : ℕ) (job : Option JobParams) (calls : Calls) (o : Obj) : Prop where
  appended : (o.startJob concurrent job calls).rc = 0 ↔
    ∃ j ∈ job, ∃ node, Appended o (o.startJob concurrent job calls).obj j node
  job_id : ∀ j ∈ job, ∀ node, Appended o (o.startJob concurrent job calls).obj j node →
    (o.startJob concurrent job calls).job_id = node.job_id
  within : ∀ j ∈ job, ∀ node, Appended o (o.startJob concurrent job calls).obj j node →
    ∀ p ∈ getSession j.session_id, ∀ buf_idx ≤ (o.session p).num_dst_bufs,
      ∀ u ∈ (o.session p).encodeIndices node.encode_job buf_idx, u.Within (o.session p)

/-! ### When it is -/

/-- The session is active, and the indices are below its bounds. -/
def Session.Accepts (s : Session) (job : JobParams) : Prop :=
  s.active = true ∧ job.src_index < s.num_src_bufs ∧ job.dst_index < s.num_dst_bufs

/-- The work buffer that the call allocates is that with the index 0, or none has to be allocated. -/
def Obj.FirstBuffer (concurrent : ℕ) (job : JobParams) (bufferAllocate : ℕ → Bool) (o : Obj) : Prop :=
  let need := WorkBuffers.workBufsNeed concurrent o.num_sessions job.work_buf
  o.reuse_reproc_buffer = true ∧ need ≠ 0 ∧ o.bufs.Served bufferAllocate need ∧ (need ≤ o.bufs.work_buf_cnt ∨ need = 1)

/-- The call gets its work buffer, if it needs one. -/
def Obj.HasBuffer (concurrent : ℕ) (job : JobParams) (bufferAllocate : ℕ → Bool) (o : Obj) : Prop :=
  o.reuse_reproc_buffer = true →
    o.bufs.Served bufferAllocate (WorkBuffers.workBufsNeed concurrent o.num_sessions job.work_buf)

/-- Where a job of the session can be encoded, it has a source, and a thumbnail if there is to be one. -/
def Session.HasSource (s : Session) (job : JobParams) : Prop :=
  0 < s.num_dst_bufs →
    if s.thumb_from_main then
      0 ≤ job.src_index → s.encode_thumbnail = true → job.src_index < s.num_tmb_bufs
    else 0 ≤ job.src_index ∧ (s.encode_thumbnail = true → job.thumb_index < s.num_tmb_bufs)

variable {concurrent : ℕ} {o : Obj} {p : SessionPtr} {job : JobParams} {calls : Calls}

theorem not_accepts_iff {s : Session} : ¬ s.Accepts job ↔
    s.active = false ∨ (s.num_src_bufs : ℤ) ≤ job.src_index ∨ (s.num_dst_bufs : ℤ) ≤ job.dst_index := by
  rw [Session.Accepts]
  constructor
  · intro h
    by_contra hnot
    rw [not_or, not_or, Bool.not_eq_false] at hnot
    exact h ⟨hnot.1, Int.not_le.mp hnot.2.1, Int.not_le.mp hnot.2.2⟩
  · rintro (hinactive | hsrc | hdst) ⟨hactive, hsrc', hdst'⟩
    · exact Bool.noConfusion (hinactive.symm.trans hactive)
    · exact absurd hsrc' (Int.not_lt.mpr hsrc)
    · exact absurd hdst' (Int.not_lt.mpr hdst)

theorem settleBuffer_frame (concurrent : ℕ) (p : SessionPtr) (job : JobParams) (ba : ℕ → Bool) (o : Obj) :
    let o' := (o.settleBuffer concurrent p job ba).2.2
    o'.job_queue = o.job_queue ∧ o'.job_sem = o.job_sem ∧
      ∃ b, o'.session p = { o.session p with work_buffer := b } := by
  rw [Obj.settleBuffer]
  split
  · exact ⟨rfl, rfl, _, Function.update_self ..⟩
  · exact ⟨rfl, rfl, _, rfl⟩

theorem settleBuffer_spec (concurrent : ℕ) (p : SessionPtr) (job : JobParams) (ba : ℕ → Bool) (o : Obj) :
    ((o.settleBuffer concurrent p job ba).2.1 = true ↔ o.HasBuffer concurrent job ba) ∧ (o.HasBuffer concurrent job ba →
        ((o.settleBuffer concurrent p job ba).1 = 0 ↔ o.FirstBuffer concurrent job ba)) := by
  rw [Obj.settleBuffer]
  by_cases hreuse : o.reuse_reproc_buffer = true
  · rw [if_pos hreuse]
    obtain ⟨hgoes, hzero⟩ := o.bufs.startBuffer_spec concurrent o.num_sessions job.work_buf ba
    refine ⟨hgoes.trans ⟨fun h _ => h, fun h => h hreuse⟩, fun h => (hzero (h hreuse)).trans ?_⟩
    exact ⟨fun hfirst => ⟨hreuse, hfirst.1, h hreuse, hfirst.2⟩, fun hfirst => ⟨hfirst.2.1, hfirst.2.2.2⟩⟩
  · rw [if_neg hreuse]
    have hneg : ¬ (-1 : ℤ) = 0 := by decide
    exact ⟨iff_of_true rfl fun h => absurd h hreuse, fun _ => iff_of_false hneg fun h => hreuse h.1⟩

/-- The job is accepted: the call gets the buffer, the session takes the job, and the nodes are allocated. -/
structure Obj.Takes (concurrent : ℕ) (p : SessionPtr) (job : JobParams) (calls : Calls) (o : Obj) : Prop where
  buffer : o.HasBuffer concurrent job calls.bufferAllocate
  accepts : (o.session p).Accepts job
  malloc : calls.malloc = true
  enq : calls.enq = true

/-- **An accepted job**: its node is appended, a token is posted, and the result is 0. -/
theorem startJob_takes (hp : getSession job.session_id = some p) (h : o.Takes concurrent p job calls) :
    (o.startJob concurrent (some job) calls).rc = 0 ∧
      (o.startJob concurrent (some job) calls).job_id = ((o.session p).node job).job_id ∧
        (o.startJob concurrent (some job) calls).obj.job_queue = o.job_queue ++ [(o.session p).node job] ∧
          (o.startJob concurrent (some job) calls).obj.job_sem = o.job_sem + 1 := by
  obtain ⟨hgoes, -⟩ := settleBuffer_spec concurrent p job calls.bufferAllocate o
  obtain ⟨hqueue, hsem, b, hsession⟩ := settleBuffer_frame concurrent p job calls.bufferAllocate o
  obtain ⟨hactive, hsrc, hdst⟩ := h.accepts
  rw [Obj.startJob, hp]
  dsimp only
  rw [hgoes.mpr h.buffer, Bool.not_true, if_neg Bool.false_ne_true, hsession]
  dsimp only
  rw [hactive, Bool.not_true, if_neg Bool.false_ne_true,
    if_neg (not_or.mpr ⟨Int.not_le.mpr hsrc, Int.not_le.mpr hdst⟩), Obj.enqueueJob, h.malloc, h.enq,
    Bool.not_true, if_neg Bool.false_ne_true, if_pos rfl, hsession]
  exact ⟨rfl, rfl, congrArg (· ++ _) hqueue, congrArg (· + 1) hsem⟩

/-- **A job that is not accepted**: nothing is appended, and the result is an error unless it is the index of the
work buffer. -/
theorem startJob_not_takes (hp : getSession job.session_id = some p) (h : ¬ o.Takes concurrent p job calls) :
    (o.startJob concurrent (some job) calls).obj.job_queue = o.job_queue ∧
      ((o.startJob concurrent (some job) calls).rc = 0 ↔
        o.FirstBuffer concurrent job calls.bufferAllocate ∧ ¬ (o.session p).Accepts job) := by
  obtain ⟨hgoes, hzero⟩ := settleBuffer_spec concurrent p job calls.bufferAllocate o
  obtain ⟨hqueue, -, b, hsession⟩ := settleBuffer_frame concurrent p job calls.bufferAllocate o
  have hneg : ¬ (-1 : ℤ) = 0 := by decide
  rw [Obj.startJob, hp]
  dsimp only
  by_cases hbuffer : o.HasBuffer concurrent job calls.bufferAllocate
  · rw [hgoes.mpr hbuffer, Bool.not_true, if_neg Bool.false_ne_true, hsession]
    dsimp only
    by_cases haccepts : (o.session p).Accepts job
    · obtain ⟨hactive, hsrc, hdst⟩ := haccepts
      rw [hactive, Bool.not_true, if_neg Bool.false_ne_true,
        if_neg (not_or.mpr ⟨Int.not_le.mpr hsrc, Int.not_le.mpr hdst⟩), Obj.enqueueJob]
      have hright : ¬ (o.FirstBuffer concurrent job calls.bufferAllocate ∧ ¬ (o.session p).Accepts job) :=
        fun hleft => hleft.2 ⟨hactive, hsrc, hdst⟩
      by_cases hmalloc : calls.malloc = true
      · have henq : ¬ calls.enq = true := fun henq => h ⟨hbuffer, ⟨hactive, hsrc, hdst⟩, hmalloc, henq⟩
        rw [hmalloc, Bool.not_true, if_neg Bool.false_ne_true, if_neg henq]
        exact ⟨hqueue, iff_of_false hneg hright⟩
      · rw [eq_false_of_ne_true hmalloc, Bool.not_false, if_pos rfl]
        exact ⟨hqueue, iff_of_false hneg hright⟩
    · have hresult : ((o.settleBuffer concurrent p job calls.bufferAllocate).1 = 0 ↔
          o.FirstBuffer concurrent job calls.bufferAllocate ∧ ¬ (o.session p).Accepts job) :=
        (hzero hbuffer).trans (and_iff_left haccepts).symm
      rcases not_accepts_iff.mp haccepts with hinactive | hbounds
      · rw [hinactive, Bool.not_false, if_pos rfl]
        exact ⟨hqueue, hresult⟩
      · rw [if_pos hbounds, ite_self]
        exact ⟨hqueue, hresult⟩
  · rw [eq_false_of_ne_true (mt hgoes.mp hbuffer), Bool.not_false, if_pos rfl]
    exact ⟨hqueue, iff_of_false hneg fun hfirst => hbuffer fun _ => hfirst.1.2.2.1⟩

theorem startJob_no_session (hp : getSession job.session_id = none) :
    o.startJob concurrent (some job) calls = { rc := -1, job_id := 0, obj := o } := by
  rw [Obj.startJob, hp]

theorem not_appended {o' : Obj} (h : o'.job_queue = o.job_queue) (node : Node) : ¬ Appended o o' job node :=
  fun happended => cons_ne_nil node [] (self_eq_append_right.mp (h.symm.trans happended.1))

theorem encodeIndices_node (s : Session) (job : JobParams) (buf_idx : ℕ) :
    s.encodeIndices (s.node job).encode_job buf_idx = s.encodeIndices job buf_idx := by
  rw [Session.node]
  dsimp only
  split <;> rfl

theorem within_iff {s : Session} (h : s.Accepts job) :
    (∀ buf_idx ≤ s.num_dst_bufs, ∀ u ∈ s.encodeIndices (s.node job).encode_job buf_idx, u.Within s) ↔
      s.HasSource job := by
  obtain ⟨-, hsrc, hdst⟩ := h
  rw [forall_congr' fun buf_idx => by rw [encodeIndices_node], Session.HasSource]
  constructor
  · intro hall hpos
    have hdst' : ¬ (job.dst_index < 0 ∧ 1 = 0) := fun h => Nat.one_ne_zero h.2
    cases hmain : s.thumb_from_main with
    | true =>
      rw [if_pos rfl]
      intro hsrc' hthumb
      have hu := (hall 1 hpos _ ((if_neg hdst').trans (if_neg fun h => Int.not_lt.mpr hsrc' h.2))).thumb
      rw [hthumb, hmain] at hu
      exact (hu _ rfl).2
    | false =>
      have hu := hall 1 hpos _ ((if_neg hdst').trans (if_neg fun h => Bool.noConfusion (hmain.symm.trans h.1)))
      refine ⟨hu.src.1, fun hthumb => ?_⟩
      have hu' := hu.thumb
      rw [hthumb, hmain] at hu'
      exact Int.ofNat_lt.mp (hu' _ rfl).2
  · intro hsource buf_idx hle u hu
    rw [Session.encodeIndices] at hu
    split at hu
    · cases hu
    · rename_i hbuf
      split at hu
      · cases hu
      · rename_i hmain
        cases hu
        have hdst' : 0 ≤ (if job.dst_index < 0 then (buf_idx : ℤ) - 1 else job.dst_index) ∧
            (if job.dst_index < 0 then (buf_idx : ℤ) - 1 else job.dst_index) < s.num_dst_bufs := by
          split <;> omega
        have hpos : 0 < s.num_dst_bufs := by omega
        have hsource := hsource hpos
        cases hfrom : s.thumb_from_main with
        | true =>
          rw [hfrom, if_pos rfl] at hsource
          have hsrc' : 0 ≤ job.src_index := Int.not_lt.mp fun h => hmain ⟨hfrom, h⟩
          refine ⟨⟨hsrc', hsrc⟩, fun i hi => ?_, hdst'⟩
          cases hthumb : s.encode_thumbnail with
          | true =>
            rw [hthumb] at hi
            cases hi
            exact ⟨hsrc', hsource hsrc' hthumb⟩
          | false =>
            rw [hthumb] at hi
            cases hi
        | false =>
          rw [hfrom, if_neg Bool.false_ne_true] at hsource
          refine ⟨⟨hsource.1, hsrc⟩, fun i hi => ?_, hdst'⟩
          cases hthumb : s.encode_thumbnail with
          | true =>
            rw [hthumb] at hi
            cases hi
            exact ⟨Int.natCast_nonneg _, Int.ofNat_lt.mpr (hsource.2 hthumb)⟩
          | false =>
            rw [hthumb] at hi
            cases hi

theorem reports_some_iff : Reports concurrent (some job) calls o ↔ ((o.startJob concurrent (some job) calls).rc = 0 ↔
      ∃ node, Appended o (o.startJob concurrent (some job) calls).obj job node) ∧
    (∀ node, Appended o (o.startJob concurrent (some job) calls).obj job node →
      (o.startJob concurrent (some job) calls).job_id = node.job_id) ∧
    ∀ node, Appended o (o.startJob concurrent (some job) calls).obj job node →
      ∀ p ∈ getSession job.session_id, ∀ buf_idx ≤ (o.session p).num_dst_bufs,
        ∀ u ∈ (o.session p).encodeIndices node.encode_job buf_idx, u.Within (o.session p) := by
  constructor
  · rintro ⟨happended, hid, hwithin⟩
    refine ⟨happended.trans ⟨?_, fun h => ⟨job, rfl, h⟩⟩, hid job rfl, hwithin job rfl⟩
    rintro ⟨j, hj, h⟩
    cases hj
    exact h
  · rintro ⟨happended, hid, hwithin⟩
    refine ⟨happended.trans ⟨fun h => ⟨job, rfl, h⟩, ?_⟩, fun j hj => ?_, fun j hj => ?_⟩
    · rintro ⟨j, hj, h⟩
      cases hj
      exact h
    · cases hj
      exact hid
    · cases hj
      exact hwithin

/-- **The result is that of the call exactly where no work buffer with the index 0 is allocated for a job that is
not accepted, and an accepted job has its source and its thumbnail.** -/
theorem startJob_reports_iff (concurrent : ℕ) (job : Option JobParams) (calls : Calls) (o : Obj) :
    Reports concurrent job calls o ↔ ∀ j ∈ job, ∀ p ∈ getSession j.session_id,
      ¬ (o.FirstBuffer concurrent j calls.bufferAllocate ∧ ¬ (o.session p).Accepts j) ∧
        (o.Takes concurrent p j calls → (o.session p).HasSource j) := by
  have hneg : ¬ (-1 : ℤ) = 0 := by decide
  cases job with
  | none =>
    have hnone {C : Prop} (j : JobParams) (hj : j ∈ (none : Option JobParams)) : C := nomatch hj
    exact iff_of_true ⟨iff_of_false hneg fun ⟨j, hj, _⟩ => hnone j hj, fun j hj => hnone j hj,
      fun j hj => hnone j hj⟩ fun j hj => hnone j hj
  | some j =>
    cases hp : getSession j.session_id with
    | none =>
      rw [reports_some_iff, startJob_no_session hp]
      refine iff_of_true ⟨iff_of_false hneg fun ⟨node, h⟩ => not_appended rfl node h,
        fun node h => absurd h (not_appended rfl node), fun node h => absurd h (not_appended rfl node)⟩ ?_
      intro j' hj' p hp'
      cases hj'
      exact nomatch hp.symm.trans hp'
    | some p =>
      have hright : (∀ j' ∈ some j, ∀ p' ∈ getSession j'.session_id,
          ¬ (o.FirstBuffer concurrent j' calls.bufferAllocate ∧ ¬ (o.session p').Accepts j') ∧
            (o.Takes concurrent p' j' calls → (o.session p').HasSource j')) ↔
          ¬ (o.FirstBuffer concurrent j calls.bufferAllocate ∧ ¬ (o.session p).Accepts j) ∧
            (o.Takes concurrent p j calls → (o.session p).HasSource j) := by
        refine ⟨fun h => h j rfl p hp, fun h j' hj' p' hp' => ?_⟩
        cases hj'
        obtain rfl := Option.some.inj (hp.symm.trans hp')
        exact h
      rw [hright, reports_some_iff]
      by_cases htakes : o.Takes concurrent p j calls
      · obtain ⟨hrc, hid, hqueue, hsem⟩ := startJob_takes hp htakes
        have hnode {node : Node} (h : Appended o (o.startJob concurrent (some j) calls).obj j node) :
            node = (o.session p).node j :=
          (cons.inj (append_cancel_left (h.1.symm.trans hqueue))).1
        have happended : Appended o (o.startJob concurrent (some j) calls).obj j ((o.session p).node j) :=
          ⟨hqueue, hsem, p, hp, rfl⟩
        constructor
        · rintro ⟨-, -, hwithin⟩
          refine ⟨fun hleft => hleft.2 htakes.accepts, fun _ => ?_⟩
          exact (within_iff htakes.accepts).mp (hwithin _ happended p hp)
        · rintro ⟨-, hsource⟩
          refine ⟨iff_of_true hrc ⟨_, happended⟩, fun node h => ?_, fun node h p' hp' => ?_⟩
          · rw [hid, hnode h]
          · obtain rfl := Option.some.inj (hp.symm.trans hp')
            rw [hnode h]
            exact (within_iff htakes.accepts).mpr (hsource htakes)
      · obtain ⟨hqueue, hrc⟩ := startJob_not_takes hp htakes
        have hnone (node : Node) : ¬ Appended o (o.startJob concurrent (some j) calls).obj j node :=
          not_appended hqueue node
        constructor
        · rintro ⟨happended, -, -⟩
          refine ⟨fun hleft => ?_, fun h => absurd h htakes⟩
          obtain ⟨node, hnode⟩ := happended.mp (hrc.mpr hleft)
          exact hnone node hnode
        · rintro ⟨hleft, -⟩
          refine ⟨iff_of_false (mt hrc.mp hleft) fun ⟨node, h⟩ => hnone node h, fun node h => ?_,
            fun node h => ?_⟩
          · exact absurd h (hnone node)
          · exact absurd h (hnone node)

/-! ### Examples -/

/-- Work buffers are reused, one is allocated, and no session is active. -/
def noSession : Obj where
  reuse_reproc_buffer := true
  bufs := WorkBuffers.push {}

/-- **A job of a session that is not active, whose result is 0**: the work buffer is there, and 0 is its index. -/
theorem inactive_returns_zero : ¬ Reports 1 (some { session_id := 0 }) {} noSession ∧
    (noSession.startJob 1 (some { session_id := 0 }) {}).rc = 0 ∧
      (noSession.startJob 1 (some { session_id := 0 }) {}).obj.job_queue = [] := by
  refine ⟨fun h => ?_, rfl, rfl⟩
  obtain ⟨j, -, node, hnode⟩ := h.appended.mp rfl
  exact cons_ne_nil node [] hnode.1.symm

/-- A session with one source and one destination, whose thumbnail is not from the main image. -/
def oneSession : Obj where
  session _ := { active := true, num_src_bufs := 1, num_dst_bufs := 1 }

/-- A job with the source −1 is accepted, and goes to a buffer that is not there. -/
example : (oneSession.startJob 1 (some { session_id := 0, src_index := -1 }) {}).rc = 0 ∧
    (oneSession.session ⟨0, 0⟩).encodeIndices { session_id := 0, src_index := -1 } 0 =
      some { src := -1, thumb := none, dst := 0 } := by
  decide

/-! ### The job manager's model -/

/-- A job in the job manager's model. -/
def JobParams.toEncodeJob (job : JobParams) : EncodeJob where
  sessionId := job.session_id
  srcIndex := job.src_index
  dstIndex := job.dst_index

/-- A session in the job manager's model. -/
def Session.toJobSession (s : Session) : JobSession where
  active := s.active
  params := { numSrcBufs := s.num_src_bufs, numDstBufs := s.num_dst_bufs }
  jobHist := s.job_hist

/-- The sessions and the queue in the job manager's model. -/
def Obj.toJobState (o : Obj) : JobState where
  obj := { session := fun p => (o.session p).toJobSession }
  jobQueue := o.job_queue.map fun node => { jobId := node.job_id, encodeJob := node.encode_job.toEncodeJob }
  jobSem := o.job_sem

theorem node_toEncodeJob (s : Session) (job : JobParams) : (s.node job).encode_job.toEncodeJob = job.toEncodeJob := by
  rw [Session.node]
  dsimp only
  split <;> rfl

/-- **The queue is that of the job manager's model**, where the work buffer is one of the allocations. -/
theorem startJob_jobQueue (concurrent : ℕ) (job : JobParams) (calls : Calls) (o : Obj) (allocated : Bool)
    (h : allocated = true ↔ o.HasBuffer concurrent job calls.bufferAllocate ∧ calls.malloc = true) :
    (o.toJobState.startJob job.toEncodeJob { allocated := allocated, enqueued := calls.enq }).jobQueue =
      (o.startJob concurrent (some job) calls).obj.toJobState.jobQueue := by
  cases hp : getSession job.session_id with
  | none =>
    rw [startJob_no_session hp, JobState.startJob, show getSession job.toEncodeJob.sessionId = none from hp]
  | some p =>
    rw [JobState.startJob, show getSession job.toEncodeJob.sessionId = some p from hp]
    by_cases htakes : o.Takes concurrent p job calls
    · obtain ⟨hbuffer, ⟨hactive, hsrc, hdst⟩, hmalloc, henq⟩ := htakes
      have hqueue := (startJob_takes hp ⟨hbuffer, ⟨hactive, hsrc, hdst⟩, hmalloc, henq⟩).2.2.1
      have hgoes : ¬ ((!(o.session p).active) = true ∨ ((o.session p).num_src_bufs : ℤ) ≤ job.src_index ∨
          ((o.session p).num_dst_bufs : ℤ) ≤ job.dst_index ∨ (!allocated) = true) := by
        rw [hactive, h.mpr ⟨hbuffer, hmalloc⟩]
        rintro (h | h | h | h)
        · cases h
        · exact Int.not_lt.mpr h hsrc
        · exact Int.not_lt.mpr h hdst
        · cases h
      refine Eq.trans ?_ (congrArg (map _) hqueue).symm
      rw [map_append, map_cons, map_nil, node_toEncodeJob]
      refine (congrArg JobState.jobQueue (if_neg hgoes)).trans ?_
      dsimp only
      rw [henq, Bool.not_true, if_neg Bool.false_ne_true]
      rfl
    · refine Eq.trans ?_ (congrArg (map _) (startJob_not_takes hp htakes).1).symm
      by_cases hgoes : (!(o.session p).active) = true ∨ ((o.session p).num_src_bufs : ℤ) ≤ job.src_index ∨
          ((o.session p).num_dst_bufs : ℤ) ≤ job.dst_index ∨ (!allocated) = true
      · exact congrArg JobState.jobQueue (if_pos hgoes)
      · have henq : calls.enq = false := by
          rw [not_or, not_or, not_or, Bool.not_eq_true', Bool.not_eq_true', Bool.not_eq_false,
            Bool.not_eq_false] at hgoes
          obtain ⟨hactive, hsrc, hdst, hallocated⟩ := hgoes
          obtain ⟨hbuffer, hmalloc⟩ := h.mp hallocated
          exact eq_false_of_ne_true fun henq =>
            htakes ⟨hbuffer, ⟨hactive, Int.not_le.mp hsrc, Int.not_le.mp hdst⟩, hmalloc, henq⟩
        refine (congrArg JobState.jobQueue (if_neg hgoes)).trans ?_
        dsimp only
        rw [henq, Bool.not_false, if_pos rfl]
        rfl

/-- Two levels of one accepted job. -/
theorem startJob_jobQueue_one :
    (oneSession.toJobState.startJob (JobParams.toEncodeJob { session_id := 0 })
      { allocated := true, enqueued := true }).jobQueue =
        (oneSession.startJob 1 (some { session_id := 0 }) {}).obj.toJobState.jobQueue :=
  startJob_jobQueue 1 { session_id := 0 } {} oneSession true
    (iff_of_true rfl ⟨fun h => (Bool.false_ne_true h).elim, rfl⟩)

end Start

end MmJpeg

end Marlin
