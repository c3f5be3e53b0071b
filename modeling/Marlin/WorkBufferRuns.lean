import Marlin.WorkBuffers

/-!
# The Work Buffers of Ongoing Jobs

A session has a copy of the descriptor of its work buffer: that with its place among the sessions of its
`mm_jpeg_create_session`, or the one that `mm_jpeg_start_job` chooses where work buffers are reused. The table of
the work buffers is one for all sessions. When an allocation fails, or the object is closed, its buffers are
deallocated, and no session is asked.

## Conventions

* `concurrent` is `MM_JPEG_CONCURRENT_SESSIONS_COUNT`.
* A call that returns before it comes to the work buffers is no step. What the calls outside return is in the
  steps.
* `take` is the job manager's turn for a job that has a free session; the job's work buffer is what the
  descriptor of the session shows then. `endSession` is one turn of `mm_jpeg_session_destroy` along its chain.
* What the code does not have: the number of the `mm_jpeg_create_session` that a session is of (`chain`).

## Main results

* `Inv.step`: what every step keeps, and what it deallocates.
* `run_lawful`: a run whose steps are proper keeps the accounts of the work buffers.
-/

namespace Marlin

open List Function Bool

namespace MmJpeg

/-- `mm_jpeg_job_session_t`. -/
structure WorkSession where
  active : Bool := false
  work_buffer : BufferT := .null
  chain : ℕ := 0
  deriving DecidableEq

/-- `mm_jpeg_obj`. An ongoing job has the session that encodes it and its work buffer. -/
structure WorkState where
  reuse_reproc_buffer : Bool
  num_sessions : ℕ := 0
  bufs : WorkBuffers := {}
  session : SessionPtr → WorkSession := fun _ => {}
  ongoing : List (SessionPtr × BufferT) := []
  chains : ℕ := 0

namespace WorkState

/-- How a turn of the loop of `mm_jpeg_create_session` ends. -/
inductive Turn
  | goes
  | notConfigured
  | noHandle
  deriving DecidableEq

/-- A session is written. -/
def setSession (s : WorkState) (q : SessionPtr) (sess : WorkSession) : WorkState :=
  { s with session := Function.update s.session q sess }

/-- `mm_jpeg_init`. -/
def init (bufferAllocate : ℕ → Bool) (omxInit : Bool) (s : WorkState) : WorkState :=
  if s.reuse_reproc_buffer then s
  else
    let r := s.bufs.allocWorkbuffer bufferAllocate 1
    if r.1 = -1 then { s with bufs := r.2 }
    else if omxInit then { s with bufs := r.2 }
    else { s with bufs := r.2.releaseWorkbuffer 1 }

/-- `mm_jpeg_get_new_session_idx`. -/
def getNewSessionIdx (s : WorkState) (client : ℕ) : Option ℕ :=
  (List.range mmJpegMaxSession).find? fun i => !(s.session ⟨client, i⟩).active

/-- The loop of `mm_jpeg_create_session`, with the turns still to do. -/
def createLoop (concurrent client chain : ℕ) (turns : ℕ → Turn) : ℕ → ℕ → WorkState → WorkState
  | 0, _, s => s
  | todo + 1, k, s =>
    match s.getNewSessionIdx client with
    | none => s
    | some i =>
      let sess : WorkSession :=
        { active := true
          work_buffer := if k < concurrent then s.bufs.ionBuffer k else .null
          chain := chain }
      match turns k with
      | .noHandle => s.setSession ⟨client, i⟩ { sess with active := false }
      | .notConfigured => { s.setSession ⟨client, i⟩ sess with num_sessions := s.num_sessions + 1 }
      | .goes =>
        createLoop concurrent client chain turns todo (k + 1)
          { s.setSession ⟨client, i⟩ sess with num_sessions := s.num_sessions + 1 }

/-- `num_omx_sessions`. -/
def numOmxSessions (concurrent : ℕ) (burst_mode : Bool) : ℕ := if burst_mode then concurrent else 1

/-- `mm_jpeg_create_session`, up to its loop: whether it goes on, and the state. -/
def allocBuffers (concurrent num : ℕ) (bufferAllocate : ℕ → Bool) (s : WorkState) : Bool × WorkState :=
  if s.reuse_reproc_buffer then (true, s)
  else
    let r := s.bufs.allocWorkbuffer bufferAllocate (min num concurrent)
    (r.1 ≠ -1, { s with bufs := r.2 })

/-- `mm_jpeg_create_session`. -/
def createSession (concurrent client : ℕ) (burst_mode : Bool) (bufferAllocate : ℕ → Bool) (queues : Bool)
    (turns : ℕ → Turn) (s : WorkState) : WorkState :=
  let num := numOmxSessions concurrent burst_mode
  let r := s.allocBuffers concurrent num bufferAllocate
  if r.1 && queues then
    createLoop concurrent client r.2.chains turns num 0 { r.2 with chains := r.2.chains + 1 }
  else r.2

/-- `mm_jpeg_start_job`, for the session of the job. -/
def startJob (concurrent : ℕ) (p : SessionPtr) (buf_vaddr : ℕ) (bufferAllocate : ℕ → Bool) (s : WorkState) :
    WorkState :=
  if s.reuse_reproc_buffer then
    let r := s.bufs.startBuffer concurrent s.num_sessions buf_vaddr bufferAllocate
    { s.setSession p { s.session p with work_buffer := r.work_buffer } with bufs := r.bufs }
  else s

/-- The job manager can give a job to the session. -/
def Free (concurrent : ℕ) (q : SessionPtr) (s : WorkState) : Prop :=
  (s.session q).active = true ∧ q ∉ s.ongoing.map Prod.fst ∧ s.ongoing.length < concurrent
deriving Decidable

/-- `mm_jpeg_process_encoding_job`. -/
def take (concurrent : ℕ) (q : SessionPtr) (s : WorkState) : WorkState :=
  if s.Free concurrent q then { s with ongoing := s.ongoing ++ [(q, (s.session q).work_buffer)] } else s

/-- `mm_jpegenc_job_done`. -/
def jobDone (q : SessionPtr) (s : WorkState) : WorkState :=
  { s with ongoing := s.ongoing.filter fun a => a.1 ≠ q }

/-- A session is destroyed, with its job. -/
def endSession (q : SessionPtr) (s : WorkState) : WorkState :=
  if (s.session q).active then
    { (s.setSession q { s.session q with active := false }).jobDone q with
      num_sessions := s.num_sessions - 1 }
  else s

/-- `mm_jpeg_deinit`. -/
def deinit (s : WorkState) : WorkState := { s with bufs := s.bufs.deallocateAll, ongoing := [] }

/-- The steps. -/
inductive Call
  | init (bufferAllocate : ℕ → Bool) (omxInit : Bool)
  | createSession (client : ℕ) (burst_mode : Bool) (bufferAllocate : ℕ → Bool) (queues : Bool) (turns : ℕ → Turn)
  | startJob (p : SessionPtr) (buf_vaddr : ℕ) (bufferAllocate : ℕ → Bool)
  | take (q : SessionPtr)
  | jobDone (q : SessionPtr)
  | endSession (q : SessionPtr)
  | deinit

/-- A step. -/
def step (concurrent : ℕ) (s : WorkState) : Call → WorkState
  | .init bufferAllocate omxInit => s.init bufferAllocate omxInit
  | .createSession client burst_mode bufferAllocate queues turns =>
    s.createSession concurrent client burst_mode bufferAllocate queues turns
  | .startJob p buf_vaddr bufferAllocate => s.startJob concurrent p buf_vaddr bufferAllocate
  | .take q => s.take concurrent q
  | .jobDone q => s.jobDone q
  | .endSession q => s.endSession q
  | .deinit => s.deinit

/-! ### The accounts -/

/-- The count is that of the allocated entries, which come first; no buffer was deallocated twice; and no two
ongoing jobs have the same internal work buffer. -/
structure Law (s : WorkState) : Prop where
  counted : ∀ i, s.bufs.Allocated i ↔ i < s.bufs.work_buf_cnt
  once : s.bufs.freed.Nodup
  apart : s.ongoing.Pairwise fun a b => ∀ n, a.2 = .ion n → b.2 ≠ .ion n

/-- No buffer is deallocated to which a session refers. -/
def Keeps (s s' : WorkState) : Prop :=
  ∀ q, (s'.session q).active = true → ∀ n, (s'.session q).work_buffer = .ion n → n ∈ s'.bufs.freed → n ∈ s.bufs.freed

/-- **The accounts of the work buffers are kept**, in every state and by every step. -/
def Lawful (concurrent : ℕ) : List Call → WorkState → Prop
  | [], s => s.Law
  | c :: cs, s => s.Law ∧ s.Keeps (s.step concurrent c) ∧ Lawful concurrent cs (s.step concurrent c)

/-! ### When they are -/

/-- No session refers to a buffer of the table. -/
def Unreferenced (s : WorkState) : Prop :=
  ∀ q, (s.session q).active = true → ∀ i < s.bufs.work_buf_cnt, (s.session q).work_buffer ≠ s.bufs.ionBuffer i

/-- Nothing that a call needs fails to be allocated, or no session refers to a buffer of the table. -/
def AllocProper (bufferAllocate : ℕ → Bool) (need : ℕ) (s : WorkState) : Prop :=
  s.bufs.Served bufferAllocate need ∨ s.Unreferenced

/-- The session of a job, before its work buffer is allocated. -/
def given (p : SessionPtr) (buf_vaddr : ℕ) (s : WorkState) : WorkState :=
  s.setSession p { s.session p with work_buffer := s.bufs.givenBuffer buf_vaddr }

/-- The work buffer was allocated here, and not by the HAL. -/
def Internal (b : BufferT) : Prop := ∃ n, b = .ion n

/-- A step is proper: where it fails to allocate, or closes the object, no session refers to the table; and a job
that is taken has no internal work buffer, or the others have none, or work buffers are not reused and its session
was created with those of the others. -/
def Proper (concurrent : ℕ) (s : WorkState) : Call → Prop
  | .init bufferAllocate _ => s.reuse_reproc_buffer = false → s.AllocProper bufferAllocate 1
  | .createSession _ burst_mode bufferAllocate _ _ =>
    s.reuse_reproc_buffer = false → s.AllocProper bufferAllocate (min (numOmxSessions concurrent burst_mode) concurrent)
  | .startJob p buf_vaddr bufferAllocate =>
    s.reuse_reproc_buffer = true → (s.given p buf_vaddr).AllocProper bufferAllocate
        (WorkBuffers.workBufsNeed concurrent s.num_sessions buf_vaddr)
  | .take q =>
    s.Free concurrent q → Internal (s.session q).work_buffer → ∀ a ∈ s.ongoing, Internal a.2 →
      s.reuse_reproc_buffer = false ∧ (s.session a.1).chain = (s.session q).chain
  | .deinit => s.Unreferenced
  | _ => True

/-- All steps of a run are proper. -/
def AllProper (concurrent : ℕ) : List Call → WorkState → Prop
  | [], _ => True
  | c :: cs, s => s.Proper concurrent c ∧ AllProper concurrent cs (s.step concurrent c)

/-! ### What the steps keep -/

/-- The table is sound, and the sessions refer to buffers that were allocated; where work buffers are not reused,
the sessions that were created together have different ones, and an ongoing job has that of its session. -/
structure Inv (s : WorkState) : Prop where
  sound : s.bufs.Sound
  known : ∀ q n, (s.session q).work_buffer = .ion n → n < s.bufs.next
  chain : ∀ q, (s.session q).active = true → (s.session q).chain < s.chains
  distinct : s.reuse_reproc_buffer = false → ∀ q r, (s.session q).active = true → (s.session r).active = true →
    (s.session q).chain = (s.session r).chain → q ≠ r → ∀ n, (s.session q).work_buffer = .ion n →
      (s.session r).work_buffer ≠ .ion n
  running : ∀ a ∈ s.ongoing, (s.session a.1).active = true ∧
    (s.reuse_reproc_buffer = false → a.2 = (s.session a.1).work_buffer)
  apart : s.ongoing.Pairwise fun a b => ∀ n, a.2 = .ion n → b.2 ≠ .ion n

variable {s : WorkState} {concurrent : ℕ}

theorem inv_fresh (reuse_reproc_buffer : Bool) : Inv { reuse_reproc_buffer := reuse_reproc_buffer } where
  sound := WorkBuffers.sound_fresh
  known _ _ h := nomatch h
  chain _ h := nomatch h
  distinct _ _ _ h := nomatch h
  running _ h := absurd h not_mem_nil
  apart := List.Pairwise.nil

theorem Inv.law (h : s.Inv) : s.Law := ⟨h.sound.allocated_iff, h.sound.once, h.apart⟩

variable {w : WorkBuffers}

theorem Inv.setBufs (h : s.Inv) (hw : w.Sound) (hnext : s.bufs.next ≤ w.next) : Inv { s with bufs := w } :=
  { sound := hw
    known := fun q n hq => Nat.lt_of_lt_of_le (h.known q n hq) hnext
    chain := h.chain
    distinct := h.distinct
    running := h.running
    apart := h.apart }

/-- **What a call that allocates does to the buffers that were there**: they stay, or one could not be allocated
and they go. -/
theorem allocWorkbuffer_old (hw : w.Sound) (bufferAllocate : ℕ → Bool) (need : ℕ) :
    w.next ≤ (w.allocWorkbuffer bufferAllocate need).2.next ∧
      ∀ n < w.next, n ∈ (w.allocWorkbuffer bufferAllocate need).2.freed → n ∈ w.freed ∨
        (¬ w.Served bufferAllocate need ∧ ∃ j < w.work_buf_cnt, w.ionBuffer j = .ion n) := by
  by_cases hserved : w.Served bufferAllocate need
  · rw [WorkBuffers.allocWorkbuffer_ok hserved]
    obtain ⟨-, hfreed, hnext, -⟩ := hw.pushN (need - w.work_buf_cnt)
    exact ⟨hnext, fun n _ hn => .inl (hfreed ▸ hn)⟩
  · obtain ⟨-, -, -, hnext, hfreed⟩ := hw.allocWorkbuffer_failed hserved
    exact ⟨hnext, fun n hlt hn => ((hfreed n hlt).mp hn).imp_right fun hj => ⟨hserved, hj⟩⟩

variable {bufferAllocate : ℕ → Bool}

theorem Inv.keeps_alloc (h : s.Inv) {need : ℕ} (hp : s.AllocProper bufferAllocate need) :
    s.Keeps { s with bufs := (s.bufs.allocWorkbuffer bufferAllocate need).2 } := by
  intro q hq n hn hfreed
  rcases (allocWorkbuffer_old h.sound bufferAllocate need).2 n (h.known q n hn) hfreed with hold | ⟨hfails, j, hj, hjn⟩
  · exact hold
  · exact absurd (hn.trans hjn.symm) ((hp.resolve_left hfails) q hq j hj)

theorem Keeps.refl (s : WorkState) : s.Keeps s := fun _ _ _ _ h => h

theorem Inv.allocated (h : s.Inv) (bufferAllocate : ℕ → Bool) (need : ℕ) :
    Inv { s with bufs := (s.bufs.allocWorkbuffer bufferAllocate need).2 } :=
  h.setBufs (h.sound.allocWorkbuffer ..) (allocWorkbuffer_old h.sound ..).1

theorem init_eq (hreuse : s.reuse_reproc_buffer = false) (bufferAllocate : ℕ → Bool) (omxInit : Bool) :
    s.init bufferAllocate omxInit = { s with bufs := (s.bufs.allocWorkbuffer bufferAllocate 1).2 } := by
  rw [init, hreuse, if_neg Bool.false_ne_true]
  dsimp only
  split
  · rfl
  · rename_i hrc
    have hserved : s.bufs.Served bufferAllocate 1 :=
      not_not.mp (mt WorkBuffers.allocWorkbuffer_eq_neg_one_iff.mpr hrc)
    have hcnt : 1 ≤ (s.bufs.allocWorkbuffer bufferAllocate 1).2.work_buf_cnt := by
      rw [WorkBuffers.allocWorkbuffer_ok hserved, WorkBuffers.pushN_cnt]
      omega
    rw [WorkBuffers.releaseWorkbuffer_eq hcnt, ite_self]

/-! ### Creating sessions -/

variable {q : SessionPtr}

theorem setSession_session_of_ne {r : SessionPtr} {sess : WorkSession} (h : r ≠ q) :
    (s.setSession q sess).session r = s.session r :=
  update_of_ne h ..

theorem setSession_session (q : SessionPtr) (sess : WorkSession) : (s.setSession q sess).session q = sess :=
  update_self ..

theorem Inv.addSession (h : s.Inv) (hfree : (s.session q).active = false) {sess : WorkSession}
    (hknown : ∀ n, sess.work_buffer = .ion n → n < s.bufs.next) (hchain : sess.chain < s.chains)
    (hnew : s.reuse_reproc_buffer = false → ∀ r, (s.session r).active = true → (s.session r).chain = sess.chain →
      ∀ n, sess.work_buffer = .ion n → (s.session r).work_buffer ≠ .ion n) : (s.setSession q sess).Inv := by
  have hactive {r : SessionPtr} (hr : (s.session r).active = true) : r ≠ q := by
    rintro rfl
    exact Bool.noConfusion (hfree.symm.trans hr)
  refine ⟨h.sound, fun r n hr => ?_, fun r hr => ?_, fun hreuse r t hr ht hrt hne n hrn => ?_, fun a ha => ?_, h.apart⟩
  · by_cases hrq : r = q
    · rw [hrq, setSession_session] at hr
      exact hknown n hr
    · rw [setSession_session_of_ne hrq] at hr
      exact h.known r n hr
  · by_cases hrq : r = q
    · rw [hrq, setSession_session]
      exact hchain
    · rw [setSession_session_of_ne hrq] at hr ⊢
      exact h.chain r hr
  · by_cases hrq : r = q
    · have htq : t ≠ q := fun htq => hne (hrq.trans htq.symm)
      rw [hrq, setSession_session] at hrn hrt
      rw [setSession_session_of_ne htq] at ht hrt ⊢
      exact hnew hreuse t ht hrt.symm n hrn
    · rw [setSession_session_of_ne hrq] at hr hrn hrt
      by_cases htq : t = q
      · rw [htq, setSession_session] at hrt ⊢
        exact fun htn => hnew hreuse r hr hrt n htn hrn
      · rw [setSession_session_of_ne htq] at ht hrt ⊢
        exact h.distinct hreuse r t hr ht hrt hne n hrn
  · obtain ⟨ha', hbuf⟩ := h.running a ha
    rw [setSession_session_of_ne (hactive ha')]
    exact ⟨ha', hbuf⟩

theorem ionBuffer_lt (hw : w.Sound) {i n : ℕ} (hi : w.ionBuffer i = .ion n) : n < w.next := by
  rcases Nat.lt_or_ge i w.work_buf_cnt with hlt | hge
  · obtain ⟨m, hm, heq, -⟩ := hw.entries i hlt
    exact BufferT.ion.inj (heq.symm.trans hi) ▸ hm
  · exact hw.known n (hw.rest i hge n hi)

/-- The work buffer of the `k`-th session of a chain. -/
def bufferOf (concurrent k : ℕ) (s : WorkState) : BufferT :=
  if k < concurrent then s.bufs.ionBuffer k else .null

theorem bufferOf_eq_ion {k n : ℕ} (h : s.bufferOf concurrent k = .ion n) :
    k < concurrent ∧ s.bufs.ionBuffer k = .ion n := by
  rw [bufferOf] at h
  split at h
  · exact ⟨‹_›, h⟩
  · cases h

theorem createLoop_bufs (concurrent client c : ℕ) (turns : ℕ → Turn) (todo k : ℕ) (s : WorkState) :
    (createLoop concurrent client c turns todo k s).bufs = s.bufs := by
  induction todo generalizing s k with
  | zero => rfl
  | succ todo ih =>
    rw [createLoop]
    cases s.getNewSessionIdx client with
    | none => rfl
    | some i =>
      dsimp only
      cases turns k with
      | noHandle => rfl
      | notConfigured => rfl
      | goes => exact ih ..

/-- **The loop of `mm_jpeg_create_session`** gives the sessions of a chain the first buffers of the table, each a
different one. -/
theorem Inv.createLoop {client c : ℕ} {turns : ℕ → Turn} (todo k : ℕ) (h : s.Inv) (hc : c < s.chains)
    (hcnt : s.reuse_reproc_buffer = false → ∀ j < k + todo, j < concurrent → j < s.bufs.work_buf_cnt)
    (hmine : ∀ r, (s.session r).active = true → (s.session r).chain = c →
      ∃ j < k, (s.session r).work_buffer = s.bufferOf concurrent j) :
    (createLoop concurrent client c turns todo k s).Inv := by
  induction todo generalizing s k with
  | zero => exact h
  | succ todo ih =>
    rw [WorkState.createLoop]
    cases hi : s.getNewSessionIdx client with
    | none => exact h
    | some i =>
      have hfree : (s.session ⟨client, i⟩).active = false := by
        have hfind := find?_some hi
        exact (not_eq_true' _).mp hfind
      have hknown (n : ℕ) (hn : s.bufferOf concurrent k = .ion n) : n < s.bufs.next :=
        ionBuffer_lt h.sound (bufferOf_eq_ion hn).2
      have hnew (hreuse : s.reuse_reproc_buffer = false) (r : SessionPtr) (hr : (s.session r).active = true)
          (hrc : (s.session r).chain = c) (n : ℕ) (hn : s.bufferOf concurrent k = .ion n) :
          (s.session r).work_buffer ≠ .ion n := by
        obtain ⟨j, hj, hbuf⟩ := hmine r hr hrc
        intro hrn
        obtain ⟨hk, hkn⟩ := bufferOf_eq_ion hn
        obtain ⟨hjc, hjn⟩ := bufferOf_eq_ion (hbuf.symm.trans hrn)
        have hsame := h.sound.distinct j (hcnt hreuse j (by omega) hjc) k (hcnt hreuse k (by omega) hk)
          (hjn.trans hkn.symm)
        exact Nat.ne_of_lt hj hsame
      have hadd (active : Bool) : (s.setSession ⟨client, i⟩
          { active := active, work_buffer := s.bufferOf concurrent k, chain := c }).Inv :=
        h.addSession hfree hknown hc hnew
      have hcount (n : ℕ) : Inv { s.setSession ⟨client, i⟩
          { active := true, work_buffer := s.bufferOf concurrent k, chain := c } with num_sessions := n } :=
        { hadd true with }
      dsimp only
      cases turns k with
      | noHandle => exact hadd false
      | notConfigured => exact hcount _
      | goes =>
        refine ih (k + 1) (hcount _) hc (fun hreuse j hj => hcnt hreuse j (by omega)) fun r hr hrc => ?_
        by_cases hrq : r = ⟨client, i⟩
        · refine ⟨k, Nat.lt_succ_self k, ?_⟩
          rw [hrq]
          exact congrArg WorkSession.work_buffer (setSession_session ..)
        · have hsame : (s.setSession ⟨client, i⟩
              { active := true, work_buffer := s.bufferOf concurrent k, chain := c }).session r = s.session r :=
            setSession_session_of_ne hrq
          obtain ⟨j, hj, hbuf⟩ := hmine r ((congrArg WorkSession.active hsame).symm.trans hr)
            ((congrArg WorkSession.chain hsame).symm.trans hrc)
          exact ⟨j, Nat.lt_succ_of_lt hj, (congrArg WorkSession.work_buffer hsame).trans hbuf⟩

/-! ### The steps -/

/-- A step keeps the invariant and what the sessions refer to. -/
def Good (s s' : WorkState) : Prop := s'.Inv ∧ s.Keeps s'

theorem Inv.init (h : s.Inv) {omxInit : Bool}
    (hp : s.Proper concurrent (.init bufferAllocate omxInit)) : s.Good (s.init bufferAllocate omxInit) := by
  cases hreuse : s.reuse_reproc_buffer with
  | true =>
    rw [WorkState.init, hreuse, if_pos rfl]
    exact ⟨h, Keeps.refl s⟩
  | false =>
    rw [init_eq hreuse]
    exact ⟨h.allocated .., h.keeps_alloc (hp hreuse)⟩

theorem Inv.allocBuffers (h : s.Inv) {num : ℕ}
    (hp : s.reuse_reproc_buffer = false → s.AllocProper bufferAllocate (min num concurrent)) :
    s.Good (s.allocBuffers concurrent num bufferAllocate).2 ∧
      (s.allocBuffers concurrent num bufferAllocate).2.reuse_reproc_buffer = s.reuse_reproc_buffer ∧
          ((s.allocBuffers concurrent num bufferAllocate).1 = true →
            (s.allocBuffers concurrent num bufferAllocate).2.bufs.freed = s.bufs.freed ∧
              (s.reuse_reproc_buffer = false → ∀ j < num, j < concurrent →
                j < (s.allocBuffers concurrent num bufferAllocate).2.bufs.work_buf_cnt)) := by
  rw [WorkState.allocBuffers]
  by_cases hreuse : s.reuse_reproc_buffer = true
  · rw [if_pos hreuse]
    exact ⟨⟨h, Keeps.refl s⟩, rfl, fun _ => ⟨rfl, fun hfalse => Bool.noConfusion (hreuse.symm.trans hfalse)⟩⟩
  · rw [if_neg hreuse]
    refine ⟨⟨h.allocated .., h.keeps_alloc (hp (eq_false_of_ne_true hreuse))⟩, rfl, fun hgoes => ?_⟩
    have hserved : s.bufs.Served bufferAllocate (min num concurrent) :=
      not_not.mp (mt WorkBuffers.allocWorkbuffer_eq_neg_one_iff.mpr (of_decide_eq_true hgoes))
    dsimp only
    rw [WorkBuffers.allocWorkbuffer_ok hserved]
    refine ⟨(h.sound.pushN _).2.1, fun _ j hj hjc => ?_⟩
    rw [WorkBuffers.pushN_cnt]
    omega

theorem Inv.createSession (h : s.Inv) {client : ℕ} {burst_mode : Bool} {queues : Bool}
    {turns : ℕ → Turn} (hp : s.Proper concurrent (.createSession client burst_mode bufferAllocate queues turns)) :
    s.Good (s.createSession concurrent client burst_mode bufferAllocate queues turns) := by
  obtain ⟨⟨hinv, hkeeps⟩, hreuse, hcnt⟩ := h.allocBuffers hp
  rw [WorkState.createSession]
  dsimp only
  split
  · rename_i hgoes
    obtain ⟨hgoes, -⟩ := (and_eq_true_iff).mp hgoes
    generalize hs' : (s.allocBuffers concurrent (numOmxSessions concurrent burst_mode) bufferAllocate).2 = s' at *
    have hinv' : Inv { s' with chains := s'.chains + 1 } :=
      { hinv with chain := fun q hq => Nat.lt_succ_of_lt (hinv.chain q hq) }
    have hloop : (WorkState.createLoop concurrent client s'.chains turns (numOmxSessions concurrent burst_mode) 0
        { s' with chains := s'.chains + 1 }).Inv := hinv'.createLoop _ 0 (Nat.lt_succ_self s'.chains)
      (fun hfalse j hj => (hcnt hgoes).2 (hreuse ▸ hfalse) j (by omega))
      fun r hr hrc => absurd hrc (Nat.ne_of_lt (hinv.chain r hr))
    refine ⟨hloop, fun q hq n hn hfreed => ?_⟩
    rw [createLoop_bufs] at hfreed
    exact (hcnt hgoes).1 ▸ hfreed
  · exact ⟨hinv, hkeeps⟩

theorem Inv.setBuffer (h : s.Inv) (hreuse : s.reuse_reproc_buffer = true) (p : SessionPtr) {b : BufferT}
    (hb : ∀ n, b = .ion n → n < s.bufs.next) : (s.setSession p { s.session p with work_buffer := b }).Inv := by
  have hsame {γ : Type} (f : WorkSession → γ) (hf : ∀ sess : WorkSession, f { sess with work_buffer := b } = f sess)
      (q : SessionPtr) : f ((s.setSession p { s.session p with work_buffer := b }).session q) = f (s.session q) := by
    by_cases hq : q = p
    · rw [hq, setSession_session, hf]
    · rw [setSession_session_of_ne hq]
  have hactive := hsame WorkSession.active fun _ => rfl
  have hchain := hsame WorkSession.chain fun _ => rfl
  refine ⟨h.sound, fun q n hq => ?_, fun q hq => ?_, fun hfalse => ?_, fun a ha => ⟨?_, fun hfalse => ?_⟩, h.apart⟩
  · by_cases hqp : q = p
    · rw [hqp, setSession_session] at hq
      exact hb n hq
    · rw [setSession_session_of_ne hqp] at hq
      exact h.known q n hq
  · rw [hchain]
    exact h.chain q ((hactive q).symm.trans hq)
  · exact Bool.noConfusion (hreuse.symm.trans hfalse)
  · exact (hactive a.1).trans (h.running a ha).1
  · exact Bool.noConfusion (hreuse.symm.trans hfalse)

theorem Inv.startJob (h : s.Inv) {p : SessionPtr} {buf_vaddr : ℕ}
    (hp : s.Proper concurrent (.startJob p buf_vaddr bufferAllocate)) :
    s.Good (s.startJob concurrent p buf_vaddr bufferAllocate) := by
  rw [WorkState.startJob]
  by_cases hreuse : s.reuse_reproc_buffer = true
  · rw [if_pos hreuse, WorkBuffers.startBuffer]
    have hgiven : ∀ n, s.bufs.givenBuffer buf_vaddr = .ion n → n < s.bufs.next := by
      intro n hn
      rw [WorkBuffers.givenBuffer] at hn
      split at hn
      · exact ionBuffer_lt h.sound hn
      · cases hn
    have hinv := h.setBuffer hreuse p hgiven
    have hkeeps := Inv.keeps_alloc hinv (hp hreuse)
    generalize WorkBuffers.workBufsNeed concurrent s.num_sessions buf_vaddr = need at *
    dsimp only
    by_cases hneed : need = 0
    · rw [if_pos hneed]
      exact ⟨hinv, fun _ _ _ _ hfreed => hfreed⟩
    · rw [if_neg hneed]
      by_cases hserved : s.bufs.Served bufferAllocate need
      · rw [if_neg (mt WorkBuffers.allocWorkbuffer_eq_neg_one_iff.mp (not_not_intro hserved)),
          WorkBuffers.allocWorkbuffer_ok hserved]
        obtain ⟨hsound, hfreed, hnext, -⟩ := h.sound.pushN (need - s.bufs.work_buf_cnt)
        refine ⟨(h.setBufs hsound hnext).setBuffer hreuse p fun n hn => ionBuffer_lt hsound hn,
          fun q hq n hn hmem => ?_⟩
        exact hfreed ▸ hmem
      · rw [if_pos (WorkBuffers.allocWorkbuffer_eq_neg_one_iff.mpr hserved)]
        exact ⟨hinv.allocated .., hkeeps⟩
  · rw [if_neg hreuse]
    exact ⟨h, Keeps.refl s⟩

theorem Inv.take (h : s.Inv) (hp : s.Proper concurrent (.take q)) : s.Good (s.take concurrent q) := by
  rw [WorkState.take]
  by_cases hfree : s.Free concurrent q
  · rw [if_pos hfree]
    refine ⟨{ h with running := fun a ha => ?_, apart := ?_ }, Keeps.refl s⟩
    · rcases mem_append.mp ha with ha | ha
      · exact h.running a ha
      · rw [mem_singleton.mp ha]
        exact ⟨hfree.1, fun _ => rfl⟩
    · refine pairwise_append.mpr ⟨h.apart, pairwise_singleton .., fun a ha b hb n han hbn => ?_⟩
      rw [mem_singleton.mp hb] at hbn
      obtain ⟨hreuse, hchain⟩ := hp hfree ⟨n, hbn⟩ a ha ⟨n, han⟩
      obtain ⟨hactive, hbuf⟩ := h.running a ha
      have hne : a.1 ≠ q := fun heq => hfree.2.1 (heq ▸ mem_map_of_mem ha)
      exact h.distinct hreuse a.1 q hactive hfree.1 hchain hne n ((hbuf hreuse).symm.trans han) hbn
  · rw [if_neg hfree]
    exact ⟨h, Keeps.refl s⟩

theorem Inv.jobDone (h : s.Inv) (q : SessionPtr) : s.Good (s.jobDone q) :=
  ⟨{ h with
      running := fun a ha => h.running a (mem_of_mem_filter ha)
      apart := h.apart.filter _ }, Keeps.refl s⟩

theorem Inv.endSession (h : s.Inv) (q : SessionPtr) : s.Good (s.endSession q) := by
  rw [WorkState.endSession]
  split
  · have hactive {r : SessionPtr}
        (hr : ((s.setSession q { s.session q with active := false }).session r).active = true) : r ≠ q := by
      rintro rfl
      rw [setSession_session] at hr
      cases hr
    have hsession {r : SessionPtr} (hr : r ≠ q) :
        (s.setSession q { s.session q with active := false }).session r = s.session r :=
      setSession_session_of_ne hr
    refine ⟨⟨h.sound, fun r n hr => ?_, fun r hr => ?_, fun hreuse r t hr ht hrt hne n hrn => ?_, fun a ha => ?_,
      h.apart.filter _⟩, fun r _ n _ hfreed => hfreed⟩
    · change ((s.setSession q { s.session q with active := false }).session r).work_buffer = .ion n at hr
      by_cases hrq : r = q
      · rw [hrq, setSession_session] at hr
        exact h.known q n hr
      · rw [hsession hrq] at hr
        exact h.known r n hr
    · have hrq := hactive hr
      change ((s.setSession q { s.session q with active := false }).session r).active = true at hr
      change ((s.setSession q { s.session q with active := false }).session r).chain < s.chains
      rw [hsession hrq] at hr ⊢
      exact h.chain r hr
    · have hrq := hactive hr
      have htq := hactive ht
      change ((s.setSession q { s.session q with active := false }).session t).work_buffer ≠ .ion n
      rw [hsession htq]
      refine h.distinct hreuse r t (hsession hrq ▸ hr) (hsession htq ▸ ht) ?_ hne n (hsession hrq ▸ hrn)
      exact (congrArg _ (hsession hrq)).symm.trans (hrt.trans (congrArg _ (hsession htq)))
    · obtain ⟨hmem, hne⟩ := mem_filter.mp ha
      change ((s.setSession q { s.session q with active := false }).session a.1).active = true ∧
        (_ → a.2 = ((s.setSession q { s.session q with active := false }).session a.1).work_buffer)
      rw [hsession (of_decide_eq_true hne)]
      exact h.running a hmem
  · exact ⟨h, Keeps.refl s⟩

theorem Inv.deinit (h : s.Inv) (hp : s.Proper concurrent .deinit) : s.Good s.deinit := by
  obtain ⟨hsound, hnext, -, hfreed⟩ := h.sound.deallocateAll
  refine ⟨{ h.setBufs hsound (Nat.le_of_eq hnext.symm) with
    running := fun a ha => absurd ha not_mem_nil, apart := List.Pairwise.nil }, fun q hq n hn hmem => ?_⟩
  rcases (hfreed n).mp hmem with hold | ⟨j, hj, hjn⟩
  · exact hold
  · exact absurd (hn.trans hjn.symm) (hp q hq j hj)

/-- **What every step keeps**, and what it deallocates. -/
theorem Inv.step (h : s.Inv) (c : Call) (hp : s.Proper concurrent c) : s.Good (s.step concurrent c) := by
  cases c with
  | init _ _ => exact h.init hp
  | createSession _ _ _ _ _ => exact h.createSession hp
  | startJob _ _ _ => exact h.startJob hp
  | take _ => exact h.take hp
  | jobDone q => exact h.jobDone q
  | endSession q => exact h.endSession q
  | deinit => exact h.deinit hp

/-- A run whose steps are proper keeps the accounts, from every state with the invariant. -/
theorem Inv.lawful (h : s.Inv) (cs : List Call) (hp : s.AllProper concurrent cs) : s.Lawful concurrent cs := by
  induction cs generalizing s with
  | nil => exact h.law
  | cons c cs ih =>
    obtain ⟨hinv, hkeeps⟩ := h.step c hp.1
    exact ⟨h.law, hkeeps, ih hinv hp.2⟩

/-- **A run whose steps are proper keeps the accounts of the work buffers.** -/
theorem run_lawful (reuse_reproc_buffer : Bool) (concurrent : ℕ) (cs : List Call)
    (h : AllProper concurrent cs { reuse_reproc_buffer := reuse_reproc_buffer }) :
    Lawful concurrent cs { reuse_reproc_buffer := reuse_reproc_buffer } :=
  (inv_fresh reuse_reproc_buffer).lawful cs h

/-- Two sessions that were created together have jobs at the same time. -/
theorem burst_lawful : Lawful 2
    [.init (fun _ => true) true, .createSession 0 true (fun _ => true) true (fun _ => .goes),
    .take ⟨0, 0⟩, .take ⟨0, 1⟩] { reuse_reproc_buffer := false } := by
  refine run_lawful false 2 _ ⟨fun _ => .inl (by decide), fun _ => .inl (by decide), fun _ _ a ha => ?_,
    fun _ _ a ha => ?_, trivial⟩
  · exact absurd ha not_mem_nil
  · rw [mem_singleton.mp ha]
    exact fun _ => ⟨rfl, rfl⟩

/-- **Buffers that are deallocated in use, and jobs that share one**: a second `mm_jpeg_create_session` fails to
allocate and gives the buffer of the first back; two sessions that were created one after the other have the same
buffer; and the object is closed with a session that is active. -/
theorem shared_and_freed_in_use :
    ¬ Lawful 2 [.init (fun _ => true) true, .createSession 0 false (fun _ => true) true (fun _ => .goes),
        .createSession 0 true (fun _ => false) true (fun _ => .goes)] { reuse_reproc_buffer := false } ∧
      ¬ Lawful 2 [.init (fun _ => true) true, .createSession 0 false (fun _ => true) true (fun _ => .goes),
        .createSession 0 false (fun _ => true) true (fun _ => .goes), .take ⟨0, 0⟩, .take ⟨0, 1⟩]
          { reuse_reproc_buffer := false } ∧
        ¬ Lawful 1 [.init (fun _ => true) true, .createSession 0 false (fun _ => true) true (fun _ => .goes), .deinit]
          { reuse_reproc_buffer := false } := by
  refine ⟨?_, ?_, ?_⟩
  · rintro ⟨-, -, -, -, -, hkeeps, -⟩
    exact absurd (hkeeps ⟨0, 0⟩ rfl 0 rfl (by decide)) (by decide)
  · rintro ⟨-, -, -, -, -, -, -, -, -, -, hlaw⟩
    exact (pairwise_cons.mp hlaw.apart).1 _ (mem_singleton_self _) 0 rfl rfl
  · rintro ⟨-, -, -, -, -, hkeeps, -⟩
    exact absurd (hkeeps ⟨0, 0⟩ rfl 0 rfl (by decide)) (by decide)

end WorkState

end MmJpeg

end Marlin
