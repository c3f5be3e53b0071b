import Marlin.JpegObj

/-!
# The JPEG Job Manager

A client puts a job in the queue of the job manager and posts its semaphore
(`mm_jpeg_start_job`). The job manager takes a token, looks at the number of ongoing jobs, and under
`job_lock` dequeues one job and processes it: it takes an encode session and, if the job asks for
one, an output buffer, and hands the buffers to the OMX component. The component's events and
`mm_jpeg_fbd` come from its own thread, under the lock of the session only, so they fall between
any two calls of `mm_jpeg_session_encode`. A job ends in `mm_jpegenc_job_done`, from three places.

## Conventions

* `Pc` says where the job manager is; from `setup` to `filling` it holds `job_lock`, and neither
  an abort nor a destruction can begin.
* An abort waits in `mm_jpeg_session_abort` for the component's answer to the command it sends; an
  abort or a destruction is one step, with the results of the commands.
* The nodes of `session_handle_q` and `out_buf_q` are always allocated, as is the one that
  `mm_jpeg_queue_enq_head` puts back; for the queue of the ongoing jobs, whose result the code looks
  at, the event says whether the node is.
* What the code does not have: the session of an ongoing job (`JobNode.session`), and the job ids
  that were accepted, called back, reported by the component, and aborted.

## Main results

* `getSession_jobId`: a job id leads back to the session of its session id.
* `JobState.Aborts.chain`, `JobState.Destroys.chain`: what aborting and destroying a chain change.
* `JobState.does_of_step`: what each step does, from which the invariants of a run follow case by case.
-/

namespace Marlin

open List Function Option

namespace MmJpeg

/-- `JOB_HIST_MAX`. -/
def jobHistMax : ℕ := 10000

/-- `MM_JPEG_CONCURRENT_SESSIONS_COUNT`. -/
def mmJpegConcurrentSessionsCount : ℕ := 1

/-- `mm_jpeg_job_q_node_t`, for an encode job. -/
structure JobNode where
  jobId : ℕ
  encodeJob : EncodeJob
  session : Option SessionPtr := none
  deriving DecidableEq

/-- Where the job manager is: waiting for a token, about to take `job_lock`, or in
`mm_jpeg_session_encode` before `encoding` is set, before the input buffers are emptied, and before
the output buffer is filled. -/
inductive Pc
  | waiting
  | ready
  | setup (q : SessionPtr)
  | emptying (q : SessionPtr)
  | filling (q : SessionPtr)
  deriving DecidableEq

/-- The sessions and the queues of the job manager. -/
structure JobState where
  obj : MmJpegObj := {}
  jobQueue : List JobNode := []
  ongoing : List JobNode := []
  jobSem : ℕ := 0
  pc : Pc := .waiting
  accepted : List ℕ := []
  callbacks : List ℕ := []
  reported : List ℕ := []
  aborted : List ℕ := []

/-- `mm_jpeg_get_session`. -/
def getSession (id : ℕ) : Option SessionPtr :=
  if mmJpegMaxSession ≤ getSessionIdx id ∨ maxJpegClientNum ≤ getClientIdx id then none
  else some ⟨getClientIdx id, getSessionIdx id⟩

theorem getClientIdx_jobId (x h : ℕ) : getClientIdx (x ||| h <<< 16) = getClientIdx x := by
  have hbits : (h <<< 16) &&& 0xff = 0 := by
    apply Nat.eq_of_testBit_eq
    intro i
    rw [Nat.testBit_and, Nat.testBit_shiftLeft, Nat.zero_testBit, show 0xff = 2 ^ 8 - 1 from rfl,
      Nat.testBit_two_pow_sub_one]
    by_cases hi : i < 8
    · simp [show ¬ i ≥ 16 by omega]
    · simp [hi]
  rw [getClientIdx, Nat.and_or_distrib_right, hbits, Nat.or_zero]
  rfl

theorem getSessionIdx_jobId (x h : ℕ) : getSessionIdx (x ||| h <<< 16) = getSessionIdx x := by
  have hbits : ((h <<< 16) >>> 8) &&& 0xff = 0 := by
    apply Nat.eq_of_testBit_eq
    intro i
    rw [Nat.testBit_and, Nat.testBit_shiftRight, Nat.testBit_shiftLeft, Nat.zero_testBit,
      show 0xff = 2 ^ 8 - 1 from rfl, Nat.testBit_two_pow_sub_one]
    by_cases hi : i < 8
    · simp [show ¬ 8 + i ≥ 16 by omega]
    · simp [hi]
  rw [getSessionIdx, Nat.shiftRight_or_distrib, Nat.and_or_distrib_right, hbits, Nat.or_zero]
  rfl

/-- A job id leads back to the session of its session id. -/
theorem getSession_jobId (x h : ℕ) : getSession (x ||| h <<< 16) = getSession x := by
  rw [getSession, getSession, getClientIdx_jobId, getSessionIdx_jobId]

theorem update_field {β : Type*} (f : JobSession → β) {g : SessionPtr → JobSession}
    {q : SessionPtr} {sess : JobSession} (h : f sess = f (g q)) (r : SessionPtr) :
    f (Function.update g q sess r) = f (g r) := by
  by_cases hr : r = q
  · rw [hr, update_self, h]
  · rw [update_of_ne hr]

namespace MmJpegObj

/-- A session is put in its queue of free sessions. -/
def queueSession (o : MmJpegObj) (q : SessionPtr) : MmJpegObj :=
  match (o.session q).sessionHandleQ with
  | none => o
  | some n => { o with sessionQ := Function.update o.sessionQ n (o.sessionQ n ++ [q]) }

/-- The output buffer of a session's job is put in its queue of free buffers. -/
def queueOutBuf (o : MmJpegObj) (q : SessionPtr) : MmJpegObj :=
  match (o.session q).outBufQ with
  | none => o
  | some m =>
    { o with
      outBufQ := Function.update o.outBufQ m (o.outBufQ m ++ [((o.session q).encodeJob.dstIndex + 1).toNat]) }

/-- What `mm_jpegenc_job_done` does to the session and its queues. -/
def jobDone (o : MmJpegObj) (q : SessionPtr) : MmJpegObj :=
  let o' := (o.setSession q { o.session q with encoding := false }).queueSession q
  if (o.session q).autoOutBuf then o'.queueOutBuf q else o'

@[simp] theorem queueSession_session (o : MmJpegObj) (q : SessionPtr) : (o.queueSession q).session = o.session := by
  rw [queueSession]
  split <;> rfl

@[simp] theorem queueOutBuf_session (o : MmJpegObj) (q : SessionPtr) : (o.queueOutBuf q).session = o.session := by
  rw [queueOutBuf]
  split <;> rfl

@[simp] theorem queueSession_outBufQ (o : MmJpegObj) (q : SessionPtr) : (o.queueSession q).outBufQ = o.outBufQ := by
  rw [queueSession]
  split <;> rfl

@[simp] theorem queueOutBuf_sessionQ (o : MmJpegObj) (q : SessionPtr) : (o.queueOutBuf q).sessionQ = o.sessionQ := by
  rw [queueOutBuf]
  split <;> rfl

theorem queueSession_sessionQ (o : MmJpegObj) (q : SessionPtr) (n : ℕ) : (o.queueSession q).sessionQ n =
      if (o.session q).sessionHandleQ = some n then o.sessionQ n ++ [q] else o.sessionQ n := by
  rw [queueSession]
  cases h : (o.session q).sessionHandleQ with
  | none => rw [if_neg (by simp)]
  | some k =>
    by_cases hk : k = n
    · simp only [hk, update_self, if_true]
    · rw [if_neg fun h => hk (some.inj h)]
      exact update_of_ne (Ne.symm hk) ..

theorem queueOutBuf_outBufQ (o : MmJpegObj) (q : SessionPtr) (m : ℕ) : (o.queueOutBuf q).outBufQ m =
      if (o.session q).outBufQ = some m then
        o.outBufQ m ++ [((o.session q).encodeJob.dstIndex + 1).toNat]
      else o.outBufQ m := by
  rw [queueOutBuf]
  cases h : (o.session q).outBufQ with
  | none => rw [if_neg (by simp)]
  | some k =>
    by_cases hk : k = m
    · simp only [hk, update_self, if_true]
    · rw [if_neg fun h => hk (some.inj h)]
      exact update_of_ne (Ne.symm hk) ..

theorem jobDone_session (o : MmJpegObj) (q : SessionPtr) : (o.jobDone q).session =
      Function.update o.session q { o.session q with encoding := false } := by
  rw [jobDone]
  split
  · rw [queueOutBuf_session, queueSession_session]
    rfl
  · rw [queueSession_session]
    rfl

theorem jobDone_field {β : Type*} (f : JobSession → β)
    (h : ∀ sess : JobSession, f { sess with encoding := false } = f sess) (o : MmJpegObj)
    (q r : SessionPtr) : f ((o.jobDone q).session r) = f (o.session r) := by
  rw [jobDone_session]
  exact update_field f (h _) r

theorem jobDone_sessionQ (o : MmJpegObj) (q : SessionPtr) (n : ℕ) : (o.jobDone q).sessionQ n =
      if (o.session q).sessionHandleQ = some n then o.sessionQ n ++ [q] else o.sessionQ n := by
  have hqueued : ((o.setSession q { o.session q with encoding := false }).queueSession q).sessionQ
      n = if (o.session q).sessionHandleQ = some n then o.sessionQ n ++ [q]
        else o.sessionQ n := by
    rw [queueSession_sessionQ, setSession_session]
    rfl
  rw [jobDone]
  split
  · rw [queueOutBuf_sessionQ, hqueued]
  · exact hqueued

theorem jobDone_outBufQ (o : MmJpegObj) (q : SessionPtr) (m : ℕ) : (o.jobDone q).outBufQ m =
      if (o.session q).autoOutBuf = true ∧ (o.session q).outBufQ = some m then
        o.outBufQ m ++ [((o.session q).encodeJob.dstIndex + 1).toNat]
      else o.outBufQ m := by
  rw [jobDone]
  cases hauto : (o.session q).autoOutBuf with
  | false =>
    simp only [Bool.false_eq_true, if_false, false_and, queueSession_outBufQ]
    rfl
  | true =>
    simp only [if_true, true_and, queueOutBuf_outBufQ, queueSession_session, setSession_session, queueSession_outBufQ]
    rfl

end MmJpegObj

/-- What `mm_jpeg_start_job` allocates: its work buffer and its node, and the node of the queue. -/
structure StartCalls where
  allocated : Bool := true
  enqueued : Bool := true
  deriving DecidableEq

namespace JobState

/-- A session is written. -/
def setSession (s : JobState) (q : SessionPtr) (sess : JobSession) : JobState :=
  { s with obj := s.obj.setSession q sess }

/-- The id that a session gives to its next job. -/
def nextJobId (s : JobState) (p : SessionPtr) (sessionId : ℕ) : ℕ :=
  sessionId ||| ((s.obj.session p).jobHist % 2 ^ 32 % jobHistMax) <<< 16

/-- `mm_jpeg_start_job`. -/
def startJob (s : JobState) (job : EncodeJob) (calls : StartCalls) : JobState :=
  match getSession job.sessionId with
  | none => s
  | some p =>
    let sess := s.obj.session p
    if !sess.active ∨ (sess.params.numSrcBufs : ℤ) ≤ job.srcIndex ∨
        (sess.params.numDstBufs : ℤ) ≤ job.dstIndex ∨ !calls.allocated then s
    else
      let id := s.nextJobId p job.sessionId
      let s := s.setSession p { sess with jobHist := sess.jobHist + 1 }
      if !calls.enqueued then s
      else
        { s with
          jobQueue := s.jobQueue ++ [{ jobId := id, encodeJob := job }]
          jobSem := s.jobSem + 1
          accepted := s.accepted ++ [id] }

/-- `mm_jpegenc_job_done`. -/
def jobDone (s : JobState) (q : SessionPtr) : JobState :=
  { s with
    ongoing := s.ongoing.eraseP fun node => node.jobId = (s.obj.session q).jobId
    obj := s.obj.jobDone q
    jobSem := s.jobSem + 1 }

/-- `params.jpeg_cb` is called with the session's job id, if it is set. -/
def jpegCb (s : JobState) (q : SessionPtr) : JobState :=
  let sess := s.obj.session q
  if sess.params.jpegCb then { s with callbacks := s.callbacks ++ [sess.jobId] } else s

/-- The job manager takes a token; at the limit it waits for the next one. -/
def wake (s : JobState) : Option JobState :=
  if s.pc = .waiting ∧ 0 < s.jobSem then
    let s := { s with jobSem := s.jobSem - 1 }
    if mmJpegConcurrentSessionsCount ≤ s.ongoing.length then some s
    else some { s with pc := .ready }
  else none

/-- The end of `mm_jpeg_process_encoding_job` for an error: the callback unless `ret` is
`OMX_ErrorNone`, and the job is done. -/
def encodeError (s : JobState) (q : SessionPtr) (cb : Bool) : JobState :=
  let s := if cb then s.jpegCb q else s
  { s.jobDone q with pc := .waiting }

/-- `mm_jpeg_process_encoding_job` with a session, once its output buffer is settled. -/
def processWith (s : JobState) (node : JobNode) (q : SessionPtr) (enqueued : Bool) : JobState :=
  if enqueued then
    let s := { s with ongoing := s.ongoing ++ [{ node with session := some q }] }
    -- the head of `mm_jpeg_session_encode` too
    { s.setSession q { s.obj.session q with
          encodeJob := node.encodeJob
          jobId := node.jobId
          abortState := .none
          encoding := false } with pc := .setup q }
  else s.encodeError q false

/-- A session is dequeued for a job. -/
def popSession (s : JobState) (n : ℕ) (q : SessionPtr) (qs : List SessionPtr) : JobState :=
  { s with obj := { s.obj with
    sessionQ := Function.update s.obj.sessionQ n qs
    session := Function.update s.obj.session q { s.obj.session q with autoOutBuf := false } } }

/-- An output buffer is dequeued for a job. -/
def popBuffer (s : JobState) (q : SessionPtr) (m : ℕ) (bs : List ℕ) : JobState :=
  { s with obj := { s.obj with
    outBufQ := Function.update s.obj.outBufQ m bs
    session := Function.update s.obj.session q { s.obj.session q with autoOutBuf := true } } }

/-- `mm_jpeg_process_encoding_job` with a session: it takes an output buffer for a job that has
none. The index 0 is what an empty queue gives. -/
def takeBuffer (s : JobState) (node : JobNode) (q : SessionPtr) (enqueued : Bool) : Option JobState :=
  if node.encodeJob.dstIndex < 0 then
    match (s.obj.session q).outBufQ with
    | none => none
    | some m =>
      match s.obj.outBufQ m with
      | [] => some { s with pc := .waiting }
      | 0 :: bs => some { s with pc := .waiting, obj := { s.obj with
          outBufQ := Function.update s.obj.outBufQ m bs } }
      | (b + 1) :: bs =>
        some ((s.popBuffer q m bs).processWith
          { node with encodeJob := { node.encodeJob with dstIndex := b } } q enqueued)
  else some (s.processWith node q enqueued)

/-- `mm_jpeg_process_encoding_job`, up to `mm_jpeg_session_encode`. -/
def processEncodingJob (s : JobState) (node : JobNode) (enqueued : Bool) : Option JobState :=
  match getSession node.jobId with
  | none => some { s with pc := .waiting }
  | some p =>
    match (s.obj.session p).sessionHandleQ with
    | none => none
    | some n =>
      match s.obj.sessionQ n with
      | [] => some { s with jobQueue := node :: s.jobQueue, pc := .waiting }
      | q :: qs => (s.popSession n q qs).takeBuffer node q enqueued

/-- The job manager takes `job_lock` and dequeues a job. -/
def take (s : JobState) (enqueued : Bool) : Option JobState :=
  if s.pc = .ready then
    match s.jobQueue with
    | [] => some { s with pc := .waiting }
    | node :: rest => { s with jobQueue := rest }.processEncodingJob node enqueued
  else none

/-- The session and the job are configured, and `encoding` is set, or a step of this fails. -/
def setupDone (s : JobState) (ok : Bool) : Option JobState :=
  match s.pc with
  | .setup q =>
    if ok then
      some { s.setSession q { s.obj.session q with encoding := true } with pc := .emptying q }
    else some (s.encodeError q true)
  | _ => none

/-- The results of `OMX_EmptyThisBuffer`, for the image and its thumbnail. -/
def emptyThisBuffer (s : JobState) (ok : Bool) : Option JobState :=
  match s.pc with
  | .emptying q =>
    if ok then some { s with pc := .filling q } else some (s.encodeError q true)
  | _ => none

/-- The result of `OMX_FillThisBuffer`. -/
def fillThisBuffer (s : JobState) (ok : Bool) : Option JobState :=
  match s.pc with
  | .filling q =>
    if ok then some { s with pc := .waiting } else some (s.encodeError q true)
  | _ => none

/-- `mm_jpeg_fbd`. -/
def fbd (s : JobState) (q : SessionPtr) : JobState :=
  let sess := s.obj.session q
  let s := { s with reported := s.reported ++ [sess.jobId] }
  if sess.abortState ≠ .none then s
  else
    let s := s.setSession q { sess with fbdCount := sess.fbdCount + 1 }
    if sess.params.jpegCb then (s.jpegCb q).jobDone q else s

/-- `mm_jpeg_event_handler`, for `OMX_EventError`. -/
def eventError (s : JobState) (q : SessionPtr) (nData2 : ℤ) : JobState :=
  let sess := s.obj.session q
  let s := { s with reported := s.reported ++ [sess.jobId] }
  if sess.abortState = .init then s.setSession q { sess with abortState := .done }
  else
    let s := s.setSession q { sess with errorFlag := nData2 }
    if sess.encoding then (s.jpegCb q).jobDone q else s

/-- `mm_jpeg_event_handler`, for `OMX_EventCmdComplete`. -/
def eventCmdComplete (s : JobState) (q : SessionPtr) : JobState :=
  let sess := s.obj.session q
  if sess.abortState = .init then s.setSession q { sess with abortState := .done }
  else s.setSession q { sess with stateChangePending := false }

/-- A session is aborted, up to the abort state that the command leaves. -/
def abortOne (s : JobState) (q : SessionPtr) (a : AbortState) : JobState :=
  let sess := s.obj.session q
  { s.setSession q { sess with
        abortState := a
        stateChangePending := sess.stateChangePending || sess.encoding } with
    aborted := s.aborted ++ if sess.encoding then [sess.jobId] else [] }

/-- `mm_jpeg_session_abort`, with the results of `OMX_SendCommand`. Where it succeeds, an event ends
the wait. -/
def sessionAbort (sendOk : SessionPtr → Bool) : ℕ → SessionPtr → JobState → JobState
  | 0, _, s => s
  | fuel + 1, q, s =>
    let sess := s.obj.session q
    if sess.abortState ≠ .none then s
    else if sess.encoding ∧ !sendOk q then s.abortOne q .init
    else
      match sess.nextSession with
      | none => s.abortOne q .done
      | some next => sessionAbort sendOk fuel next (s.abortOne q .done)

/-- The session at work in the job manager. -/
def atWork (s : JobState) : Option SessionPtr :=
  match s.pc with
  | .waiting => none
  | .ready => none
  | .setup q => some q
  | .emptying q => some q
  | .filling q => some q

/-- No step holds `job_lock`. -/
def lockFree (s : JobState) : Prop := s.pc = .waiting ∨ s.pc = .ready
deriving Decidable

/-- `mm_jpeg_abort_job`. -/
def abortJob (s : JobState) (id : ℕ) (sendOk : SessionPtr → Bool) : JobState :=
  if s.jobQueue.any fun node => node.jobId = id then
    { s with
      jobQueue := s.jobQueue.eraseP fun node => node.jobId = id
      aborted := s.aborted ++ [id] }
  else if s.ongoing.any fun node => node.jobId = id then
    let s := { s with
      ongoing := s.ongoing.eraseP fun node => node.jobId = id
      aborted := s.aborted ++ [id] }
    match getSession id with
    | none => s
    | some p => sessionAbort sendOk mmJpegMaxSession p s
  else s

/-- `mm_jpeg_session_destroy` and `mm_jpeg_remove_session_idx`, along a chain. -/
def sessionDestroy : ℕ → SessionPtr → JobState → JobState
  | 0, _, s => s
  | fuel + 1, q, s =>
    let sess := s.obj.session q
    let s := s.setSession q { sess with active := false, config := false, omxHandle := none }
    match sess.nextSession with
    | none => s
    | some next => sessionDestroy fuel next s

/-- The queues of a chain are emptied and freed. -/
def freeQueues (s : JobState) (p : SessionPtr) : JobState :=
  let sess := s.obj.session p
  let s := match sess.sessionHandleQ with
    | none => s
    | some n => { s with obj := { s.obj with sessionQ := Function.update s.obj.sessionQ n [] } }
  let s := match sess.outBufQ with
    | none => s
    | some m => { s with obj := { s.obj with outBufQ := Function.update s.obj.outBufQ m [] } }
  s.setSession p { sess with sessionHandleQ := none, outBufQ := none }

/-- `mm_jpeg_destroy_session`. -/
def destroySession (s : JobState) (p : SessionPtr) (sendOk : SessionPtr → Bool) : JobState :=
  let id := (s.obj.session p).sessionId
  let gone := fun node : JobNode => node.encodeJob.sessionId = id
  let s := { s with
    jobQueue := s.jobQueue.filter fun node => !gone node
    ongoing := s.ongoing.filter fun node => !gone node
    aborted := s.aborted ++ ((s.jobQueue ++ s.ongoing).filter fun node => gone node).map (·.jobId) }
  let s := sessionAbort sendOk mmJpegMaxSession p s
  let s := sessionDestroy mmJpegMaxSession p s
  let s := s.freeQueues p
  { s with jobSem := s.jobSem + 1 }

end JobState

/-! ### What a step leaves alone -/

namespace JobState

variable {s : JobState} {q r : SessionPtr} {sess : JobSession}

@[simp] theorem setSession_session (s : JobState) (q : SessionPtr) (sess : JobSession) :
    (s.setSession q sess).obj.session q = sess :=
  MmJpegObj.setSession_session ..

theorem setSession_session_of_ne (h : r ≠ q) : (s.setSession q sess).obj.session r = s.obj.session r :=
  MmJpegObj.setSession_session_of_ne h

theorem popSession_field {β : Type*} (f : JobSession → β)
    (h : ∀ sess : JobSession, f { sess with autoOutBuf := false } = f sess) (s : JobState) (n : ℕ)
    (q : SessionPtr) (qs : List SessionPtr) (r : SessionPtr) :
    f ((s.popSession n q qs).obj.session r) = f (s.obj.session r) :=
  update_field f (h _) r

theorem popBuffer_field {β : Type*} (f : JobSession → β)
    (h : ∀ sess : JobSession, f { sess with autoOutBuf := true } = f sess) (s : JobState)
    (q : SessionPtr) (m : ℕ) (bs : List ℕ) (r : SessionPtr) :
    f ((s.popBuffer q m bs).obj.session r) = f (s.obj.session r) :=
  update_field f (h _) r

@[simp] theorem jpegCb_obj (s : JobState) (q : SessionPtr) : (s.jpegCb q).obj = s.obj := by
  rw [jpegCb]
  split <;> rfl

@[simp] theorem jpegCb_ongoing (s : JobState) (q : SessionPtr) : (s.jpegCb q).ongoing = s.ongoing := by
  rw [jpegCb]
  split <;> rfl

@[simp] theorem jpegCb_pc (s : JobState) (q : SessionPtr) : (s.jpegCb q).pc = s.pc := by
  rw [jpegCb]
  split <;> rfl

theorem jpegCb_frame (s : JobState) (q : SessionPtr) : s.jpegCb q = { s with callbacks := s.callbacks ++
        if (s.obj.session q).params.jpegCb then [(s.obj.session q).jobId] else [] } := by
  rw [jpegCb]
  cases (s.obj.session q).params.jpegCb with
  | false => simp
  | true => rfl

theorem encodeError_obj (s : JobState) (q : SessionPtr) (cb : Bool) : (s.encodeError q cb).obj = s.obj.jobDone q := by
  cases cb with
  | false => rfl
  | true =>
    rw [encodeError, if_pos rfl, ← s.jpegCb_obj q]
    rfl

theorem encodeError_ongoing (s : JobState) (q : SessionPtr) (cb : Bool) :
    (s.encodeError q cb).ongoing = (s.jobDone q).ongoing := by
  cases cb with
  | false => rfl
  | true =>
    rw [encodeError, if_pos rfl]
    simp only [jobDone, jpegCb_ongoing, jpegCb_obj]

/-- What aborting changes: abort states, pending state changes, and the list of the aborted jobs, in
which every job is that an aborted session is encoding. -/
def Aborts (s t : JobState) : Prop :=
  ∃ g l, t = { s with obj := { s.obj with session := g }, aborted := s.aborted ++ l } ∧
    (∀ r, ∃ a p, g r = { s.obj.session r with abortState := a, stateChangePending := p }) ∧
    ∀ r, (s.obj.session r).encoding = true → (g r).abortState ≠ .none →
      (s.obj.session r).abortState ≠ .none ∨ (s.obj.session r).jobId ∈ l

theorem Aborts.refl (s : JobState) : Aborts s s :=
  ⟨s.obj.session, [], by simp, fun _ => ⟨_, _, rfl⟩, fun _ _ hr => .inl hr⟩

theorem Aborts.trans {t u : JobState} (h : Aborts s t) (h' : Aborts t u) : Aborts s u := by
  obtain ⟨g, l, rfl, hg, hl⟩ := h
  obtain ⟨g', l', rfl, hg', hl'⟩ := h'
  refine ⟨g', l ++ l', by simp only [append_assoc], ?_, ?_⟩
  · intro r
    obtain ⟨a, p, hr⟩ := hg r
    obtain ⟨a', p', hr'⟩ := hg' r
    refine ⟨a', p', hr'.trans ?_⟩
    change { g r with abortState := a', stateChangePending := p' } = _
    rw [hr]
  · intro r henc hr
    obtain ⟨a, p, hgr⟩ := hg r
    have henc' : (g r).encoding = true := by
      rw [hgr]
      exact henc
    have hid : (g r).jobId = (s.obj.session r).jobId := by rw [hgr]
    rcases hl' r henc' hr with hr | hr
    · rcases hl r henc hr with h | h
      · exact .inl h
      · exact .inr (mem_append_left _ h)
    · exact .inr (mem_append_right _ (hid ▸ hr))

theorem Aborts.one (s : JobState) (q : SessionPtr) (a : AbortState) : Aborts s (s.abortOne q a) := by
  refine ⟨_, _, rfl, ?_, ?_⟩
  · intro r
    by_cases hr : r = q
    · rw [hr]
      exact ⟨_, _, update_self ..⟩
    · exact ⟨_, _, update_of_ne hr ..⟩
  · intro r henc habort
    by_cases hr : r = q
    · right
      rw [← hr, henc]
      exact mem_singleton.mpr rfl
    · left
      rw [update_of_ne hr] at habort
      exact habort

/-- Aborting a chain aborts sessions. -/
theorem Aborts.chain (sendOk : SessionPtr → Bool) (fuel : ℕ) (q : SessionPtr) (s : JobState) :
    Aborts s (sessionAbort sendOk fuel q s) := by
  induction fuel generalizing q s with
  | zero => exact .refl s
  | succ fuel ih =>
    rw [sessionAbort]
    split
    · exact .refl s
    · split
      · exact .one s q .init
      · split
        · exact .one s q .done
        · exact (Aborts.one s q .done).trans (ih _ _)

/-- What destroying changes: sessions that are not active, configured and held any more. -/
def Destroys (s t : JobState) : Prop :=
  ∃ g, t = { s with obj := { s.obj with session := g } } ∧ ∀ r, g r = s.obj.session r ∨
      g r = { s.obj.session r with active := false, config := false, omxHandle := none }

/-- Destroying a chain destroys sessions. -/
theorem Destroys.chain (fuel : ℕ) (q : SessionPtr) (s : JobState) : Destroys s (sessionDestroy fuel q s) := by
  induction fuel generalizing q s with
  | zero => exact ⟨s.obj.session, rfl, fun _ => .inl rfl⟩
  | succ fuel ih =>
    have hone : ∀ r, update s.obj.session q { s.obj.session q with
        active := false, config := false, omxHandle := none } r = s.obj.session r ∨
        update s.obj.session q { s.obj.session q with
          active := false, config := false, omxHandle := none } r =
          { s.obj.session r with active := false, config := false, omxHandle := none } := by
      intro r
      by_cases hr : r = q
      · rw [hr, update_self]
        exact .inr rfl
      · rw [update_of_ne hr]
        exact .inl rfl
    rw [sessionDestroy]
    split
    · exact ⟨_, rfl, hone⟩
    · obtain ⟨g, heq, hg⟩ := ih _ (s.setSession q { s.obj.session q with
        active := false, config := false, omxHandle := none })
      refine ⟨g, heq, ?_⟩
      intro r
      have hr := hg r
      change g r = update s.obj.session q _ r ∨ g r = { update s.obj.session q _ r with
          active := false, config := false, omxHandle := none } at hr
      rcases hone r with hsame | hsame
      · rw [hsame] at hr
        exact hr
      · rw [hsame] at hr
        exact .inr (hr.elim id id)

theorem freeQueues_frame (s : JobState) (p : SessionPtr) : ∃ f g, s.freeQueues p = { s with obj := { s.obj with
      sessionQ := f
      outBufQ := g
      session := update s.obj.session p { s.obj.session p with sessionHandleQ := none, outBufQ := none } } } := by
  rw [freeQueues]
  cases (s.obj.session p).sessionHandleQ <;> cases (s.obj.session p).outBufQ <;>
    exact ⟨_, _, rfl⟩

theorem freeQueues_sessionQ (s : JobState) (p : SessionPtr) (k : ℕ) : (s.freeQueues p).obj.sessionQ k =
      if (s.obj.session p).sessionHandleQ = some k then [] else s.obj.sessionQ k := by
  rw [freeQueues]
  cases hn : (s.obj.session p).sessionHandleQ with
  | none =>
    rw [if_neg (by simp)]
    cases (s.obj.session p).outBufQ <;> rfl
  | some n =>
    have hleft : (s.freeQueues p).obj.sessionQ k = update s.obj.sessionQ n [] k := by
      rw [freeQueues, hn]
      cases (s.obj.session p).outBufQ <;> rfl
    rw [freeQueues, hn] at hleft
    refine hleft.trans ?_
    by_cases hk : k = n
    · rw [hk, update_self, if_pos rfl]
    · rw [update_of_ne hk, if_neg fun h => hk (some.inj h).symm]

theorem freeQueues_session (s : JobState) (p : SessionPtr) :
    (s.freeQueues p).obj.session = Function.update s.obj.session p
      { s.obj.session p with sessionHandleQ := none, outBufQ := none } := by
  obtain ⟨f, g, heq⟩ := s.freeQueues_frame p
  rw [heq]

theorem destroySession_eq (s : JobState) (p : SessionPtr) (sendOk : SessionPtr → Bool) :
    ∃ g l, s.destroySession p sendOk = { freeQueues { s with
        obj := { s.obj with session := g }
        jobQueue := s.jobQueue.filter fun node => !decide (node.encodeJob.sessionId = (s.obj.session p).sessionId)
        ongoing := s.ongoing.filter fun node => !decide (node.encodeJob.sessionId = (s.obj.session p).sessionId)
        aborted := l } p with jobSem := s.jobSem + 1 } ∧
      ∀ r, ∃ a b c d e, g r = { s.obj.session r with
        abortState := a, stateChangePending := b, active := c, config := d, omxHandle := e } := by
  rw [destroySession]
  dsimp only
  set u : JobState := { s with
    jobQueue := s.jobQueue.filter fun node => !decide (node.encodeJob.sessionId = (s.obj.session p).sessionId)
    ongoing := s.ongoing.filter fun node => !decide (node.encodeJob.sessionId = (s.obj.session p).sessionId)
    aborted := s.aborted ++ ((s.jobQueue ++ s.ongoing).filter fun node =>
      decide (node.encodeJob.sessionId = (s.obj.session p).sessionId)).map (·.jobId) } with hu
  obtain ⟨g, l, hv, hg, -⟩ := Aborts.chain sendOk mmJpegMaxSession p u
  obtain ⟨g', hw, hg'⟩ := Destroys.chain mmJpegMaxSession p (sessionAbort sendOk mmJpegMaxSession p u)
  rw [hw, hv]
  refine ⟨g', u.aborted ++ l, ?_, fun r => ?_⟩
  · obtain ⟨f, f', heq⟩ := freeQueues_frame { u with
      obj := { u.obj with session := g' }, aborted := u.aborted ++ l } p
    rw [hu] at heq ⊢
    rw [heq]
  · obtain ⟨a, b, hr⟩ := hg r
    rw [hv] at hg'
    rcases hg' r with hr' | hr'
    · exact ⟨_, _, _, _, _, hr'.trans hr⟩
    · refine ⟨a, b, false, false, none, hr'.trans ?_⟩
      change { g r with active := false, config := false, omxHandle := none } = _
      rw [hr]

end JobState

/-- The steps: calls of a client, turns of the job manager, and events of the component. -/
inductive JobEvent
  | startJob (job : EncodeJob) (calls : StartCalls)
  | wake
  | take (enqueued : Bool)
  | setupDone (ok : Bool)
  | emptyThisBuffer (ok : Bool)
  | fillThisBuffer (ok : Bool)
  | fbd (q : SessionPtr)
  | eventError (q : SessionPtr) (nData2 : ℤ)
  | eventCmdComplete (q : SessionPtr)
  | abortJob (id : ℕ) (sendOk : SessionPtr → Bool)
  | destroySession (p : SessionPtr) (sendOk : SessionPtr → Bool)

/-- One step. The component of a session reports while the session is active. -/
def JobState.step (s : JobState) : JobEvent → Option JobState
  | .startJob job calls => some (s.startJob job calls)
  | .wake => s.wake
  | .take enqueued => s.take enqueued
  | .setupDone ok => s.setupDone ok
  | .emptyThisBuffer ok => s.emptyThisBuffer ok
  | .fillThisBuffer ok => s.fillThisBuffer ok
  | .fbd q => if (s.obj.session q).active then some (s.fbd q) else none
  | .eventError q nData2 =>
    if (s.obj.session q).active then some (s.eventError q nData2) else none
  | .eventCmdComplete q =>
    if (s.obj.session q).active then some (s.eventCmdComplete q) else none
  | .abortJob id sendOk => if s.lockFree then some (s.abortJob id sendOk) else none
  | .destroySession p sendOk =>
    if s.lockFree ∧ (s.obj.session p).active then some (s.destroySession p sendOk) else none

/-- What each step does, with what it needs. -/
inductive JobState.Does (s : JobState) : JobEvent → JobState → Prop
  | startJob (job : EncodeJob) (calls : StartCalls) : Does s (.startJob job calls) (s.startJob job calls)
  | atLimit : s.pc = .waiting → 0 < s.jobSem → mmJpegConcurrentSessionsCount ≤ s.ongoing.length →
      Does s .wake { s with jobSem := s.jobSem - 1 }
  | ready : s.pc = .waiting → 0 < s.jobSem → s.ongoing.length < mmJpegConcurrentSessionsCount →
      Does s .wake { s with jobSem := s.jobSem - 1, pc := .ready }
  | take {enqueued : Bool} {t : JobState} : s.take enqueued = some t → Does s (.take enqueued) t
  | setUp {q : SessionPtr} : s.pc = .setup q → Does s (.setupDone true)
      { s.setSession q { s.obj.session q with encoding := true } with pc := .emptying q }
  | setupFails {q : SessionPtr} : s.pc = .setup q → Does s (.setupDone false) (s.encodeError q true)
  | emptied {q : SessionPtr} : s.pc = .emptying q → Does s (.emptyThisBuffer true) { s with pc := .filling q }
  | emptyFails {q : SessionPtr} : s.pc = .emptying q → Does s (.emptyThisBuffer false) (s.encodeError q true)
  | filled {q : SessionPtr} : s.pc = .filling q → Does s (.fillThisBuffer true) { s with pc := .waiting }
  | fillFails {q : SessionPtr} : s.pc = .filling q → Does s (.fillThisBuffer false) (s.encodeError q true)
  | fbd {q : SessionPtr} : (s.obj.session q).active = true → Does s (.fbd q) (s.fbd q)
  | eventError {q : SessionPtr} (nData2 : ℤ) : (s.obj.session q).active = true →
      Does s (.eventError q nData2) (s.eventError q nData2)
  | eventCmdComplete {q : SessionPtr} : (s.obj.session q).active = true →
      Does s (.eventCmdComplete q) (s.eventCmdComplete q)
  | abortJob (id : ℕ) (sendOk : SessionPtr → Bool) : s.lockFree → Does s (.abortJob id sendOk) (s.abortJob id sendOk)
  | destroySession (p : SessionPtr) (sendOk : SessionPtr → Bool) : s.lockFree → (s.obj.session p).active = true →
      Does s (.destroySession p sendOk) (s.destroySession p sendOk)

/-- **A step does one of these.** -/
theorem JobState.does_of_step {s t : JobState} {e : JobEvent} (ht : s.step e = some t) : s.Does e t := by
  cases e with
  | startJob job calls =>
    cases ht
    exact .startJob job calls
  | wake =>
    rw [JobState.step, JobState.wake] at ht
    split at ht
    · rename_i hwaiting
      dsimp only at ht
      split at ht
      · rename_i hlimit
        cases ht
        exact .atLimit hwaiting.1 hwaiting.2 hlimit
      · rename_i hlimit
        cases ht
        exact .ready hwaiting.1 hwaiting.2 (Nat.lt_of_not_le hlimit)
    · cases ht
  | take enqueued => exact .take ht
  | setupDone ok =>
    rw [JobState.step, JobState.setupDone] at ht
    cases hpc : s.pc with
    | setup q =>
      rw [hpc] at ht
      cases ok with
      | false => exact some.inj ht ▸ .setupFails hpc
      | true => exact some.inj ht ▸ .setUp hpc
    | waiting | ready | emptying | filling =>
      rw [hpc] at ht
      cases ht
  | emptyThisBuffer ok =>
    rw [JobState.step, JobState.emptyThisBuffer] at ht
    cases hpc : s.pc with
    | emptying q =>
      rw [hpc] at ht
      cases ok with
      | false => exact some.inj ht ▸ .emptyFails hpc
      | true => exact some.inj ht ▸ .emptied hpc
    | waiting | ready | setup | filling =>
      rw [hpc] at ht
      cases ht
  | fillThisBuffer ok =>
    rw [JobState.step, JobState.fillThisBuffer] at ht
    cases hpc : s.pc with
    | filling q =>
      rw [hpc] at ht
      cases ok with
      | false => exact some.inj ht ▸ .fillFails hpc
      | true => exact some.inj ht ▸ .filled hpc
    | waiting | ready | setup | emptying =>
      rw [hpc] at ht
      cases ht
  | fbd q =>
    obtain ⟨hactive, heq⟩ := ite_none_right_eq_some.mp ht
    exact some.inj heq ▸ .fbd hactive
  | eventError q nData2 =>
    obtain ⟨hactive, heq⟩ := ite_none_right_eq_some.mp ht
    exact some.inj heq ▸ .eventError nData2 hactive
  | eventCmdComplete q =>
    obtain ⟨hactive, heq⟩ := ite_none_right_eq_some.mp ht
    exact some.inj heq ▸ .eventCmdComplete hactive
  | abortJob id sendOk =>
    obtain ⟨hfree, heq⟩ := ite_none_right_eq_some.mp ht
    exact some.inj heq ▸ .abortJob id sendOk hfree
  | destroySession p sendOk =>
    obtain ⟨hfree, heq⟩ := ite_none_right_eq_some.mp ht
    exact some.inj heq ▸ .destroySession p sendOk hfree.1 hfree.2

end MmJpeg

end Marlin
