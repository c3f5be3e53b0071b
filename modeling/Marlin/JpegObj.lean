import Mathlib.Data.List.Nodup
import Marlin.StreamMem

/-!
# The Objects of the JPEG Interface

`mm_jpeg_obj` has the session tables of its clients, the queue of the jobs to do, the queue of the
ongoing jobs and the semaphore of the job manager. The encode sessions that one
`mm_jpeg_create_session` makes are chained; they share one queue of the free sessions and one queue
of the free output buffers.

## Conventions

* A session is named by the index of its client and its index in the table; a queue that was
  allocated, by a number.
* `OMX_ErrorNone` is 0, and the other errors of the component are what they are.

## Main results

* `freeSessions_taken`: taking a session leaves one free session less.
-/

namespace Marlin

open List Function

namespace MmJpeg

/-- `MM_JPEG_MAX_SESSION`. -/
def mmJpegMaxSession : ℕ := 10

/-- `MAX_JPEG_CLIENT_NUM`. -/
def maxJpegClientNum : ℕ := 8

/-- `MM_JPEG_MAX_BUF`. -/
def mmJpegMaxBuf : ℕ := camMaxNumBufsPerStream

/-- `JOB_ID_MAGICVAL`. -/
def jobIdMagicval : ℕ := 1

/-- `GET_CLIENT_IDX`. -/
def getClientIdx (x : ℕ) : ℕ := x &&& 0xff

/-- `GET_SESSION_IDX`. -/
def getSessionIdx (x : ℕ) : ℕ := (x >>> 8) &&& 0xff

/-- `mm_jpeg_abort_state_t`. -/
inductive AbortState
  | none
  | init
  | done
  deriving DecidableEq

/-- `mm_jpeg_encode_params_t`. `jpegCb` says whether a callback is set. -/
structure EncodeParams where
  numSrcBufs : ℕ
  numDstBufs : ℕ
  burstMode : Bool := false
  encodeThumbnail : Bool := false
  jpegCb : Bool := true
  deriving DecidableEq

/-- `mm_jpeg_encode_job_t`. -/
structure EncodeJob where
  sessionId : ℕ
  srcIndex : ℤ := 0
  dstIndex : ℤ := 0
  deriving DecidableEq

/-- A session: its client and its index in the table. -/
structure SessionPtr where
  client : ℕ
  idx : ℕ
  deriving DecidableEq

/-- `mm_jpeg_job_session_t`. -/
structure JobSession where
  active : Bool := false
  config : Bool := false
  encoding : Bool := false
  autoOutBuf : Bool := false
  abortState : AbortState := .none
  stateChangePending : Bool := false
  errorFlag : ℤ := 0
  omxHandle : Option ℕ := none
  params : EncodeParams := { numSrcBufs := 0, numDstBufs := 0 }
  encodeJob : EncodeJob := { sessionId := 0 }
  clientHdl : ℕ := 0
  jobId : ℕ := 0
  sessionId : ℕ := 0
  jobIndex : ℕ := 0
  jobHist : ℕ := 0
  ebdCount : ℕ := 0
  fbdCount : ℕ := 0
  workBuffer : Option ℕ := none
  nextSession : Option SessionPtr := none
  numOmxSessions : ℕ := 0
  sessionHandleQ : Option ℕ := none
  outBufQ : Option ℕ := none
  deriving DecidableEq

/-- `mm_jpeg_obj`, with the queues that were allocated: of sessions and of output buffers. -/
structure MmJpegObj where
  session : SessionPtr → JobSession := fun _ => {}
  reuseReprocBuffer : Bool := false
  workBufCnt : ℕ := 0
  numSessions : ℕ := 0
  pSessionInprogress : Option SessionPtr := none
  sessionQ : ℕ → List SessionPtr := fun _ => []
  outBufQ : ℕ → List ℕ := fun _ => []
  numQueues : ℕ := 0

namespace MmJpegObj

/-- A session is written. -/
def setSession (o : MmJpegObj) (p : SessionPtr) (s : JobSession) : MmJpegObj :=
  { o with session := Function.update o.session p s }

@[simp] theorem setSession_session (o : MmJpegObj) (p : SessionPtr) (s : JobSession) :
    (o.setSession p s).session p = s :=
  update_self ..

theorem setSession_session_of_ne {o : MmJpegObj} {p p' : SessionPtr} {s : JobSession}
    (h : p' ≠ p) : (o.setSession p s).session p' = o.session p' :=
  update_of_ne h ..

/-- The search of `mm_jpeg_get_new_session_idx`. -/
def getNewSessionIdx (o : MmJpegObj) (client : ℕ) : Option ℕ :=
  (List.range mmJpegMaxSession).find? fun i => !(o.session ⟨client, i⟩).active

/-- The number of free sessions of a client. -/
def freeSessions (o : MmJpegObj) (client : ℕ) : ℕ :=
  (List.range mmJpegMaxSession).countP fun i => !(o.session ⟨client, i⟩).active

theorem getNewSessionIdx_free {o : MmJpegObj} {client i : ℕ} (h : o.getNewSessionIdx client = some i) :
    i < mmJpegMaxSession ∧ (o.session ⟨client, i⟩).active = false :=
  ⟨mem_range.mp (mem_of_find?_eq_some h), by simpa using find?_some h⟩

theorem getNewSessionIdx_eq_none {o : MmJpegObj} {client : ℕ} :
    o.getNewSessionIdx client = none ↔ o.freeSessions client = 0 := by
  rw [getNewSessionIdx, freeSessions, find?_eq_none, countP_eq_zero]

end MmJpegObj

theorem countP_of_mem {α : Type*} [DecidableEq α] {p p' : α → Bool} {l : List α} {a : α}
    (hl : l.Nodup) (ha : a ∈ l) (hp : p a = true) (hp' : p' a = false)
    (hsame : ∀ b, b ≠ a → p' b = p b) : l.countP p = l.countP p' + 1 := by
  induction l with
  | nil => exact absurd ha not_mem_nil
  | cons b l ih =>
    obtain ⟨hb, hl⟩ := nodup_cons.mp hl
    rcases mem_cons.mp ha with rfl | ha
    · have hrest : l.countP p' = l.countP p :=
        countP_congr fun c hc => by rw [hsame c fun h => hb (h ▸ hc)]
      rw [countP_cons_of_pos hp, countP_cons_of_neg (by simp [hp']), hrest]
    · have hne : b ≠ a := fun h => hb (h ▸ ha)
      rw [countP_cons, countP_cons, hsame b hne, ih hl ha]
      omega

namespace MmJpegObj

/-- A free session that is taken is one free session less. -/
theorem freeSessions_taken {o o' : MmJpegObj} {client i : ℕ} (hi : i < mmJpegMaxSession)
    (hfree : (o.session ⟨client, i⟩).active = false)
    (htaken : (o'.session ⟨client, i⟩).active = true)
    (hsame : ∀ j, j ≠ i → (o'.session ⟨client, j⟩).active = (o.session ⟨client, j⟩).active) :
    o.freeSessions client = o'.freeSessions client + 1 :=
  countP_of_mem nodup_range (mem_range.mpr hi) (by simp [hfree]) (by simp [htaken]) fun j hj => by rw [hsame j hj]

end MmJpegObj

end MmJpeg

end Marlin
