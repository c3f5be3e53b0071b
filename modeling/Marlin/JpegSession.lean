import Marlin.JpegObj
import Marlin.Outcome

/-!
# Creating the Sessions of an Encoder

`mm_jpeg_create_session` takes free sessions of the client's table one by one, chains each to the
one before, gets its OMX handle, puts it in the queue that the chain shares, and configures the
first one that finds no other session in progress. What fails before the loop is reported. In the
loop, an error of `mm_jpeg_session_create` is held in `ret` and not in `rc`, a full table is held
in neither, and the sessions so far stay as they are.

## Main results

* `Chain.queued`: a session that is put in the queue is one more of the chain.
* `Building.createSessions`: the loop gets to its end where every turn goes on, and how a stop of
  it is reported.
* `createSession_atomic`: the call is atomic exactly where it fails before the loop, or where
  nothing fails in the loop.
-/

namespace Marlin

open List Function

namespace MmJpeg

/-- What the calls outside return for one session of the chain: `OMX_GetHandle` with the handle,
the `malloc` of `mm_jpeg_queue_enq`, and the three steps of `mm_jpeg_session_configure`. -/
structure SessionCalls where
  getHandle : ℤ := 0
  handle : ℕ := 0
  enqueued : Bool := true
  configMain : ℤ := 0
  stateIdle : ℤ := 0
  stateExecuting : ℤ := 0
  deriving DecidableEq

/-- The error of the first step of `mm_jpeg_session_configure` that fails. -/
def SessionCalls.configureError (calls : SessionCalls) : ℤ :=
  if calls.configMain ≠ 0 then calls.configMain
  else if calls.stateIdle ≠ 0 then calls.stateIdle
  else calls.stateExecuting

/-- What the calls outside return before the loop. -/
structure SetupCalls where
  bufferAllocate : ℕ → Bool := fun _ => true
  sessionHandleQ : Bool := true
  outBufQ : Bool := true

/-- `mm_jpeg_alloc_workbuffer`: its result and the count of the work buffers, with the allocations
still to do. When one fails, those so far are given back. -/
def allocWorkbuffer (bufferAllocate : ℕ → Bool) : ℕ → ℤ → ℕ → ℤ × ℕ
  | 0, rc, cnt => (rc, cnt)
  | todo + 1, _, cnt =>
    if bufferAllocate cnt then allocWorkbuffer bufferAllocate todo cnt (cnt + 1) else (-1, 0)

namespace JobSession

/-- `mm_jpeg_session_create`, up to `OMX_GetHandle`. -/
def reset (s : JobSession) : JobSession :=
  { s with
    stateChangePending := false
    abortState := .none
    errorFlag := 0
    ebdCount := 0
    fbdCount := 0
    config := false
    autoOutBuf := false }

/-- `mm_jpeg_session_configure`: its error. -/
def configure (s : JobSession) (calls : SessionCalls) : ℤ :=
  if s.abortState = .init then 0 else calls.configureError

end JobSession

/-- What the loop of `mm_jpeg_create_session` has: the sessions it took, of which the last is
`p_prev_session`, `*p_session_id` and `rc`. -/
structure Progress where
  obj : MmJpegObj
  taken : List ℕ := []
  pSessionId : ℕ := 0
  rc : ℤ := 0

/-- The arguments of `mm_jpeg_create_session` that its loop reads, with the queues. -/
structure ChainArgs where
  client : ℕ
  clientHdl : ℕ
  params : EncodeParams
  concurrent : ℕ
  numOmxSessions : ℕ
  sessionHandleQ : ℕ
  outBufQ : ℕ

namespace Progress

/-- `p_prev_session` is chained to a session. -/
def link (p : Progress) (client : ℕ) (q : SessionPtr) : MmJpegObj :=
  match p.taken.getLast? with
  | none => p.obj
  | some i => p.obj.setSession ⟨client, i⟩ { p.obj.session ⟨client, i⟩ with nextSession := some q }

/-- The session that was taken, as `mm_jpeg_session_create` leaves it. -/
def created (p : Progress) (args : ChainArgs) (k i : ℕ) : JobSession :=
  { (p.obj.session ⟨args.client, i⟩).reset with
    active := true
    jobIndex := 0
    nextSession := none
    workBuffer := if k < args.concurrent then some k else none
    params := args.params }

/-- The id of a session. -/
def idOf (client i : ℕ) : ℕ := jobIdMagicval <<< 24 ||| i <<< 8 ||| client

/-- A session of the chain has its handle, its id and its queues, and is put in the queue. -/
def queued (p : Progress) (args : ChainArgs) (k i : ℕ) (calls : SessionCalls) : Progress :=
  let q : SessionPtr := ⟨args.client, i⟩
  let o := (p.link args.client q).setSession q { p.created args k i with
      omxHandle := some calls.handle
      clientHdl := args.clientHdl
      sessionId := idOf args.client i
      sessionHandleQ := some args.sessionHandleQ
      outBufQ := some args.outBufQ }
  { p with
    obj := { o with
      numSessions := o.numSessions + 1
      sessionQ :=
        if calls.enqueued then
          Function.update o.sessionQ args.sessionHandleQ (o.sessionQ args.sessionHandleQ ++ [q])
        else o.sessionQ }
    taken := p.taken ++ [i]
    pSessionId := if p.pSessionId = 0 then idOf args.client i else p.pSessionId }

/-- `mm_jpeg_session_create` failed. -/
def failed (p : Progress) (args : ChainArgs) (k i : ℕ) : Progress :=
  let q : SessionPtr := ⟨args.client, i⟩
  { p with
    obj := (p.link args.client q).setSession q { p.created args k i with active := false }
    taken := p.taken ++ [i] }

/-- The end of a turn of the loop: the session is configured if it has to be. -/
def configured (p : Progress) (args : ChainArgs) (i : ℕ) (calls : SessionCalls) : Except Progress Progress :=
  let q : SessionPtr := ⟨args.client, i⟩
  let s := p.obj.session q
  if !s.config ∧ p.obj.pSessionInprogress = none then
    if s.configure calls ≠ 0 then .error { p with rc := s.configure calls }
    else
      let o := p.obj.setSession q { s with config := true, numOmxSessions := args.numOmxSessions }
      .ok { p with obj := { o with pSessionInprogress := some q }, rc := 0 }
  else .ok { p with obj := p.obj.setSession q { s with numOmxSessions := args.numOmxSessions } }

/-- One turn of the loop of `mm_jpeg_create_session`. It is left for `error2`. -/
def createOne (p : Progress) (args : ChainArgs) (k : ℕ) (calls : SessionCalls) : Except Progress Progress :=
  match p.obj.getNewSessionIdx args.client with
  | none => .error p
  | some i =>
    if calls.getHandle ≠ 0 then .error (p.failed args k i)
    else (p.queued args k i calls).configured args i calls

/-- The loop of `mm_jpeg_create_session`, with the turns still to do. -/
def createSessions (args : ChainArgs) (calls : ℕ → SessionCalls) : ℕ → ℕ → Progress → Except Progress Progress
  | 0, _, p => .ok p
  | todo + 1, k, p => p.createOne args k (calls k) >>= createSessions args calls todo (k + 1)

end Progress

/-- `num_omx_sessions`. -/
def EncodeParams.numOmxSessions (params : EncodeParams) (concurrent : ℕ) : ℕ :=
  if params.burstMode then concurrent else 1

/-- The arguments are checked. -/
def checkArgs (clientHdl : ℕ) (params : EncodeParams) (o : MmJpegObj) : Except Progress MmJpegObj :=
  if mmJpegMaxBuf < params.numSrcBufs ∨ mmJpegMaxBuf < params.numDstBufs ∨
      maxJpegClientNum ≤ getClientIdx clientHdl then .error { obj := o, rc := -1 }
  else .ok o

/-- The work buffers that are still needed are allocated. -/
def allocBuffers (need : ℕ) (setup : SetupCalls) (o : MmJpegObj) : Except Progress MmJpegObj :=
  if o.reuseReprocBuffer then .ok o
  else
    let r := allocWorkbuffer setup.bufferAllocate (need - o.workBufCnt) 0 o.workBufCnt
    if r.1 = -1 then .error { obj := { o with workBufCnt := r.2 }, rc := -1 }
    else .ok { o with workBufCnt := r.2 }

/-- A queue is allocated: its number. -/
def newQueue (allocated : Bool) (o : MmJpegObj) : Except Progress (MmJpegObj × ℕ) :=
  if allocated then
    .ok ({ o with
      numQueues := o.numQueues + 1
      sessionQ := Function.update o.sessionQ o.numQueues []
      outBufQ := Function.update o.outBufQ o.numQueues [] }, o.numQueues)
  else .error { obj := o, rc := -1 }

/-- `mm_jpeg_create_session` before its loop: the object and the arguments of the loop. -/
def setUp (clientHdl : ℕ) (params : EncodeParams) (concurrent : ℕ) (setup : SetupCalls)
    (o : MmJpegObj) : Except Progress (MmJpegObj × ChainArgs) := do
  let num := params.numOmxSessions concurrent
  let o ← checkArgs clientHdl params o
  let o ← allocBuffers (min num concurrent) setup o
  let r ← newQueue setup.sessionHandleQ o
  let r' ← newQueue setup.outBufQ r.1
  return (r'.1,
    { client := getClientIdx clientHdl
      clientHdl := clientHdl
      params := params
      concurrent := concurrent
      numOmxSessions := num
      sessionHandleQ := r.2
      outBufQ := r'.2 })

/-- The indices of the output buffers are queued. -/
def Progress.queueOutBufs (p : Progress) (args : ChainArgs) : Progress :=
  { p with obj := { p.obj with
    outBufQ := Function.update p.obj.outBufQ args.outBufQ
      (p.obj.outBufQ args.outBufQ ++ List.range' 1 args.params.numDstBufs) } }

/-- `mm_jpeg_create_session`, where `concurrent` is `MM_JPEG_CONCURRENT_SESSIONS_COUNT`. -/
def createSession (clientHdl : ℕ) (params : EncodeParams) (concurrent : ℕ) (setup : SetupCalls)
    (calls : ℕ → SessionCalls) (o : MmJpegObj) : Progress :=
  match setUp clientHdl params concurrent setup o with
  | .error p => p
  | .ok (o, args) =>
    match Progress.createSessions args calls args.numOmxSessions 0 { obj := o } with
    | .error p => p
    | .ok p => p.queueOutBufs args

/-! ### The loop -/

namespace Progress

variable {args : ChainArgs} {calls : ℕ → SessionCalls} {base p : Progress} {k i : ℕ}

/-- The first `k` sessions are created, chained and queued. -/
structure Chain (args : ChainArgs) (calls : ℕ → SessionCalls) (p : Progress) (k : ℕ) : Prop where
  length : p.taken.length = k
  nodup : p.taken.Nodup
  created : ∀ i ∈ p.taken, (p.obj.session ⟨args.client, i⟩).active = true ∧
    (p.obj.session ⟨args.client, i⟩).omxHandle.isSome ∧
    (p.obj.session ⟨args.client, i⟩).sessionHandleQ = some args.sessionHandleQ
  chained : p.taken.IsChain fun i j =>
    (p.obj.session ⟨args.client, i⟩).nextSession = some ⟨args.client, j⟩
  last : ∀ i ∈ p.taken.getLast?, (p.obj.session ⟨args.client, i⟩).nextSession = none
  inQueue : (∀ j < k, (calls j).enqueued) → p.obj.sessionQ args.sessionHandleQ = p.taken.map (SessionPtr.mk args.client)
  missing : ∀ j < k, (calls j).enqueued = false → (p.obj.sessionQ args.sessionHandleQ).length < k

/-- What the loop has made in its first `k` turns, from `base`. -/
structure Building (args : ChainArgs) (calls : ℕ → SessionCalls) (base p : Progress) (k : ℕ) :
    Prop extends Chain args calls p k where
  free : p.obj.freeSessions args.client + k = base.obj.freeSessions args.client
  first : k = 0 → p.obj.pSessionInprogress = base.obj.pSessionInprogress
  inprogress : k ≠ 0 → p.obj.pSessionInprogress ≠ none
  pSessionId : k ≠ 0 → p.pSessionId ≠ 0
  rc : p.rc = 0

/-- A turn of the loop goes on where a session is free, its handle is got, and it is configured or
has not to be. -/
def Goes (calls : ℕ → SessionCalls) (base : Progress) (client k : ℕ) : Prop :=
  k < base.obj.freeSessions client ∧ (calls k).getHandle = 0 ∧
    (k = 0 → base.obj.pSessionInprogress = none → (calls k).configureError = 0)

/-- How a stop of the loop is reported: not at all, with a session missing or not active, or with
an id that was given out. -/
def Stopped (client num : ℕ) (p : Progress) : Prop :=
  (p.rc = 0 ∧ (p.taken.length < num ∨ ∃ i ∈ p.taken, (p.obj.session ⟨client, i⟩).active = false)) ∨
  (p.rc ≠ 0 ∧ p.pSessionId ≠ 0)

theorem Stopped.mono {client num num' : ℕ} (h : Stopped client num p) (hle : num ≤ num') : Stopped client num' p := by
  rcases h with ⟨hrc, hmissing | hinactive⟩ | h
  · exact Or.inl ⟨hrc, Or.inl (by omega)⟩
  · exact Or.inl ⟨hrc, Or.inr hinactive⟩
  · exact Or.inr h

theorem idOf_ne_zero (client i : ℕ) : idOf client i ≠ 0 := by
  rw [idOf, jobIdMagicval]
  intro h
  have := (Nat.or_eq_zero_iff.mp (Nat.or_eq_zero_iff.mp h).1).1
  omega

theorem link_session (p : Progress) (client : ℕ) (q r : SessionPtr) : (p.link client q).session r =
      { p.obj.session r with
        nextSession := if p.taken.getLast?.map (SessionPtr.mk client) = some r then some q
          else (p.obj.session r).nextSession } := by
  rw [link]
  cases hlast : p.taken.getLast? with
  | none => rfl
  | some i =>
    by_cases hr : r = ⟨client, i⟩
    · rw [hr, MmJpegObj.setSession_session, Option.map_some, if_pos rfl]
    · rw [MmJpegObj.setSession_session_of_ne hr, Option.map_some, if_neg fun h => hr (Option.some.inj h).symm]

@[simp] theorem link_sessionQ (p : Progress) (client : ℕ) (q : SessionPtr) :
    (p.link client q).sessionQ = p.obj.sessionQ := by
  rw [link]
  cases p.taken.getLast? <;> rfl

@[simp] theorem link_pSessionInprogress (p : Progress) (client : ℕ) (q : SessionPtr) :
    (p.link client q).pSessionInprogress = p.obj.pSessionInprogress := by
  rw [link]
  cases p.taken.getLast? <;> rfl

theorem Chain.not_taken (h : Chain args calls p k)
    (hi : p.obj.getNewSessionIdx args.client = some i) : i ∉ p.taken := by
  intro hmem
  have hfree := (MmJpegObj.getNewSessionIdx_free hi).2
  rw [(h.created i hmem).1] at hfree
  exact Bool.noConfusion hfree

theorem queued_session_self (p : Progress) (args : ChainArgs) (k i : ℕ) (c : SessionCalls) :
    (p.queued args k i c).obj.session ⟨args.client, i⟩ = { p.created args k i with
        omxHandle := some c.handle
        clientHdl := args.clientHdl
        sessionId := idOf args.client i
        sessionHandleQ := some args.sessionHandleQ
        outBufQ := some args.outBufQ } :=
  MmJpegObj.setSession_session ..

theorem queued_session_of_ne {c : SessionCalls} {r : SessionPtr} (h : r ≠ ⟨args.client, i⟩) :
    (p.queued args k i c).obj.session r = (p.link args.client ⟨args.client, i⟩).session r :=
  MmJpegObj.setSession_session_of_ne h

theorem Chain.queue_le (h : Chain args calls p k) : (p.obj.sessionQ args.sessionHandleQ).length ≤ k := by
  by_cases hall : ∀ j < k, (calls j).enqueued
  · rw [h.inQueue hall, length_map, h.length]
  · push Not at hall
    obtain ⟨j, hj, hlost⟩ := hall
    exact (h.missing j hj (Bool.eq_false_iff.mpr hlost)).le

/-- A session that is put in the queue is one more of the chain. -/
theorem Chain.queued (h : Chain args calls p k) (hi : p.obj.getNewSessionIdx args.client = some i) :
    Chain args calls (p.queued args k i (calls k)) (k + 1) := by
  have hnot := h.not_taken hi
  have hne : ∀ j ∈ p.taken, (⟨args.client, j⟩ : SessionPtr) ≠ ⟨args.client, i⟩ := by
    intro j hj heq
    exact hnot ((SessionPtr.mk.inj heq).2 ▸ hj)
  have hold : ∀ j ∈ p.taken, (p.queued args k i (calls k)).obj.session ⟨args.client, j⟩ =
      (p.link args.client ⟨args.client, i⟩).session ⟨args.client, j⟩ :=
    fun j hj => queued_session_of_ne (hne j hj)
  have hq : (p.queued args k i (calls k)).obj.sessionQ args.sessionHandleQ =
      if (calls k).enqueued then
        p.obj.sessionQ args.sessionHandleQ ++ [⟨args.client, i⟩]
      else p.obj.sessionQ args.sessionHandleQ := by
    by_cases he : (calls k).enqueued <;>
      simp [Progress.queued, MmJpegObj.setSession, he]
  have htaken : (p.queued args k i (calls k)).taken = p.taken ++ [i] := rfl
  constructor
  case length => rw [htaken, length_append, h.length, length_singleton]
  case nodup =>
    rw [htaken]
    exact nodup_append.mpr ⟨h.nodup, nodup_singleton i, fun a ha b hb hab =>
      hnot (by rw [← mem_singleton.mp hb, ← hab]; exact ha)⟩
  case created =>
    intro j hj
    rw [htaken] at hj
    rcases mem_append.mp hj with hj | hj
    · rw [hold j hj, link_session]
      exact h.created j hj
    · rw [mem_singleton.mp hj, queued_session_self]
      exact ⟨rfl, rfl, rfl⟩
  case chained =>
    rw [htaken]
    refine List.IsChain.append ?_ (isChain_singleton i) fun j hj j' hj' => ?_
    · refine h.chained.imp_of_mem_imp fun a b ha _ hnext => ?_
      rw [hold a ha, link_session]
      split
      · next hlast =>
          obtain ⟨a', ha', heq⟩ := Option.map_eq_some_iff.mp hlast
          rw [← heq, h.last a' ha'] at hnext
          exact nomatch hnext
      · exact hnext
    · obtain rfl : i = j' := by simpa using hj'
      rw [hold j (mem_of_getLast? hj), link_session, Option.mem_def.mp hj]
      simp
  case last =>
    intro j hj
    obtain rfl : i = j := by simpa [htaken] using hj
    rw [queued_session_self]
    rfl
  case inQueue =>
    intro hall
    rw [hq, if_pos (hall k (Nat.lt_succ_self k)),
      h.inQueue fun j hj => hall j (Nat.lt_succ_of_lt hj), htaken, map_append]
    rfl
  case missing =>
    intro j hj hlost
    have hle := h.queue_le
    rw [hq]
    split
    · next he =>
        have hjk : j < k := by
          refine lt_of_le_of_ne (Nat.lt_succ_iff.mp hj) fun hjk => ?_
          rw [hjk, he] at hlost
          exact Bool.noConfusion hlost
        have := h.missing j hjk hlost
        rw [length_append, length_singleton]
        omega
    · omega

theorem Chain.congr {p' : Progress} (h : Chain args calls p k) (htaken : p'.taken = p.taken)
    (hsession : ∀ r, (p'.obj.session r).active = (p.obj.session r).active ∧
      (p'.obj.session r).omxHandle = (p.obj.session r).omxHandle ∧
      (p'.obj.session r).sessionHandleQ = (p.obj.session r).sessionHandleQ ∧
      (p'.obj.session r).nextSession = (p.obj.session r).nextSession)
    (hqueue : p'.obj.sessionQ = p.obj.sessionQ) : Chain args calls p' k := by
  constructor
  case length => rw [htaken, h.length]
  case nodup => rw [htaken]; exact h.nodup
  case created =>
    intro i hi
    obtain ⟨hactive, hhandle, hq, -⟩ := hsession ⟨args.client, i⟩
    rw [hactive, hhandle, hq]
    exact h.created i (htaken ▸ hi)
  case chained =>
    rw [htaken]
    refine h.chained.imp fun i j hij => ?_
    rw [(hsession ⟨args.client, i⟩).2.2.2, hij]
  case last =>
    intro i hi
    rw [htaken] at hi
    rw [(hsession ⟨args.client, i⟩).2.2.2, h.last i hi]
  case inQueue => rw [htaken, hqueue]; exact h.inQueue
  case missing => rw [hqueue]; exact h.missing

theorem Building.free_queued (h : Building args calls base p k) {c : SessionCalls}
    (hi : p.obj.getNewSessionIdx args.client = some i) :
    (p.queued args k i c).obj.freeSessions args.client + (k + 1) = base.obj.freeSessions args.client := by
  obtain ⟨hlt, hfree⟩ := MmJpegObj.getNewSessionIdx_free hi
  have htaken := @MmJpegObj.freeSessions_taken _ (p.queued args k i c).obj _ _ hlt hfree
    (by rw [queued_session_self]; rfl) fun j hj => by
      rw [queued_session_of_ne fun heq => hj (SessionPtr.mk.inj heq).2, link_session]
  have hbefore := h.free
  omega

theorem Building.configured (h : Building args calls base p k) (hi : p.obj.getNewSessionIdx args.client = some i)
    (hfree : (p.queued args k i (calls k)).obj.freeSessions args.client + (k + 1) = base.obj.freeSessions args.client) :
    Outcome.Meets (fun p' => (k = 0 → base.obj.pSessionInprogress = none → (calls k).configureError = 0) ∧
        Building args calls base p' (k + 1))
      (fun p' => ¬ (k = 0 → base.obj.pSessionInprogress = none → (calls k).configureError = 0) ∧
        Stopped args.client (k + 1) p')
      ((p.queued args k i (calls k)).configured args i (calls k)) := by
  have hchain := h.toChain.queued hi
  have hself := queued_session_self p args k i (calls k)
  have hprogress : (p.queued args k i (calls k)).obj.pSessionInprogress =
      p.obj.pSessionInprogress := link_pSessionInprogress ..
  have hid : (p.queued args k i (calls k)).pSessionId ≠ 0 := by
    change (if p.pSessionId = 0 then idOf args.client i else p.pSessionId) ≠ 0
    split
    · exact idOf_ne_zero _ _
    · assumption
  have hrc : (p.queued args k i (calls k)).rc = 0 := h.rc
  generalize p.queued args k i (calls k) = s at hchain hself hprogress hid hfree hrc
  have hconfig : (s.obj.session ⟨args.client, i⟩).config = false := by rw [hself]; rfl
  have herror : (s.obj.session ⟨args.client, i⟩).configure (calls k) = (calls k).configureError := by
    rw [hself]
    exact if_neg (show AbortState.none ≠ .init from nofun)
  -- the fields of the session that the chain reads are not those that are written
  have hbuilt : ∀ o : MmJpegObj, ∀ x : JobSession, o.sessionQ = s.obj.sessionQ →
      o.session = (s.obj.setSession ⟨args.client, i⟩ x).session → o.pSessionInprogress ≠ none →
      x.active = (s.obj.session ⟨args.client, i⟩).active →
      x.omxHandle = (s.obj.session ⟨args.client, i⟩).omxHandle →
      x.sessionHandleQ = (s.obj.session ⟨args.client, i⟩).sessionHandleQ →
      x.nextSession = (s.obj.session ⟨args.client, i⟩).nextSession →
      ∀ rc, rc = 0 → Building args calls base { s with obj := o, rc := rc } (k + 1) := by
    rintro o x hqueue ho hne hactive hhandle hq hnext _ rfl
    have hsession : ∀ r, (o.session r).active = (s.obj.session r).active ∧
        (o.session r).omxHandle = (s.obj.session r).omxHandle ∧
        (o.session r).sessionHandleQ = (s.obj.session r).sessionHandleQ ∧
        (o.session r).nextSession = (s.obj.session r).nextSession := by
      intro r
      rw [ho]
      by_cases hr : r = ⟨args.client, i⟩
      · rw [hr, MmJpegObj.setSession_session]
        exact ⟨hactive, hhandle, hq, hnext⟩
      · rw [MmJpegObj.setSession_session_of_ne hr]
        exact ⟨rfl, rfl, rfl, rfl⟩
    refine ⟨hchain.congr rfl hsession hqueue, ?_, ?_, fun _ => hne, fun _ => hid, rfl⟩
    · rw [← hfree]
      congr 1
      exact countP_congr fun j _ => by rw [(hsession ⟨args.client, j⟩).1]
    · exact fun hk => absurd hk (Nat.succ_ne_zero k)
  rw [Progress.configured]
  simp only [hconfig, Bool.not_false, true_and, herror, hprogress]
  split
  · next hnone =>
      have hk : k = 0 := by
        by_contra hk
        exact h.inprogress hk hnone
      have hbase : base.obj.pSessionInprogress = none := (h.first hk) ▸ hnone
      split
      · next hfails => exact ⟨fun hgoes => hfails (hgoes hk hbase), Or.inr ⟨hfails, hid⟩⟩
      · next hok =>
          refine ⟨fun _ _ => not_not.mp hok, ?_⟩
          refine hbuilt _ { s.obj.session ⟨args.client, i⟩ with
            config := true, numOmxSessions := args.numOmxSessions } ?_ ?_ ?_ ?_ ?_ ?_ ?_ _ rfl
          case refine_3 => exact Option.some_ne_none _
          all_goals rfl
  · next hsome =>
      refine ⟨fun hk hbase => absurd ((h.first hk).trans hbase) hsome, ?_⟩
      refine hbuilt _ { s.obj.session ⟨args.client, i⟩ with
        config := false, numOmxSessions := args.numOmxSessions } ?_ ?_ ?_ ?_ ?_ ?_ ?_ _ hrc
      case refine_3 => exact fun hnone => hsome (hprogress ▸ hnone)
      all_goals rfl

/-- One turn of the loop: it goes on to one more session, or is left with nothing in `rc` or
with an id that was given out. -/
theorem Building.turn (h : Building args calls base p k) :
    Outcome.Meets (fun p' => Goes calls base args.client k ∧ Building args calls base p' (k + 1))
      (fun p' => ¬ Goes calls base args.client k ∧ Stopped args.client (k + 1) p')
      (p.createOne args k (calls k)) := by
  rw [createOne]
  cases hi : p.obj.getNewSessionIdx args.client with
  | none =>
    refine ⟨fun hgoes => ?_, Or.inl ⟨h.rc, Or.inl (by rw [h.length]; omega)⟩⟩
    have hnone := MmJpegObj.getNewSessionIdx_eq_none.mp hi
    have hfree := h.free
    have := hgoes.1
    omega
  | some i =>
    have hfree := h.free_queued hi (c := calls k)
    simp only []
    split
    · next hhandle =>
        refine ⟨fun hgoes => hhandle hgoes.2.1, Or.inl ⟨h.rc, Or.inr ⟨i, ?_, ?_⟩⟩⟩
        · exact mem_append_right _ (mem_singleton_self i)
        · rw [failed, MmJpegObj.setSession_session]
    · next hhandle =>
        refine (h.configured hi hfree).mono (fun p' hp' => ⟨⟨?_, not_not.mp hhandle, hp'.1⟩, hp'.2⟩)
          fun p' hp' => ⟨fun hgoes => hp'.1 hgoes.2.2, hp'.2⟩
        omega

/-- The loop gets to its end where every turn goes on. -/
theorem Building.createSessions (todo : ℕ) (h : Building args calls base p k) : Outcome.Meets
      (fun p' => (∀ j, k ≤ j → j < k + todo → Goes calls base args.client j) ∧ Building args calls base p' (k + todo))
      (fun p' => ¬ (∀ j, k ≤ j → j < k + todo → Goes calls base args.client j) ∧ Stopped args.client (k + todo) p')
      (createSessions args calls todo k p) := by
  induction todo generalizing k p with
  | zero => exact ⟨fun j hle hlt => absurd hlt (by omega), h⟩
  | succ todo ih =>
    refine h.turn.seq (fun p' hp' => ?_) fun p' hp' => (ih hp'.2).mono (fun q hq => ?_) fun q hq => ?_
    · exact ⟨fun hall => hp'.1 (hall k le_rfl (by omega)), hp'.2.mono (by omega)⟩
    · refine ⟨fun j hle hlt => ?_, by rw [← Nat.succ_add_eq_add_succ]; exact hq.2⟩
      rcases Nat.eq_or_lt_of_le hle with rfl | hle
      · exact hp'.1
      · exact hq.1 j hle (by omega)
    · exact ⟨fun hall => hq.1 fun j hle hlt => hall j (by omega) (by omega), hq.2.mono (by omega)⟩

/-- All the sessions are created, chained and in the queue that they share. -/
structure AllCreated (p : Progress) (client num : ℕ) : Prop where
  length : p.taken.length = num
  nodup : p.taken.Nodup
  created : ∀ i ∈ p.taken, (p.obj.session ⟨client, i⟩).active = true ∧ (p.obj.session ⟨client, i⟩).omxHandle.isSome
  chained : p.taken.IsChain fun i j =>
    (p.obj.session ⟨client, i⟩).nextSession = some ⟨client, j⟩
  last : ∀ i ∈ p.taken.getLast?, (p.obj.session ⟨client, i⟩).nextSession = none
  queued : ∃ q, (∀ i ∈ p.taken, (p.obj.session ⟨client, i⟩).sessionHandleQ = some q) ∧
    p.obj.sessionQ q = p.taken.map (SessionPtr.mk client)

/-- Nothing is left of the sessions that were taken. -/
structure Undone (p : Progress) (client : ℕ) : Prop where
  pSessionId : p.pSessionId = 0
  inactive : ∀ i ∈ p.taken, (p.obj.session ⟨client, i⟩).active = false ∧ (p.obj.session ⟨client, i⟩).omxHandle = none
  unchained : ∀ r, ∀ i ∈ p.taken, (p.obj.session r).nextSession ≠ some ⟨client, i⟩

/-- A call for `num` sessions is atomic. -/
def Atomic (p : Progress) (client num : ℕ) : Prop :=
  (p.rc = 0 → p.AllCreated client num) ∧ (p.rc ≠ 0 → p.Undone client)

theorem atomic_of_taken_nil {client num : ℕ} (htaken : p.taken = []) (hid : p.pSessionId = 0)
    (hrc : p.rc ≠ 0) : p.Atomic client num := by
  refine ⟨fun h => absurd h hrc, fun _ => ⟨hid, fun i hi => ?_, fun r i hi => ?_⟩⟩
  · exact absurd hi (htaken ▸ not_mem_nil)
  · exact absurd hi (htaken ▸ not_mem_nil)

end Progress

theorem allocWorkbuffer_failed (bufferAllocate : ℕ → Bool) (todo : ℕ) (rc : ℤ) (cnt : ℕ) (hrc : rc ≠ -1) :
    (allocWorkbuffer bufferAllocate todo rc cnt).1 = -1 ↔ ∃ k, cnt ≤ k ∧ k < cnt + todo ∧ bufferAllocate k = false := by
  induction todo generalizing rc cnt with
  | zero =>
    refine ⟨fun h => absurd h hrc, ?_⟩
    rintro ⟨k, hle, hlt, -⟩
    omega
  | succ todo ih =>
    rw [allocWorkbuffer]
    split
    · next hok =>
        rw [ih (cnt : ℤ) (cnt + 1) (by omega)]
        constructor
        · rintro ⟨k, hle, hlt, hk⟩
          exact ⟨k, by omega, by omega, hk⟩
        · rintro ⟨k, hle, hlt, hk⟩
          refine ⟨k, lt_of_le_of_ne hle fun heq => ?_, by omega, hk⟩
          rw [← heq, hok] at hk
          exact Bool.noConfusion hk
    · next hfails => exact ⟨fun _ => ⟨cnt, le_rfl, by omega, Bool.eq_false_iff.mpr hfails⟩, fun _ => rfl⟩

/-- The call fails before its loop. -/
def SetUpFails (clientHdl : ℕ) (params : EncodeParams) (concurrent : ℕ) (setup : SetupCalls) (o : MmJpegObj) : Prop :=
  (mmJpegMaxBuf < params.numSrcBufs ∨ mmJpegMaxBuf < params.numDstBufs ∨ maxJpegClientNum ≤ getClientIdx clientHdl) ∨
  (o.reuseReprocBuffer = false ∧ ∃ k, o.workBufCnt ≤ k ∧
    k < min (params.numOmxSessions concurrent) concurrent ∧ setup.bufferAllocate k = false) ∨
  setup.sessionHandleQ = false ∨ setup.outBufQ = false

/-- Nothing fails in the loop. -/
structure LoopSucceeds (client num : ℕ) (calls : ℕ → SessionCalls) (o : MmJpegObj) : Prop where
  free : num ≤ o.freeSessions client
  handles : ∀ k < num, (calls k).getHandle = 0
  enqueued : ∀ k < num, (calls k).enqueued
  configured : 0 < num → o.pSessionInprogress = none → (calls 0).configureError = 0

/-- A call that took no session and reports its failure. -/
def Early (p : Progress) : Prop := p.taken = [] ∧ p.pSessionId = 0 ∧ p.rc ≠ 0

theorem setUp_meets (clientHdl : ℕ) (params : EncodeParams) (concurrent : ℕ) (setup : SetupCalls) (o : MmJpegObj) :
    Outcome.Meets (fun r => ¬ SetUpFails clientHdl params concurrent setup o ∧ r.1.session = o.session ∧
        r.1.pSessionInprogress = o.pSessionInprogress ∧
        r.1.sessionQ r.2.sessionHandleQ = [] ∧ r.2.client = getClientIdx clientHdl ∧
        r.2.numOmxSessions = params.numOmxSessions concurrent)
      (fun p => SetUpFails clientHdl params concurrent setup o ∧ Early p)
      (setUp clientHdl params concurrent setup o) := by
  have hearly : ∀ o' : MmJpegObj, Early { obj := o', rc := -1 } :=
    fun o' => ⟨rfl, rfl, show (-1 : ℤ) ≠ 0 by omega⟩
  rw [setUp, checkArgs]
  split
  · next hargs => exact ⟨Or.inl hargs, hearly o⟩
  · next hargs =>
      -- the buffers are there, or one is not got
      have hbuffers : Outcome.Meets (fun o' => ¬ (o.reuseReprocBuffer = false ∧ ∃ k, o.workBufCnt ≤ k ∧
            k < min (params.numOmxSessions concurrent) concurrent ∧
            setup.bufferAllocate k = false) ∧ o'.session = o.session ∧
            o'.pSessionInprogress = o.pSessionInprogress)
          (fun p => SetUpFails clientHdl params concurrent setup o ∧ Early p)
          (allocBuffers (min (params.numOmxSessions concurrent) concurrent) setup o) := by
        rw [allocBuffers]
        have hfailed := allocWorkbuffer_failed setup.bufferAllocate
          (min (params.numOmxSessions concurrent) concurrent - o.workBufCnt) 0 o.workBufCnt
          (by omega)
        split
        · next hreuse => exact ⟨fun h => absurd h.1 (by simp [hreuse]), rfl, rfl⟩
        · next hreuse =>
            simp only []
            split
            · next hneg =>
                obtain ⟨k, hle, hlt, hk⟩ := hfailed.mp hneg
                exact ⟨Or.inr (Or.inl ⟨Bool.eq_false_iff.mpr hreuse, k, hle, by omega, hk⟩), hearly _⟩
            · next hneg =>
                refine ⟨?_, rfl, rfl⟩
                rintro ⟨-, k, hle, hlt, hk⟩
                exact hneg (hfailed.mpr ⟨k, hle, by omega, hk⟩)
      refine hbuffers.bind fun o₁ ho₁ => ?_
      cases hq : setup.sessionHandleQ with
      | false => exact ⟨Or.inr (Or.inr (Or.inl hq)), hearly _⟩
      | true =>
        cases hout : setup.outBufQ with
        | false => exact ⟨Or.inr (Or.inr (Or.inr hout)), hearly _⟩
        | true =>
          refine ⟨?_, ho₁.2.1, ho₁.2.2, ?_, rfl, rfl⟩
          · rintro (h | h | h | h)
            · exact hargs h
            · exact ho₁.1 h
            · rw [hq] at h
              exact Bool.noConfusion h
            · rw [hout] at h
              exact Bool.noConfusion h
          · change update (update o₁.sessionQ o₁.numQueues []) (o₁.numQueues + 1) [] o₁.numQueues = []
            rw [update_of_ne (by omega), update_self]

namespace Progress

theorem building_start (args : ChainArgs) (calls : ℕ → SessionCalls) {o : MmJpegObj}
    (hqueue : o.sessionQ args.sessionHandleQ = []) :
    Building args calls { obj := o } { obj := o } 0 := by
  refine ⟨⟨rfl, nodup_nil, nofun, List.IsChain.nil, nofun, fun _ => hqueue, nofun⟩, rfl,
    fun _ => rfl, fun h => absurd rfl h, fun h => absurd rfl h, rfl⟩

theorem goes_iff {calls : ℕ → SessionCalls} {o : MmJpegObj} {client num : ℕ} :
    (∀ j, 0 ≤ j → j < 0 + num → Goes calls { obj := o } client j) ↔
      num ≤ o.freeSessions client ∧ (∀ k < num, (calls k).getHandle = 0) ∧
        (0 < num → o.pSessionInprogress = none → (calls 0).configureError = 0) := by
  rw [Nat.zero_add]
  constructor
  · intro h
    refine ⟨?_, fun k hk => (h k (Nat.zero_le k) hk).2.1, fun hpos => (h 0 le_rfl hpos).2.2 rfl⟩
    by_contra hlt
    have := (h (num - 1) (Nat.zero_le _) (by omega)).1
    simp only at this
    omega
  · rintro ⟨hfree, hhandles, hconfigured⟩ j - hj
    refine ⟨Nat.lt_of_lt_of_le hj hfree, hhandles j hj, ?_⟩
    rintro rfl hnone
    exact hconfigured hj hnone

theorem Building.allCreated {args : ChainArgs} {calls : ℕ → SessionCalls} {base p : Progress}
    {num : ℕ} (h : Building args calls base p num) :
    p.AllCreated args.client num ↔ ∀ k < num, (calls k).enqueued := by
  constructor
  · intro hall k hk
    by_contra hlost
    obtain ⟨q, hq, hqueue⟩ := hall.queued
    have hmem : p.taken ≠ [] := fun hnil => by
      have := h.length
      rw [hnil, length_nil] at this
      omega
    obtain ⟨i, hi⟩ := exists_mem_of_ne_nil _ hmem
    have heq : q = args.sessionHandleQ :=
      Option.some.inj ((hq i hi).symm.trans (h.created i hi).2.2)
    have hlt := h.missing k hk (Bool.eq_false_iff.mpr hlost)
    rw [← heq, hqueue, length_map, h.length] at hlt
    omega
  · intro hall
    exact ⟨h.length, h.nodup, fun i hi => ⟨(h.created i hi).1, (h.created i hi).2.1⟩, h.chained,
      h.last, args.sessionHandleQ, fun i hi => (h.created i hi).2.2, h.inQueue hall⟩

theorem Stopped.not_atomic {client num : ℕ} {p : Progress} (h : Stopped client num p) : ¬ p.Atomic client num := by
  rintro ⟨hdone, hundone⟩
  rcases h with ⟨hrc, hmissing | ⟨i, hi, hinactive⟩⟩ | ⟨hrc, hid⟩
  · exact absurd (hdone hrc).length (by omega)
  · rw [((hdone hrc).created i hi).1] at hinactive
    exact Bool.noConfusion hinactive
  · exact hid (hundone hrc).pSessionId

theorem loop_atomic (args : ChainArgs) (calls : ℕ → SessionCalls) {o : MmJpegObj}
    (hqueue : o.sessionQ args.sessionHandleQ = []) :
    (match createSessions args calls args.numOmxSessions 0 { obj := o } with
      | .error p => p
      | .ok p => p.queueOutBufs args).Atomic args.client args.numOmxSessions ↔
      LoopSucceeds args.client args.numOmxSessions calls o := by
  have hloop := (building_start args calls hqueue).createSessions args.numOmxSessions
  rw [goes_iff, Nat.zero_add] at hloop
  cases hres : createSessions args calls args.numOmxSessions 0 { obj := o } with
  | error p =>
    obtain ⟨hfails, hstopped⟩ := hloop.error hres
    refine ⟨fun h => absurd h hstopped.not_atomic, fun h => ?_⟩
    exact absurd ⟨h.free, h.handles, h.configured⟩ hfails
  | ok p =>
    obtain ⟨hgoes, hbuilt⟩ := hloop.ok hres
    have hout : (p.queueOutBufs args).AllCreated args.client args.numOmxSessions ↔
        p.AllCreated args.client args.numOmxSessions :=
      ⟨fun h => ⟨h.1, h.2, h.3, h.4, h.5, h.6⟩, fun h => ⟨h.1, h.2, h.3, h.4, h.5, h.6⟩⟩
    have hrc : (p.queueOutBufs args).rc = 0 := hbuilt.rc
    simp only [Atomic, hrc, ne_eq, not_true_eq_false, false_implies, and_true, true_implies,
      hout, hbuilt.allCreated]
    exact ⟨fun h => ⟨hgoes.1, hgoes.2.1, h, hgoes.2.2⟩, fun h => h.enqueued⟩

end Progress

/-- **`mm_jpeg_create_session` is atomic** exactly where it fails before its loop, or where in the
loop a session is free, its handle is got and it is queued in every turn, and the first is
configured if no session is in progress. -/
theorem createSession_atomic (clientHdl : ℕ) (params : EncodeParams) (concurrent : ℕ)
    (setup : SetupCalls) (calls : ℕ → SessionCalls) (o : MmJpegObj) :
    (createSession clientHdl params concurrent setup calls o).Atomic (getClientIdx clientHdl)
        (params.numOmxSessions concurrent) ↔
      SetUpFails clientHdl params concurrent setup o ∨
        LoopSucceeds (getClientIdx clientHdl) (params.numOmxSessions concurrent) calls o := by
  have hsetup := setUp_meets clientHdl params concurrent setup o
  rw [createSession]
  cases hres : setUp clientHdl params concurrent setup o with
  | error p =>
    obtain ⟨hfails, htaken, hid, hrc⟩ := hsetup.error hres
    exact ⟨fun _ => Or.inl hfails, fun _ => Progress.atomic_of_taken_nil htaken hid hrc⟩
  | ok r =>
    obtain ⟨o', args⟩ := r
    obtain ⟨hok, hsession, hprogress, hqueue, hclient, hnum⟩ := hsetup.ok hres
    simp only at hsession hprogress hqueue hclient hnum
    have hsame : LoopSucceeds args.client args.numOmxSessions calls o' ↔
        LoopSucceeds args.client args.numOmxSessions calls o := by
      have hfree : o'.freeSessions args.client = o.freeSessions args.client := by
        rw [MmJpegObj.freeSessions, hsession, MmJpegObj.freeSessions]
      constructor
      · rintro ⟨h₁, h₂, h₃, h₄⟩
        exact ⟨hfree ▸ h₁, h₂, h₃, hprogress ▸ h₄⟩
      · rintro ⟨h₁, h₂, h₃, h₄⟩
        exact ⟨hfree.symm ▸ h₁, h₂, h₃, hprogress.symm ▸ h₄⟩
    rw [← hclient, ← hnum, or_iff_right hok, ← hsame]
    exact Progress.loop_atomic args calls hqueue

/-- `OMX_GetHandle` fails for the only session of an empty table: the call returns 0, and there is
no session. -/
theorem createSession_error_lost : ¬ (createSession 0x100 { numSrcBufs := 1, numDstBufs := 1 } 1 {}
      (fun _ => { getHandle := 1 }) {}).Atomic (getClientIdx 0x100)
        (EncodeParams.numOmxSessions { numSrcBufs := 1, numDstBufs := 1 } 1) := by
  intro h
  obtain ⟨-, -, hcreated, -⟩ := h.1 (by decide)
  exact absurd (hcreated 0 (by decide)).1 (by decide)

end MmJpeg

end Marlin
