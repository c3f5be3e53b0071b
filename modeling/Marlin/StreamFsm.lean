import Marlin.ChannelModel

/-!
# Starting and Stopping a Stream

The events of `mm_stream_fsm_fn` that a channel sends to its streams as it starts and stops:
buffers are taken from the client (`GET_BUF`), queued in the kernel (`REG_BUF`), and the
stream is switched on (`START`); `STOP`, `UNREG_BUF` and `PUT_BUF` go the way back. Each state
handles its own events and reports success for every other one.

What the kernel and the client answer is given by `StartCalls`. The calls of the way back
succeed, and no frame is delivered before the channel is started.

## Main results

* `regBufLoop_spec`: how far the registration of the buffers gets.
* `Clean.startStream`: which answers start a stream, and that the way back leaves it as it
  was, unless a buffer was refused after another one had been queued.
-/

namespace Marlin

open List Option Bool

/-- A stream with the buffers in the queue of its device, and whether the poll thread of its
channel has it entered. -/
structure StreamSlot where
  stream : MmStream
  kernel : List ℕ := []
  polled : Bool := false
  deriving DecidableEq

/-- The answers to the calls that start a stream: the buffers of `mem_vtbl.get_bufs` with
their `reg_flags`, `VIDIOC_REQBUFS`, `VIDIOC_QBUF` of each buffer, the wait for the mapping,
`VIDIOC_STREAMON` and the stream-on command of the camera module. -/
structure StartCalls where
  getBufs : Option (List (MmCameraBufDef × Bool))
  requestBufs : Bool
  qbuf : ℕ → Bool
  mapped : Bool
  streamOn : Bool
  moduleStreamOn : Bool

/-- The events of `mm_stream_evt_type_t` that start and stop a stream. -/
inductive MmStreamEvt
  | getBuf | regBuf | start | stop | unregBuf | putBuf
  deriving DecidableEq

/-- `MM_CAMERA_MAX_NUM_FRAMES`. -/
def mmCameraMaxNumFrames : ℕ := 64

namespace StreamSlot

/-- `mm_stream_deinit_bufs`. -/
def deinitBufs (s : StreamSlot) : StreamSlot := { s with stream.buf := none }

/-- `mm_stream_init_bufs` takes the buffers of the client over. -/
def takeBufs (s : StreamSlot) (bufs : List (MmCameraBufDef × Bool)) : StreamSlot :=
  let mark := fun (b : MmCameraBufDef × Bool) =>
    { b.1 with
      streamId := s.stream.myHdl
      streamType := (s.stream.streamInfo.map CamStreamInfo.streamType).getD b.1.streamType }
  { s with
    stream.bufNum := bufs.length
    stream.buf := some (bufs.map mark)
    stream.bufStatus := bufs.mapIdx fun i b =>
      { (s.stream.bufStatus[i]?).getD {} with initialRegFlag := b.2 }
    stream.streamInfo := s.stream.streamInfo.map fun info =>
      { info with numBufs := bufs.length } }

/-- `mm_stream_init_bufs`. -/
def initBufs (calls : StartCalls) (s : StreamSlot) : Bool × StreamSlot :=
  let s := if s.stream.buf.isSome then s.deinitBufs else s
  match calls.getBufs with
  | none => (false, s)
  | some bufs => (true, s.takeBufs bufs)

/-- `mm_stream_request_buf`. -/
def requestBuf (calls : StartCalls) (s : StreamSlot) : Bool :=
  s.stream.bufNum ≤ mmCameraMaxNumFrames && calls.requestBufs

/-- `mm_stream_qbuf`: the first buffer enters the stream in the poll thread. -/
def qbuf (calls : StartCalls) (idx : ℕ) (s : StreamSlot) : Bool × StreamSlot :=
  let count := s.stream.queuedBufferCount + 1
  let s := { s with
    stream.queuedBufferCount := count
    polled := if count = 1 then true else s.polled }
  if calls.qbuf idx then (true, { s with kernel := s.kernel ++ [idx] })
  else
    (false, { s with
      stream.queuedBufferCount := count - 1
      polled := if count - 1 = 0 then false else s.polled })

/-- The status of a buffer is changed. -/
def setStatus (s : StreamSlot) (idx refcnt : ℕ) (inKernel : Bool) : StreamSlot :=
  { s with stream.bufStatus := s.stream.bufStatus.modify idx fun b =>
      { b with bufRefcnt := refcnt, inKernel := inKernel } }

/-- The loop of `mm_stream_reg_buf` over the buffers that are left, with their
`initial_reg_flag`. -/
def regBufLoop (calls : StartCalls) : List (ℕ × Bool) → StreamSlot → Bool × StreamSlot
  | [], s => (true, s)
  | (idx, true) :: rest, s =>
    match s.qbuf calls idx with
    | (true, s) => regBufLoop calls rest (s.setStatus idx 0 true)
    | (false, s) => (false, s)
  | (idx, false) :: rest, s => regBufLoop calls rest (s.setStatus idx 1 false)

/-- The buffers with their `initial_reg_flag`. -/
def regFlags (s : StreamSlot) : List (ℕ × Bool) :=
  (List.range s.stream.bufNum).map fun i =>
    (i, ((s.stream.bufStatus[i]?).map MmStreamBufStatus.initialRegFlag).getD false)

/-- `mm_stream_reg_buf`. -/
def regBuf (calls : StartCalls) (s : StreamSlot) : Bool × StreamSlot :=
  if s.requestBuf calls then
    regBufLoop calls s.regFlags { s with stream.queuedBufferCount := 0 }
  else (false, s)

/-- `mm_stream_unreg_buf`. -/
def unregBuf (s : StreamSlot) : StreamSlot :=
  { s with
    kernel := []
    stream.bufStatus := s.stream.bufStatus.mapIdx fun i b =>
      if i < s.stream.bufNum then { b with bufRefcnt := 0, inKernel := false } else b }

/-- `mm_stream_streamon`: each failure removes the stream from the poll thread. -/
def streamon (calls : StartCalls) (s : StreamSlot) : Bool × StreamSlot :=
  if !calls.mapped then (false, { s with polled := false })
  else if !calls.streamOn && (s.stream.streamInfo.map CamStreamInfo.numBufs).getD 0 != 0 then
    (false, { s with polled := false })
  else if !calls.moduleStreamOn then (false, { s with kernel := [], polled := false })
  else (true, s)

/-- `mm_stream_streamoff`. -/
def streamoff (s : StreamSlot) : StreamSlot := { s with polled := false, kernel := [] }

/-- `mm_stream_fsm_cfg`. -/
def fsmCfg (calls : StartCalls) (s : StreamSlot) : MmStreamEvt → Bool × StreamSlot
  | .getBuf =>
    match s.initBufs calls with
    | (true, s) => (true, { s with stream.state := .buffed })
    | (false, s) => (false, s)
  | _ => (true, s)

/-- `mm_stream_fsm_buffed`. -/
def fsmBuffed (calls : StartCalls) (s : StreamSlot) : MmStreamEvt → Bool × StreamSlot
  | .putBuf => (true, { s.deinitBufs with stream.state := .cfg })
  | .regBuf =>
    match s.regBuf calls with
    | (true, s) => (true, { s with stream.state := .reg })
    | (false, s) => (false, s)
  | _ => (true, s)

/-- `mm_stream_fsm_reg`. The stream is active while it is switched on. -/
def fsmReg (calls : StartCalls) (s : StreamSlot) : MmStreamEvt → Bool × StreamSlot
  | .unregBuf => (true, { s.unregBuf with stream.state := .buffed })
  | .start =>
    match streamon calls { s with stream.state := .active } with
    | (true, s) => (true, s)
    | (false, s) => (false, { s with stream.state := .reg })
  | _ => (true, s)

/-- `mm_stream_fsm_active`. -/
def fsmActive (s : StreamSlot) : MmStreamEvt → Bool × StreamSlot
  | .stop => (true, { s.streamoff with stream.state := .reg })
  | _ => (true, s)

/-- `mm_stream_fsm_fn`. The states before a stream is configured handle none of the events. -/
def fsmFn (calls : StartCalls) (s : StreamSlot) (evt : MmStreamEvt) : Bool × StreamSlot :=
  match s.stream.state with
  | .notUsed => (false, s)
  | .inited | .acquired => (true, s)
  | .cfg => s.fsmCfg calls evt
  | .buffed => s.fsmBuffed calls evt
  | .reg => s.fsmReg calls evt
  | .active => s.fsmActive evt

/-- What `mm_channel_start` does with one of its streams. -/
def startStream (calls : StartCalls) (s : StreamSlot) : Bool × StreamSlot :=
  if s.stream.state = .active then (false, s)
  else
    match s.fsmFn calls .getBuf with
    | (false, s) => (false, s)
    | (true, s) =>
      match s.fsmFn calls .regBuf with
      | (false, s) => (false, s)
      | (true, s) => s.fsmFn calls .start

/-- What the error path of `mm_channel_start` does with one of its streams. -/
def rollback (calls : StartCalls) (s : StreamSlot) : StreamSlot :=
  let s := (s.fsmFn calls .stop).2
  let s := (s.fsmFn calls .unregBuf).2
  (s.fsmFn calls .putBuf).2

/-- A configured stream: it has no buffers, the kernel has none of it, and it is not
polled. `mm_stream_config` gave it its `stream_info`. -/
structure Clean (s : StreamSlot) : Prop where
  state : s.stream.state = .cfg
  info : s.stream.streamInfo.isSome
  kernel : s.kernel = []
  polled : s.polled = false
  buf : s.stream.buf = none

/-! ### The way back -/

variable {calls : StartCalls} {s : StreamSlot}

theorem rollback_of_cfg (h : s.stream.state = .cfg) : s.rollback calls = s := by
  simp [rollback, fsmFn, fsmCfg, h]

theorem rollback_of_buffed (h : s.stream.state = .buffed) :
    s.rollback calls = { s.deinitBufs with stream.state := .cfg } := by
  simp [rollback, fsmFn, fsmBuffed, h]

theorem rollback_of_reg (h : s.stream.state = .reg) :
    s.rollback calls = { s.unregBuf.deinitBufs with stream.state := .cfg } := by
  simp [rollback, fsmFn, fsmReg, fsmBuffed, deinitBufs, h]

theorem rollback_of_active (h : s.stream.state = .active) :
    s.rollback calls = { s.streamoff.unregBuf.deinitBufs with stream.state := .cfg } := by
  simp [rollback, fsmFn, fsmActive, fsmReg, fsmBuffed, deinitBufs, unregBuf, h]

/-! ### Registering the buffers -/

/-- The stream is polled while the kernel has buffers of it, and their number is counted. -/
structure Balanced (s : StreamSlot) : Prop where
  count : s.stream.queuedBufferCount = s.kernel.length
  polled : s.polled = !s.kernel.isEmpty

theorem Balanced.count_eq_zero (h : s.Balanced) : s.stream.queuedBufferCount = 0 ↔ s.kernel = [] := by
  rw [h.count, ← length_eq_zero_iff]
  omega

theorem Balanced.qbuf_of_refused {idx : ℕ}
    (h : s.Balanced) (hq : calls.qbuf idx = false) : s.qbuf calls idx = (false, s) := by
  have hpolled : (if s.stream.queuedBufferCount = 0 then false
      else if s.stream.queuedBufferCount + 1 = 1 then true else s.polled) = s.polled := by
    by_cases hzero : s.stream.queuedBufferCount = 0
    · rw [if_pos hzero, h.polled, h.count_eq_zero.mp hzero]
      rfl
    · rw [if_neg hzero, if_neg (by omega)]
  simp only [qbuf, hq, false_eq_true, if_false, Int.add_sub_cancel]
  rw [hpolled]

/-- The stream after `VIDIOC_QBUF` took a buffer. -/
def queued (s : StreamSlot) (idx : ℕ) : StreamSlot :=
  { s with
    stream.queuedBufferCount := s.stream.queuedBufferCount + 1
    kernel := s.kernel ++ [idx]
    polled := if s.stream.queuedBufferCount + 1 = 1 then true else s.polled }

theorem qbuf_of_taken {idx : ℕ}
    (hq : calls.qbuf idx = true) : s.qbuf calls idx = (true, s.queued idx) := by
  simp only [qbuf, hq, if_true, queued]

/-- A buffer that is taken is counted. -/
theorem Balanced.queued (h : s.Balanced) (idx : ℕ) : (s.queued idx).Balanced := by
  constructor
  · simp [StreamSlot.queued, h.count]
  · by_cases hzero : s.stream.queuedBufferCount = 0
    · simp [StreamSlot.queued, hzero]
    · have hpolled : s.polled = true := by
        rw [h.polled, not_eq_true', isEmpty_eq_false_iff]
        exact fun hnil => hzero (h.count_eq_zero.mpr hnil)
      simp [StreamSlot.queued, hpolled]

/-- What starting leaves as it is in a stream. -/
structure SameStream (s t : StreamSlot) : Prop where
  state : t.stream.state = s.stream.state
  info : t.stream.streamInfo = s.stream.streamInfo
  chObj : t.stream.chObj = s.stream.chObj

/-- The loop over the buffers: it ends with success if the kernel takes all of them, and else
at the first one refused; what it queued before stays in the kernel. -/
theorem regBufLoop_spec {l : List (ℕ × Bool)} (h : s.Balanced) :
    SameStream s (regBufLoop calls l s).2 ∧ (regBufLoop calls l s).2.Balanced ∧
      ((regBufLoop calls l s).1 = true ↔ ∀ i, (i, true) ∈ l → calls.qbuf i = true) ∧
      ((regBufLoop calls l s).2.kernel = [] ↔ s.kernel = [] ∧
        ∀ i ∈ ((l.filter Prod.snd).map Prod.fst).head?, calls.qbuf i = false) := by
  induction l generalizing s with
  | nil => exact ⟨⟨rfl, rfl, rfl⟩, h, by simp [regBufLoop], by simp [regBufLoop]⟩
  | cons p rest ih =>
    obtain ⟨idx, flag⟩ := p
    cases flag with
    | false =>
      have hset : (s.setStatus idx 1 false).Balanced := ⟨h.count, h.polled⟩
      obtain ⟨⟨hstate, hinfo, hch⟩, hbal, hok, hker⟩ := ih hset
      refine ⟨⟨hstate, hinfo, hch⟩, hbal, ?_, ?_⟩
      · simpa [regBufLoop] using hok
      · simpa [regBufLoop, setStatus] using hker
    | true =>
      by_cases hq : calls.qbuf idx = true
      · have hset : ((s.queued idx).setStatus idx 0 true).Balanced :=
          ⟨(h.queued idx).count, (h.queued idx).polled⟩
        obtain ⟨⟨hstate, hinfo, hch⟩, hbal, hok, hker⟩ := ih hset
        have hne : ((s.queued idx).setStatus idx 0 true).kernel ≠ [] := by
          simp [setStatus, queued]
        have hloop : regBufLoop calls ((idx, true) :: rest) s =
            regBufLoop calls rest ((s.queued idx).setStatus idx 0 true) := by
          simp only [regBufLoop, qbuf_of_taken hq]
        rw [hloop]
        refine ⟨⟨hstate, hinfo, hch⟩, hbal, ?_, ?_⟩
        · simp [hok, hq]
        · simp [hker, hne, hq]
      · simp only [not_eq_true] at hq
        have hloop : regBufLoop calls ((idx, true) :: rest) s = (false, s) := by
          simp only [regBufLoop, h.qbuf_of_refused hq]
        rw [hloop]
        refine ⟨⟨rfl, rfl, rfl⟩, h, ?_, ?_⟩
        · simp [hq]
        · simp [hq]

end StreamSlot

/-! ### Which answers start a stream -/

namespace StartCalls

/-- The buffers that `REG_BUF` queues. -/
def toQueue (calls : StartCalls) : List ℕ :=
  match calls.getBufs with
  | none => []
  | some bufs => ((bufs.mapIdx fun i b => (i, b.2)).filter Prod.snd).map Prod.fst

/-- The client gives no more buffers than the kernel may have, and the kernel agrees. -/
def takesBufs (calls : StartCalls) : Prop :=
  (∃ bufs ∈ calls.getBufs, bufs.length ≤ mmCameraMaxNumFrames) ∧ calls.requestBufs = true

/-- All calls succeed; without buffers `VIDIOC_STREAMON` need not. -/
def startsOk (calls : StartCalls) : Prop :=
  calls.takesBufs ∧ (∀ i ∈ calls.toQueue, calls.qbuf i = true) ∧ calls.mapped = true ∧
    (calls.streamOn = true ∨ calls.getBufs = some []) ∧ calls.moduleStreamOn = true

/-- A buffer is refused after another one was queued. -/
def failsHalfway (calls : StartCalls) : Prop :=
  calls.takesBufs ∧ (∃ i ∈ calls.toQueue.head?, calls.qbuf i = true) ∧ ∃ i ∈ calls.toQueue, calls.qbuf i = false

end StartCalls

namespace StreamSlot

theorem Clean.initBufs {calls : StartCalls} {s : StreamSlot} (h : s.Clean) : s.initBufs calls = match calls.getBufs with
      | none => (false, s)
      | some bufs => (true, s.takeBufs bufs) := by
  simp [StreamSlot.initBufs, h.buf]

theorem regFlags_takeBufs (s : StreamSlot) (bufs : List (MmCameraBufDef × Bool)) :
    (s.takeBufs bufs).regFlags = bufs.mapIdx fun i b => (i, b.2) := by
  refine ext_getElem (by simp [regFlags, takeBufs]) fun i h₁ h₂ => ?_
  simp only [regFlags, takeBufs, length_map, length_range] at h₁
  simp [regFlags, takeBufs, h₁]

theorem regBuf_spec {calls : StartCalls} {t : StreamSlot}
    {bufs : List (MmCameraBufDef × Bool)} (hbufs : calls.getBufs = some bufs)
    (hkernel : t.kernel = []) (hpolled : t.polled = false)
    (hnum : t.stream.bufNum = bufs.length)
    (hflags : t.regFlags = bufs.mapIdx fun i b => (i, b.2)) :
    SameStream t (t.regBuf calls).2 ∧ (t.regBuf calls).2.polled = !(t.regBuf calls).2.kernel.isEmpty ∧
      ((t.regBuf calls).1 = true ↔ calls.takesBufs ∧ ∀ i ∈ calls.toQueue, calls.qbuf i = true) ∧
      ((t.regBuf calls).1 = false → ((t.regBuf calls).2.kernel = [] ↔ ¬ calls.failsHalfway)) := by
  have hrequest : t.requestBuf calls = true ↔ calls.takesBufs := by
    simp [requestBuf, StartCalls.takesBufs, hbufs, hnum]
  have hqueue : calls.toQueue = ((t.regFlags).filter Prod.snd).map Prod.fst := by
    simp only [StartCalls.toQueue, hbufs, hflags]
  by_cases hreq : t.requestBuf calls = true
  · have hbal : Balanced { t with stream.queuedBufferCount := 0 } :=
      ⟨by simp [hkernel], by simp [hkernel, hpolled]⟩
    obtain ⟨⟨hstate, hinfo, hch⟩, hbal', hok, hker⟩ :=
      @regBufLoop_spec calls _ t.regFlags hbal
    simp only [regBuf, if_pos hreq]
    have hall : (∀ i, (i, true) ∈ t.regFlags → calls.qbuf i = true) ↔ ∀ i ∈ calls.toQueue, calls.qbuf i = true := by
      simp [hqueue]
    refine ⟨⟨hstate, hinfo, hch⟩, hbal'.polled, ?_, fun hfail => ?_⟩
    · rw [hok, hall, and_iff_right (hrequest.mp hreq)]
    · have hrefused : ∃ i ∈ calls.toQueue, calls.qbuf i = false := by
        by_contra hnone
        rw [hok.mpr (hall.mpr fun i hi => ?_)] at hfail
        · cases hfail
        · by_contra hq
          exact hnone ⟨i, hi, by simpa using hq⟩
      rw [hker, ← hqueue]
      constructor
      · rintro ⟨-, hhead⟩ ⟨-, ⟨i, hi, hq⟩, -⟩
        rw [hhead i hi] at hq
        cases hq
      · intro hno
        refine ⟨hkernel, fun i hi => ?_⟩
        by_contra hq
        exact hno ⟨hrequest.mp hreq, ⟨i, hi, by simpa using hq⟩, hrefused⟩
  · simp only [regBuf, if_neg hreq]
    have hno : ¬ calls.takesBufs := fun h => hreq (hrequest.mpr h)
    refine ⟨⟨rfl, rfl, rfl⟩, by simp [hkernel, hpolled], ?_, fun _ => ?_⟩
    · simp [hno]
    · simp [hkernel, StartCalls.failsHalfway, hno]

theorem Clean.of_putBuf {s : StreamSlot} (hinfo : s.stream.streamInfo.isSome) (hpolled : s.polled = !s.kernel.isEmpty) :
    Clean { s.deinitBufs with stream.state := .cfg } ↔ s.kernel = [] := by
  constructor
  · exact fun h => h.kernel
  · intro hkernel
    exact ⟨rfl, hinfo, hkernel, hpolled.trans (by simp [hkernel]), rfl⟩

theorem fsmFn_start_spec {calls : StartCalls} {t : StreamSlot} {info : CamStreamInfo}
    (hstate : t.stream.state = .reg) (hinfo : t.stream.streamInfo = some info) :
    ((t.fsmFn calls .start).1 = true ↔ calls.mapped = true ∧
        (calls.streamOn = true ∨ info.numBufs = 0) ∧ calls.moduleStreamOn = true) ∧
      ((t.fsmFn calls .start).2.rollback calls).Clean ∧
      (t.fsmFn calls .start).2.stream.chObj = t.stream.chObj := by
  have hfsm : t.fsmFn calls .start = t.fsmReg calls .start := by simp only [fsmFn, hstate]
  have hback : ∀ u : StreamSlot, u.stream.state = .reg → u.stream.streamInfo = some info →
      u.polled = false → (u.rollback calls).Clean := by
    intro u hu hui hup
    rw [rollback_of_reg hu]
    exact ⟨rfl, by simp [unregBuf, deinitBufs, hui], rfl, hup, rfl⟩
  rw [hfsm]
  simp only [fsmReg, streamon, hinfo, map_some, getD_some]
  by_cases hm : calls.mapped = true
  · by_cases hs : calls.streamOn = true ∨ info.numBufs = 0
    · have hson : (!calls.streamOn && info.numBufs != 0) = false := by
        rcases hs with h | h <;> simp [h]
      by_cases hmod : calls.moduleStreamOn = true
      · simp only [hm, hson, hmod, Bool.not_true, Bool.false_eq_true, if_false]
        refine ⟨by simp [hs], ?_, by trivial⟩
        rw [rollback_of_active rfl]
        exact ⟨rfl, by simp [streamoff, unregBuf, deinitBufs], rfl, rfl, rfl⟩
      · simp only [not_eq_true] at hmod
        simp only [hm, hson, hmod, Bool.not_true, Bool.false_eq_true, if_false, Bool.not_false, if_true]
        exact ⟨by simp, hback _ rfl rfl rfl, by trivial⟩
    · obtain ⟨hoff, hnum⟩ := not_or.mp hs
      simp only [not_eq_true] at hoff
      have hson : (!calls.streamOn && info.numBufs != 0) = true := by simp [hoff, hnum]
      simp only [hm, hson, Bool.not_true, Bool.false_eq_true, if_false, if_true]
      exact ⟨by simp [hs], hback _ rfl rfl rfl, by trivial⟩
  · simp only [not_eq_true] at hm
    simp only [hm, Bool.not_false, if_true]
    exact ⟨by simp, hback _ rfl rfl rfl, by trivial⟩

/-- **Starting a configured stream.** It starts if and only if all calls succeed, and the way
back from where it got leads to a clean stream unless a buffer was refused after another one
was queued. -/
theorem Clean.startStream {calls : StartCalls} {s : StreamSlot} (h : s.Clean) :
    ((s.startStream calls).1 = true ↔ calls.startsOk) ∧
      (((s.startStream calls).2.rollback calls).Clean ↔ ¬ calls.failsHalfway) ∧
      (s.startStream calls).2.stream.chObj = s.stream.chObj := by
  have hactive : s.stream.state ≠ .active := by simp [h.state]
  have hget : s.fsmFn calls .getBuf = s.fsmCfg calls .getBuf := by simp only [fsmFn, h.state]
  simp only [StreamSlot.startStream, if_neg hactive, hget, fsmCfg, h.initBufs]
  cases hbufs : calls.getBufs with
  | none =>
    refine ⟨?_, ?_, rfl⟩
    · simp [StartCalls.startsOk, StartCalls.takesBufs, hbufs]
    · rw [rollback_of_cfg h.state]
      simp [h, StartCalls.failsHalfway, StartCalls.takesBufs, hbufs]
  | some bufs =>
    obtain ⟨info, hinfo⟩ := isSome_iff_exists.mp h.info
    let t : StreamSlot := { s.takeBufs bufs with stream.state := .buffed }
    obtain ⟨⟨hstate, hinfo', hch⟩, hpolled, hok, hfail⟩ :=
      @regBuf_spec calls t bufs hbufs h.kernel h.polled rfl (s.regFlags_takeBufs bufs)
    have hreg : t.fsmFn calls .regBuf = t.fsmBuffed calls .regBuf := rfl
    have hinfo'' : (t.regBuf calls).2.stream.streamInfo = some { info with numBufs := bufs.length } := by
      rw [hinfo']
      simp [t, takeBufs, hinfo]
    change _ ∧ _ ∧ _
    simp only [show ({ s.takeBufs bufs with stream.state := .buffed } : StreamSlot) = t from rfl, hreg, fsmBuffed]
    rcases hr : t.regBuf calls with ⟨_ | _, u⟩
    · simp only [hr] at hok hfail hpolled hstate hinfo'' hch ⊢
      refine ⟨?_, ?_, hch⟩
      · simp only [false_eq_true, false_iff] at hok ⊢
        exact fun hs => hok ⟨hs.1, hs.2.1⟩
      · rw [rollback_of_buffed hstate, Clean.of_putBuf (by simp [hinfo'']) hpolled]
        exact hfail trivial
    · simp only [hr] at hok hfail hpolled hstate hinfo'' hch ⊢
      obtain ⟨htakes, hall⟩ := hok.mp trivial
      obtain ⟨hon, hclean, hch'⟩ :=
        @fsmFn_start_spec calls { u with stream.state := .reg } _ rfl hinfo''
      refine ⟨?_, ?_, hch'.trans hch⟩
      · rw [hon]
        simp only [StartCalls.startsOk, hbufs, some.injEq, length_eq_zero_iff]
        exact ⟨fun h => ⟨htakes, hall, h⟩, fun h => h.2.2⟩
      · simp only [hclean, true_iff]
        rintro ⟨-, -, i, hi, hq⟩
        rw [hall i hi] at hq
        cases hq

theorem rollback_eq (calls calls' : StartCalls) (s : StreamSlot) : s.rollback calls = s.rollback calls' := by
  cases h : s.stream.state with
  | notUsed | inited | acquired => simp [rollback, fsmFn, h]
  | cfg => rw [rollback_of_cfg h, rollback_of_cfg h]
  | buffed => rw [rollback_of_buffed h, rollback_of_buffed h]
  | reg => rw [rollback_of_reg h, rollback_of_reg h]
  | active => rw [rollback_of_active h, rollback_of_active h]

theorem rollback_chObj (calls : StartCalls) (s : StreamSlot) : (s.rollback calls).stream.chObj = s.stream.chObj := by
  cases h : s.stream.state with
  | notUsed | inited | acquired => simp [rollback, fsmFn, h]
  | cfg => rw [rollback_of_cfg h]
  | buffed => rw [rollback_of_buffed h]; rfl
  | reg => rw [rollback_of_reg h]; rfl
  | active => rw [rollback_of_active h]; rfl

end StreamSlot

end Marlin
