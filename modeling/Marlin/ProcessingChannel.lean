import Marlin.DeliveryOrder
import Marlin.StreamMem
import Marlin.Transition
import Mathlib.Tactic.NormNum

/-!
# The Order of a Processing Channel

The buffers of a `QCamera3ProcessingChannel` are queued to its stream in the order of their
requests, and come back in any order. `streamCbRoutine` returns them in order: a frame that comes
before an older one is held back in `mOutOfSequenceBuffers`, and the older one is cancelled.

Requests run in one thread, with the mutex of the HAL, and the callbacks of the stream in another
one. A request registers its buffer, marks it with its frame number and queues it, and a callback
can come at any of these points; `RequestPhase` is how far the request is. The turns of the loop
of `streamCbRoutine` are steps of their own.

## Conventions

* A super buffer has one buffer, whose index is one that the stream has.
* Of a cancelled buffer its frame number is kept.

## Main results

* `Invariant`, `Invariant.step`: what every run keeps in which the oldest frame number is found.
* `frames_in_order`: the frames are returned once each, in order.
* `failed_request_reorders`: a buffer that could not be queued hides the oldest frame number.
-/

open List Option DeliveryOrder Transition

namespace Marlin

/-- `mm_camera_super_buf_t` with its one buffer, and whether that is flagged as an error. -/
structure SuperBuf where
  bufIdx : ℕ
  error : Bool := false
  deriving DecidableEq

/-- A call of `mChannelCB`. -/
structure ChannelResult where
  frameNumber : ℤ
  error : Bool := false
  deriving DecidableEq

/-- The fields of `QCamera3ProcessingChannel` that order its frames, with the calls of `mChannelCB`
and the buffers that were cancelled. -/
structure ProcessingChannel where
  mMemory : StreamMem
  mPerFrameMapUnmapEnable : Bool := true
  constrainedHighSpeed : Bool := false
  mOutOfSequenceBuffers : List SuperBuf := []
  cancelled : List ℤ := []
  sent : List ChannelResult := []

/-- Where `streamCbRoutine` is: it is not called, it has a frame to look at, or it has returned a
frame and takes the next one of those that are held back. -/
inductive CallbackPhase
  | idle
  | look (b : SuperBuf)
  | next
  deriving DecidableEq

/-- Where a request is: there is none, its buffer is registered, or the buffer is marked. -/
inductive RequestPhase
  | idle
  | registered (buffer frameNumber : ℕ)
  | marked (index : ℕ)
  deriving DecidableEq

namespace ProcessingChannel

/-- The frame number of a buffer. -/
def frameNumber (c : ProcessingChannel) (index : ℕ) : ℤ := c.mMemory.getFrameNumber index

/-- `cancelBuffer`. -/
def cancelBuffer (c : ProcessingChannel) (index : ℕ) : ProcessingChannel :=
  { c with cancelled := c.cancelled ++ [c.frameNumber index] }

/-- A frame is inserted before the first one that is later, which gets the error flag. -/
def insertInOrder (number : ℕ → ℤ) (b : SuperBuf) : List SuperBuf → List SuperBuf
  | [] => [b]
  | b' :: bs =>
    if number b.bufIdx < number b'.bufIdx then b :: { b' with error := true } :: bs
    else b' :: insertInOrder number b bs

/-- A frame is returned, and its buffer is unregistered. -/
def deliver (c : ProcessingChannel) (b : SuperBuf) : ProcessingChannel :=
  let n := c.frameNumber b.bufIdx
  { c with
    mMemory := if c.mPerFrameMapUnmapEnable then c.mMemory.unregisterBuffer b.bufIdx
      else c.mMemory
    sent := if 0 ≤ n then c.sent ++ [⟨n, b.error⟩] else c.sent }

/-- The loop of `streamCbRoutine` up to the frame that is returned, or that is held back. -/
def lookAtFrame (c : ProcessingChannel) (b : SuperBuf) : CallbackPhase × ProcessingChannel :=
  let lowest := c.mMemory.getOldestFrameNumber
  if lowest.1 ≠ -1 ∧ lowest.1 < c.frameNumber b.bufIdx ∧ c.constrainedHighSpeed = false then
    let c := if c.mOutOfSequenceBuffers = [] then c.cancelBuffer lowest.2 else c
    let held := insertInOrder c.frameNumber b c.mOutOfSequenceBuffers
    (.idle, { c with mOutOfSequenceBuffers := held })
  else (if c.mOutOfSequenceBuffers = [] then .idle else .next, c.deliver b)

/-- The rest of the loop: the first frame that is held back is taken if it is the oldest. -/
def nextFrame (c : ProcessingChannel) : CallbackPhase × ProcessingChannel :=
  match c.mOutOfSequenceBuffers with
  | [] => (.idle, c)
  | b :: bs =>
    let lowest := c.mMemory.getOldestFrameNumber
    if lowest.1 ≠ -1 ∧ lowest.1 < c.frameNumber b.bufIdx then (.idle, c.cancelBuffer lowest.2)
    else (.look b, { c with mOutOfSequenceBuffers := bs })

end ProcessingChannel

/-! ### Events -/

/-- The events: a request with its buffer and its number, and whether a registration that it needs
succeeds; its end before the buffer is marked; the mark; the buffer is queued, or is not; a buffer
comes back; and the turns of the loop of `streamCbRoutine`. -/
inductive ChannelEvent
  | request (buffer frameNumber : ℕ) (registers : Bool)
  | abandon
  | mark
  | queue (succeeds : Bool)
  | arrive (index : ℕ) (error : Bool)
  | look
  | next
  deriving DecidableEq

/-- The channel, its request and its callback, the buffers that the stream has, the frames that
came back, and the number of the last request. -/
structure OrderState where
  channel : ProcessingChannel
  request : RequestPhase := .idle
  callback : CallbackPhase := .idle
  queued : List ℕ := []
  arrived : List ℤ := []
  last : ℤ := -1

namespace OrderState

/-- The frame number of a buffer. -/
def number (s : OrderState) (index : ℕ) : ℤ := s.channel.frameNumber index

/-- A frame number as an `int32_t`. -/
def int32 (frameNumber : ℕ) : ℤ := Int.bmod frameNumber (2 ^ 32)

/-- The channel with another memory. -/
def setMemory (s : OrderState) (m : StreamMem) : OrderState :=
  { s with channel := { s.channel with mMemory := m } }

/-- The framework owns the buffer: no request with it is outstanding. -/
def Owned (s : OrderState) (buffer : ℕ) : Prop :=
  ∀ i ∈ s.channel.mMemory.grallocIndices, ∀ b ∈ s.channel.mMemory.gralloc i, b.handle = buffer → b.frameNumber = -1
deriving Decidable

/-- A request up to its mark: its buffer is known, or is registered. -/
def begin (s : OrderState) (buffer frameNumber : ℕ) (registers : Bool) : OrderState :=
  let s := { s with last := frameNumber }
  match s.channel.mMemory.getMatchBufIndex buffer with
  | some _ => { s with request := .registered buffer frameNumber }
  | none =>
    let r := s.channel.mMemory.registerBuffer buffer
    if registers ∧ r.1 then
      { s.setMemory r.2 with request := .registered buffer frameNumber }
    else s

/-- `markFrameNumber` of a request. -/
def mark (s : OrderState) (buffer frameNumber : ℕ) : OrderState :=
  match s.channel.mMemory.getMatchBufIndex buffer with
  | none => { s with request := .idle }
  | some index =>
    let r := s.channel.mMemory.markFrameNumber index (int32 frameNumber)
    { s.setMemory r.2 with request := if r.1 then .marked index else .idle }

/-- `bufDone` of a request. A buffer that is not queued has no frame number. -/
def queue (s : OrderState) (index : ℕ) (succeeds : Bool) : OrderState :=
  if succeeds then { s with request := .idle, queued := s.queued ++ [index] }
  else { s.setMemory (s.channel.mMemory.markFrameNumber index (-1)).2 with request := .idle }

/-- A buffer comes back. -/
def arrive (s : OrderState) (index : ℕ) (error : Bool) : OrderState :=
  { s with
    callback := .look ⟨index, error⟩
    queued := s.queued.erase index
    arrived := s.arrived ++ [s.number index] }

/-- The events that can happen: requests come one after the other, with increasing numbers and
with buffers of the framework, and a queued buffer comes back once. -/
def step (s : OrderState) : ChannelEvent → Option OrderState
  | .request buffer frameNumber registers =>
    if s.request = .idle ∧ s.last < frameNumber ∧ s.Owned buffer then
      some (s.begin buffer frameNumber registers)
    else none
  | .abandon =>
    match s.request with
    | .registered _ _ => some { s with request := .idle }
    | _ => none
  | .mark =>
    match s.request with
    | .registered buffer frameNumber => some (s.mark buffer frameNumber)
    | _ => none
  | .queue succeeds =>
    match s.request with
    | .marked index => some (s.queue index succeeds)
    | _ => none
  | .arrive index error =>
    if s.callback = .idle ∧ index ∈ s.queued then some (s.arrive index error) else none
  | .look =>
    match s.callback with
    | .look b =>
      some { s with callback := (s.channel.lookAtFrame b).1, channel := (s.channel.lookAtFrame b).2 }
    | _ => none
  | .next =>
    match s.callback with
    | .next => some { s with callback := s.channel.nextFrame.1, channel := s.channel.nextFrame.2 }
    | _ => none

/-- A channel before its first request, not in constrained high speed mode and with buffers mapped
for each frame. -/
structure Initial (s : OrderState) : Prop where
  perFrame : s.channel.mPerFrameMapUnmapEnable = true
  highSpeed : s.channel.constrainedHighSpeed = false
  heap : s.channel.mMemory.heap = []
  gralloc : s.channel.mMemory.gralloc = fun _ => none
  held : s.channel.mOutOfSequenceBuffers = []
  sent : s.channel.sent = []
  request : s.request = .idle
  callback : s.callback = .idle
  queued : s.queued = []
  arrived : s.arrived = []
  last : s.last = -1

/-- The buffer that is looked at. -/
def current (s : OrderState) : List ℕ :=
  match s.callback with
  | .look b => [b.bufIdx]
  | _ => []

/-- The buffers that are held back. -/
def held (s : OrderState) : List ℕ := s.channel.mOutOfSequenceBuffers.map SuperBuf.bufIdx

/-- The oldest frame number is found, or the frame is the oldest one. It is not found where the
first registered buffer has no frame number. -/
def FindsOldest (s : OrderState) (index : ℕ) : Prop :=
  s.channel.mMemory.getOldestFrameNumber.1 = -1 → ∀ e ∈ s.channel.mMemory.registered, e.1 ≠ -1 → s.number index ≤ e.1
deriving Decidable

/-- The condition on an event: frame numbers are ones of an `int32_t`, and where the loop looks for
the oldest one it is found. -/
def Ordered (s : OrderState) : ChannelEvent → Prop
  | .request _ frameNumber _ => frameNumber < 2 ^ 31
  | .look => ∀ i ∈ s.current, s.FindsOldest i
  | .next => ∀ i ∈ s.held.take 1, s.FindsOldest i
  | _ => True

instance (s : OrderState) (e : ChannelEvent) : Decidable (s.Ordered e) := by
  cases e <;> (simp only [Ordered]; infer_instance)

/-! ### The invariant -/

/-- The buffer that is marked and not queued yet. -/
def marked (s : OrderState) : List ℕ :=
  match s.request with
  | .marked i => [i]
  | _ => []

/-- The buffers with a frame number. -/
def tracked (s : OrderState) : List ℕ := s.current ++ s.held ++ s.queued ++ s.marked

/-- The frames that were returned. -/
def delivered (s : OrderState) : List ℤ := s.channel.sent.map ChannelResult.frameNumber

/-- No frame is older. -/
def Oldest (s : OrderState) (i : ℕ) : Prop := ∀ j ∈ s.tracked, s.number i ≤ s.number j

/-- The oldest frame is with the stream and was cancelled. -/
def OldestCancelled (s : OrderState) : Prop :=
  ∃ i ∈ s.queued, s.Oldest i ∧ s.number i ∈ s.channel.cancelled

/-- What holds of a request that is under way. -/
def RequestInvariant (s : OrderState) : Prop :=
  match s.request with
  | .idle => True
  | .registered buffer frameNumber => frameNumber < 2 ^ 31 ∧ s.last = frameNumber ∧
      (∀ n ∈ s.tracked.map s.number ++ s.delivered, n < frameNumber) ∧
      ∀ i b, s.channel.mMemory.gralloc i = some b → b.handle = buffer → b.frameNumber = -1
  | .marked i => s.number i = s.last

/-- What holds of a callback that is under way: where frames are held back an older one was
cancelled, unless the frame that is looked at is the oldest. -/
def CallbackInvariant (s : OrderState) : Prop :=
  match s.callback with
  | .idle => s.held ≠ [] → s.OldestCancelled
  | .look b => s.held ≠ [] → s.Oldest b.bufIdx ∨ s.OldestCancelled
  | .next => True

/-- What every run keeps in which the oldest frame number is found. -/
structure Invariant (s : OrderState) : Prop where
  perFrame : s.channel.mPerFrameMapUnmapEnable = true
  highSpeed : s.channel.constrainedHighSpeed = false
  memory : s.channel.mMemory.WellNumbered
  tracked : ∀ i, s.number i ≠ -1 ↔ i ∈ s.tracked
  order : InOrder (s.current.map s.number) (s.held.map s.number) (s.queued.map s.number)
    (s.marked.map s.number) s.delivered s.arrived
  last : ∀ n ∈ s.tracked.map s.number ++ s.delivered, n ≤ s.last
  request : s.RequestInvariant
  callback : s.CallbackInvariant

theorem Initial.invariant {s : OrderState} (h : s.Initial) : s.Invariant := by
  have hnumber (i : ℕ) : s.number i = -1 := by
    simp [number, ProcessingChannel.frameNumber, StreamMem.getFrameNumber, h.heap, h.gralloc]
  have htracked : s.tracked = [] := by
    simp [OrderState.tracked, current, OrderState.held, marked, h.callback, h.held, h.queued, h.request]
  have hcurrent : s.current = [] := by simp [current, h.callback]
  have hheld : s.held = [] := by simp [OrderState.held, h.held]
  have hmarked : s.marked = [] := by simp [marked, h.request]
  have hdelivered : s.delivered = [] := by simp [delivered, h.sent]
  refine ⟨h.perFrame, h.highSpeed, ⟨h.heap, by simp [h.gralloc], by simp [h.gralloc]⟩, ?_, ?_, ?_, ?_, ?_⟩
  · simp [hnumber, htracked]
  · rw [hcurrent, hheld, hmarked, hdelivered, h.queued, h.arrived]
    exact ⟨by simp, by simp, by simp, by simp, by simp⟩
  · simp [htracked, hdelivered]
  · simp [RequestInvariant, h.request]
  · simp [CallbackInvariant, h.callback, hheld]

variable {s : OrderState}

theorem Invariant.distinct (h : s.Invariant) : (s.tracked.map s.number).Nodup := by
  have hdistinct := h.order.distinct
  rwa [← map_append, ← map_append, ← map_append] at hdistinct

/-- A buffer that the search finds is the one of the oldest frame. -/
theorem Invariant.found (h : s.Invariant) (hfound : s.channel.mMemory.getOldestFrameNumber.1 ≠ -1) :
    s.number s.channel.mMemory.getOldestFrameNumber.2 = s.channel.mMemory.getOldestFrameNumber.1 ∧
      s.channel.mMemory.getOldestFrameNumber.2 ∈ s.tracked ∧
      s.Oldest s.channel.mMemory.getOldestFrameNumber.2 := by
  obtain ⟨hmem, hle⟩ := StreamMem.getOldestFrameNumber_spec h.memory.heap h.memory.number hfound
  have hnumber : s.number s.channel.mMemory.getOldestFrameNumber.2 =
      s.channel.mMemory.getOldestFrameNumber.1 := StreamMem.number_of_registered hmem
  refine ⟨hnumber, (h.tracked _).mp (by rwa [hnumber]), fun j hj => ?_⟩
  rw [hnumber]
  have hj := (h.tracked j).mpr hj
  exact hle _ (h.memory.registered hj) hj

/-- A frame that is not held back is the oldest one. -/
theorem Invariant.oldest (h : s.Invariant) {i : ℕ} (hfinds : s.FindsOldest i)
    (hnot : ¬ (s.channel.mMemory.getOldestFrameNumber.1 ≠ -1 ∧
      s.channel.mMemory.getOldestFrameNumber.1 < s.number i)) : s.Oldest i := by
  intro j hj
  by_cases hfound : s.channel.mMemory.getOldestFrameNumber.1 = -1
  · have hj := (h.tracked j).mpr hj
    exact hfinds hfound _ (h.memory.registered hj) hj
  · obtain ⟨hnumber, -, hlowest⟩ := h.found hfound
    have hle := hlowest j hj
    have hnlt : ¬ s.channel.mMemory.getOldestFrameNumber.1 < s.number i :=
      fun hlt => hnot ⟨hfound, hlt⟩
    omega

theorem Invariant.le_marked (h : s.Invariant) {i j : ℕ} (hi : i ∈ s.marked) (hj : j ∈ s.tracked) :
    s.number j ≤ s.number i := by
  have hrequest := h.request
  rw [marked] at hi
  rw [RequestInvariant] at hrequest
  split at hi
  · rename_i k hk
    obtain rfl := mem_singleton.mp hi
    rw [hk] at hrequest
    dsimp only at hrequest
    rw [hrequest]
    exact h.last _ (mem_append_left _ (mem_map_of_mem hj))
  · cases hi

/-- The callback stays where it is, and the oldest frame stays the oldest. -/
theorem CallbackInvariant.keep {t : OrderState} (h : s.CallbackInvariant)
    (hphase : t.callback = s.callback) (hheld : t.held = s.held)
    (hcancelled : s.OldestCancelled → t.OldestCancelled)
    (holdest : ∀ b, s.callback = .look b → s.Oldest b.bufIdx → t.Oldest b.bufIdx) :
    t.CallbackInvariant := by
  rw [CallbackInvariant] at h ⊢
  rw [hphase, hheld]
  cases hcase : s.callback with
  | idle =>
    rw [hcase] at h
    exact fun hne => hcancelled (h hne)
  | look b =>
    rw [hcase] at h
    exact fun hne => (h hne).imp (holdest b hcase) hcancelled
  | next => trivial

/-- The request stays where it is, and no frame number is new. -/
theorem RequestInvariant.keep {t : OrderState} (h : s.RequestInvariant)
    (hphase : t.request = s.request) (hlast : t.last = s.last)
    (hnumbers : ∀ n ∈ t.tracked.map t.number ++ t.delivered, n ∈ s.tracked.map s.number ++ s.delivered)
    (hmemory : ∀ i b, t.channel.mMemory.gralloc i = some b → s.channel.mMemory.gralloc i = some b)
    (hmarked : ∀ i ∈ s.marked, t.number i = s.number i) : t.RequestInvariant := by
  rw [RequestInvariant] at h ⊢
  rw [hphase, hlast]
  cases hcase : s.request with
  | idle => trivial
  | registered buffer frameNumber =>
    rw [hcase] at h
    obtain ⟨hsmall, hl, hbelow, hfree⟩ := h
    exact ⟨hsmall, hl, fun n hn => hbelow n (hnumbers n hn), fun i b hb => hfree i b (hmemory i b hb)⟩
  | marked i =>
    rw [hcase] at h
    exact (hmarked i (by simp [marked, hcase])).trans h

/-! ### Requests -/

theorem Invariant.renumber (h : s.Invariant) {m : StreamMem} {r : RequestPhase} {l : ℤ}
    (hm : m.WellNumbered) (hnumber : ∀ i, m.getFrameNumber i = s.number i)
    (hmarked : marked { s with request := r } = s.marked) (hl : s.last ≤ l)
    (hr : RequestInvariant { s.setMemory m with request := r, last := l }) :
    Invariant { s.setMemory m with request := r, last := l } := by
  have hfun : number { s.setMemory m with request := r, last := l } = s.number := funext hnumber
  have htracked : OrderState.tracked { s.setMemory m with request := r, last := l } = s.tracked :=
    congrArg (s.current ++ s.held ++ s.queued ++ ·) hmarked
  have hmarked' : marked { s.setMemory m with request := r, last := l } = s.marked := hmarked
  refine ⟨h.perFrame, h.highSpeed, hm, ?_, ?_, ?_, hr, ?_⟩
  · rw [hfun, htracked]
    exact h.tracked
  · rw [hfun, hmarked']
    exact h.order
  · rw [hfun, htracked]
    exact fun n hn => le_trans (h.last n hn) hl
  · refine h.callback.keep rfl rfl ?_ ?_
    · rintro ⟨i, hi, hlowest, hmem⟩
      refine ⟨i, hi, ?_, hfun ▸ hmem⟩
      rwa [Oldest, hfun, htracked]
    · intro b _ hlowest
      rwa [Oldest, hfun, htracked]

theorem Invariant.begin (h : s.Invariant) {buffer frameNumber : ℕ} {registers : Bool}
    (hidle : s.request = .idle) (hlast : s.last < frameNumber) (howned : s.Owned buffer)
    (hsmall : frameNumber < 2 ^ 31) : (s.begin buffer frameNumber registers).Invariant := by
  have hmarked : s.marked = [] := by simp [marked, hidle]
  have hfree : ∀ i b, s.channel.mMemory.gralloc i = some b → b.handle = buffer →
      b.frameNumber = -1 := fun i b hb => howned i (h.memory.place i b hb) b hb
  have hbelow : ∀ n ∈ s.tracked.map s.number ++ s.delivered, n < frameNumber :=
    fun n hn => lt_of_le_of_lt (h.last n hn) hlast
  have hle : s.last ≤ frameNumber := le_of_lt hlast
  have hregistered {m : StreamMem} (hm : m.WellNumbered) (hnumber : ∀ i, m.getFrameNumber i = s.number i)
      (hbuffer : ∀ i b, m.gralloc i = some b → b.handle = buffer → b.frameNumber = -1) :
      Invariant { s.setMemory m with
        request := .registered buffer frameNumber, last := frameNumber } := by
    have hfun : number { s.setMemory m with
        request := .registered buffer frameNumber, last := frameNumber } = s.number :=
      funext hnumber
    have htracked : OrderState.tracked { s.setMemory m with
        request := .registered buffer frameNumber, last := frameNumber } = s.tracked :=
      congrArg (s.current ++ s.held ++ s.queued ++ ·) hmarked.symm
    refine h.renumber hm hnumber hmarked.symm hle ⟨hsmall, rfl, ?_, hbuffer⟩
    rw [hfun, htracked]
    exact hbelow
  rw [OrderState.begin]
  dsimp only
  split
  · exact hregistered h.memory (fun _ => rfl) hfree
  · split
    · rename_i hsucceeds
      obtain ⟨i, hi, hnone, heq⟩ := StreamMem.registerBuffer_true hsucceeds.2
      rw [heq]
      refine hregistered (h.memory.setBuffer hi ?_) (fun j => ?_) fun j b hb hhandle => ?_
      · intro b hb
        cases hb
        exact Int.le_refl _
      · rw [StreamMem.getFrameNumber_setBuffer hi]
        split
        · rename_i hj
          rw [hj, number, ProcessingChannel.frameNumber, StreamMem.getFrameNumber_gralloc hi, hnone]
          rfl
        · rfl
      · by_cases hj : j = i
        · rw [hj, StreamMem.setBuffer_self] at hb
          cases hb
          rfl
        · exact hfree j b ((StreamMem.setBuffer_of_ne hj _).symm.trans hb) hhandle
    · have hsame := h.renumber h.memory (fun _ => rfl) (r := s.request) rfl hle
      rw [hidle] at hsame
      have hstay : { s with request := .idle, last := (frameNumber : ℤ) } = { s with last := (frameNumber : ℤ) } := by
        rw [← hidle]
      exact hstay ▸ hsame trivial

theorem Invariant.giveUp (h : s.Invariant) (hmarked : s.marked = []) : Invariant { s with request := .idle } :=
  h.renumber (m := s.channel.mMemory) (r := .idle) (l := s.last) h.memory (fun _ => rfl) hmarked.symm le_rfl trivial

theorem number_setBuffer {i : ℕ} (hi : i ∈ s.channel.mMemory.grallocIndices) (b : Option GrallocBuffer) (j : ℕ) :
    (s.setMemory (s.channel.mMemory.setBuffer i b)).number j =
      if j = i then b.elim (-1) GrallocBuffer.frameNumber else s.number j :=
  StreamMem.getFrameNumber_setBuffer hi b j

theorem int32_eq {n : ℕ} (h : n < 2 ^ 31) : int32 n = n := by
  have hlt : n < 2147483648 := by simpa using h
  unfold int32
  apply Int.bmod_eq_of_le
  · norm_num
  · norm_num
    omega

/-- The mark of a request. -/
theorem Invariant.mark (h : s.Invariant) {buffer frameNumber : ℕ}
    (hreq : s.request = .registered buffer frameNumber) : (s.mark buffer frameNumber).Invariant := by
  have hmarked : s.marked = [] := by simp [marked, hreq]
  have hrequest := h.request
  rw [RequestInvariant, hreq] at hrequest
  obtain ⟨hsmall, hlast, hbelow, hfree⟩ := hrequest
  rw [OrderState.mark]
  split
  · exact h.giveUp hmarked
  · rename_i i hfind
    obtain ⟨hi, b, hb, hhandle⟩ := StreamMem.getMatchBufIndex_some hfind
    rw [StreamMem.markFrameNumber_eq hi hb, int32_eq hsmall]
    dsimp only
    rw [if_pos rfl]
    have hold : s.number i = -1 := by
      rw [number, ProcessingChannel.frameNumber, StreamMem.getFrameNumber_gralloc hi, hb, elim_some]
      exact hfree i b hb hhandle
    have hnew : i ∉ s.tracked := fun hmem => (h.tracked i).mpr hmem hold
    generalize ht : ({ s.setMemory (s.channel.mMemory.setBuffer i
      (some { b with frameNumber := (frameNumber : ℤ) })) with request := .marked i } : OrderState) = t
    have hnumber (j : ℕ) : t.number j = if j = i then (frameNumber : ℤ) else s.number j := by
      rw [← ht]
      exact number_setBuffer hi _ j
    have hself : t.number i = frameNumber := by rw [hnumber, if_pos rfl]
    have hother : ∀ j ∈ s.tracked, t.number j = s.number j := fun j hj => by
      have hne : j ≠ i := fun heq => hnew (heq ▸ hj)
      rw [hnumber, if_neg hne]
    have hsplit : s.tracked = s.current ++ s.held ++ s.queued := by
      rw [OrderState.tracked, hmarked, append_nil]
    have htracked : t.tracked = s.tracked ++ [i] := by rw [hsplit, ← ht]; rfl
    have hmap : s.tracked.map t.number = s.tracked.map s.number := map_congr_left hother
    have holdest : ∀ j ∈ s.tracked, s.Oldest j → t.Oldest j := by
      intro j hjt hlowest k hk
      rw [htracked] at hk
      rw [hother j hjt]
      rcases mem_append.mp hk with hk | hk
      · rw [hother k hk]
        exact hlowest k hk
      · obtain rfl := mem_singleton.mp hk
        rw [hself]
        exact le_of_lt (hbelow _ (mem_append_left _ (mem_map_of_mem hjt)))
    have hcurrent : t.current = s.current := by rw [← ht]; rfl
    have hheld : t.held = s.held := by rw [← ht]; rfl
    have hqueued : t.queued = s.queued := by rw [← ht]; rfl
    have hmarked' : t.marked = [i] := by rw [← ht]; rfl
    have hdelivered : t.delivered = s.delivered := by rw [← ht]; rfl
    have hlast' : t.last = s.last := by rw [← ht]; rfl
    have harrived : t.arrived = s.arrived := by rw [← ht]; rfl
    have hsub {l : List ℕ} (hl : ∀ j ∈ l, j ∈ s.tracked) : l.map t.number = l.map s.number :=
      map_congr_left fun j hj => hother j (hl j hj)
    have horder := h.order
    rw [hmarked] at horder
    refine ⟨?_, ?_, ?_, fun j => ?_, ?_, ?_, ?_, ?_⟩
    · rw [← ht]
      exact h.perFrame
    · rw [← ht]
      exact h.highSpeed
    · rw [← ht]
      refine h.memory.setBuffer hi fun b' hb' => ?_
      cases hb'
      change -1 ≤ (frameNumber : ℤ)
      omega
    · rw [htracked, hnumber, mem_append, mem_singleton]
      split
      · rename_i heq
        exact ⟨fun _ => .inr heq, fun _ => by omega⟩
      · rename_i hne
        exact (h.tracked j).trans ⟨.inl, fun hj => hj.resolve_right hne⟩
    · rw [hcurrent, hheld, hqueued, hmarked', hdelivered, harrived,
        hsub (l := s.current) (by simp +contextual [hsplit]),
        hsub (l := s.held) (by simp +contextual [hsplit]),
        hsub (l := s.queued) (by simp +contextual [hsplit]), map_singleton, hself]
      refine horder.mark (fun k hk => ?_) fun k hk => hbelow k (mem_append_right _ hk)
      rw [← map_append, ← map_append, ← hsplit] at hk
      exact hbelow k (mem_append_left _ hk)
    · rw [htracked, map_append, hmap, hdelivered, hlast']
      intro n hn
      simp only [mem_append, map_cons, map_nil, mem_singleton, hself] at hn
      rcases hn with (hn | hn) | hn
      · exact h.last n (mem_append_left _ hn)
      · omega
      · exact h.last n (mem_append_right _ hn)
    · have hphase : t.request = .marked i := by rw [← ht]
      rw [RequestInvariant, hphase]
      dsimp only
      rw [hself, hlast', hlast]
    · refine h.callback.keep (by rw [← ht]; rfl) hheld ?_ ?_
      · rintro ⟨j, hj, hlowest, hmem⟩
        have hjt : j ∈ s.tracked := by rw [hsplit]; exact mem_append_right _ hj
        refine ⟨j, hqueued ▸ hj, holdest j hjt hlowest, ?_⟩
        rw [hother j hjt, ← ht]
        exact hmem
      · intro b' hphase hlowest
        have hb' : b'.bufIdx ∈ s.tracked := by simp [hsplit, current, hphase]
        exact holdest _ hb' hlowest

/-- The marked buffer is queued. -/
theorem Invariant.queued (h : s.Invariant) {i : ℕ} (hreq : s.request = .marked i) :
    Invariant { s with request := .idle, queued := s.queued ++ [i] } := by
  have hmarked : s.marked = [i] := by simp [marked, hreq]
  have htracked : OrderState.tracked { s with request := .idle, queued := s.queued ++ [i] } = s.tracked := by
    simp [OrderState.tracked, current, OrderState.held, marked, hreq]
  have horder := h.order
  rw [hmarked] at horder
  refine ⟨h.perFrame, h.highSpeed, h.memory, ?_, ?_, ?_, trivial, ?_⟩
  · rw [htracked]
    exact h.tracked
  · change InOrder _ _ ((s.queued ++ [i]).map s.number) [] _ _
    rw [map_append]
    exact horder.queue
  · rw [htracked]
    exact h.last
  · refine h.callback.keep rfl rfl ?_ ?_
    · rintro ⟨j, hj, hlowest, hmem⟩
      refine ⟨j, mem_append_left _ hj, ?_, hmem⟩
      rwa [Oldest, htracked]
    · intro b _ hlowest
      rwa [Oldest, htracked]

/-- `t` has the frame numbers of `s`, except for one buffer, which has none any more. -/
structure Untracks (s t : OrderState) (i : ℕ) : Prop where
  number : ∀ j, t.number j = if j = i then -1 else s.number j
  tracked : s.tracked.Perm (i :: t.tracked)

section Untracks

variable {t : OrderState} {i j : ℕ} (h : s.Invariant) (hd : Untracks s t i)

include h hd

theorem Untracks.ne (hj : j ∈ t.tracked) : j ≠ i := by
  have hnodup : s.tracked.Nodup := List.Nodup.of_map _ h.distinct
  rw [hd.tracked.nodup_iff, nodup_cons] at hnodup
  exact fun heq => hnodup.1 (heq ▸ hj)

theorem Untracks.other (hj : j ∈ t.tracked) : t.number j = s.number j := by
  rw [hd.number, if_neg (hd.ne h hj)]

theorem Untracks.map_eq {l : List ℕ} (hl : ∀ j ∈ l, j ∈ t.tracked) : l.map t.number = l.map s.number :=
  map_congr_left fun j hj => hd.other h (hl j hj)

/-- The oldest frame stays the oldest. -/
theorem Untracks.oldest (hj : j ∈ t.tracked) (hlowest : s.Oldest j) : t.Oldest j := by
  intro k hk
  rw [hd.other h hj, hd.other h hk]
  exact hlowest k (hd.tracked.mem_iff.mpr (mem_cons_of_mem _ hk))

theorem Untracks.tracked_iff (j : ℕ) : t.number j ≠ -1 ↔ j ∈ t.tracked := by
  rw [hd.number]
  split
  · rename_i heq
    exact ⟨fun hne => absurd rfl hne, fun hj => absurd heq (hd.ne h hj)⟩
  · rename_i hne
    refine (h.tracked j).trans (hd.tracked.mem_iff.trans ?_)
    rw [mem_cons]
    exact ⟨fun hj => hj.resolve_left hne, .inr⟩

end Untracks

theorem Invariant.unmark (h : s.Invariant) {i : ℕ} (hreq : s.request = .marked i) :
    Invariant { s.setMemory (s.channel.mMemory.markFrameNumber i (-1)).2 with
      request := .idle } := by
  have hmarked : s.marked = [i] := by simp [marked, hreq]
  have hsplit : s.tracked = s.current ++ s.held ++ s.queued ++ [i] := by
    rw [OrderState.tracked, hmarked]
  have hin : i ∈ s.tracked := by simp [hsplit]
  obtain ⟨hi, b, hb, -⟩ := StreamMem.mem_registered.mp (h.memory.registered ((h.tracked i).mpr hin))
  rw [StreamMem.markFrameNumber_eq hi hb]
  generalize ht : ({ s.setMemory (s.channel.mMemory.setBuffer i
    (some { b with frameNumber := -1 })) with request := .idle } : OrderState) = t
  have htracked : t.tracked = s.current ++ s.held ++ s.queued := by
    rw [← ht]
    exact append_nil _
  have hd : Untracks s t i := by
    refine ⟨fun j => ?_, ?_⟩
    · rw [← ht]
      exact number_setBuffer hi _ j
    · rw [hsplit, htracked]
      exact perm_append_singleton _ _
  have hcurrent : t.current = s.current := by rw [← ht]; rfl
  have hheld : t.held = s.held := by rw [← ht]; rfl
  have hqueued : t.queued = s.queued := by rw [← ht]; rfl
  have hdelivered : t.delivered = s.delivered := by rw [← ht]; rfl
  have horder := h.order
  rw [hmarked] at horder
  refine ⟨?_, ?_, ?_, hd.tracked_iff h, ?_, ?_, ?_, ?_⟩
  · rw [← ht]
    exact h.perFrame
  · rw [← ht]
    exact h.highSpeed
  · rw [← ht]
    refine h.memory.setBuffer hi fun b' hb' => ?_
    cases hb'
    exact Int.le_refl _
  · have hmarked' : t.marked = [] := by rw [← ht]; rfl
    have harrived : t.arrived = s.arrived := by rw [← ht]; rfl
    rw [hcurrent, hheld, hqueued, hmarked', hdelivered, harrived,
      hd.map_eq h (l := s.current) (by simp +contextual [htracked]),
      hd.map_eq h (l := s.held) (by simp +contextual [htracked]),
      hd.map_eq h (l := s.queued) (by simp +contextual [htracked])]
    exact horder.unmark
  · rw [hd.map_eq h (l := t.tracked) fun _ hj => hj, hdelivered]
    have hlast : t.last = s.last := by rw [← ht]; rfl
    rw [hlast]
    intro n hn
    rcases mem_append.mp hn with hn | hn
    · obtain ⟨j, hj, rfl⟩ := mem_map.mp hn
      have hjs : j ∈ s.tracked := hd.tracked.mem_iff.mpr (mem_cons_of_mem _ hj)
      exact h.last _ (mem_append_left _ (mem_map_of_mem hjs))
    · exact h.last n (mem_append_right _ hn)
  · rw [← ht]
    trivial
  · refine h.callback.keep (by rw [← ht]; rfl) hheld ?_ ?_
    · rintro ⟨j, hj, hlowest, hmem⟩
      have hjt : j ∈ t.tracked := by rw [htracked]; exact mem_append_right _ hj
      refine ⟨j, hqueued ▸ hj, hd.oldest h hjt hlowest, ?_⟩
      rw [hd.other h hjt, ← ht]
      exact hmem
    · intro b' hphase hlowest
      have hb' : b'.bufIdx ∈ t.tracked := by simp [htracked, current, hphase]
      exact hd.oldest h hb' hlowest

/-! ### Callbacks -/

theorem Invariant.arrive (h : s.Invariant) {i : ℕ} (hidle : s.callback = .idle)
    (hi : i ∈ s.queued) (error : Bool) : (s.arrive i error).Invariant := by
  have hcurrent : s.current = [] := by simp [current, hidle]
  have htracked : (s.arrive i error).tracked.Perm s.tracked := by
    have hsplit : (i :: (s.held ++ s.queued.erase i)).Perm (s.held ++ s.queued) :=
      perm_middle.symm.trans (List.Perm.append_left _ (perm_cons_erase hi).symm)
    rw [OrderState.tracked, OrderState.tracked, hcurrent]
    exact List.Perm.append_right _ hsplit
  have horder := h.order
  rw [hcurrent] at horder
  have holdest {j : ℕ} (hlowest : s.Oldest j) : (s.arrive i error).Oldest j :=
    fun k hk => hlowest k (htracked.mem_iff.mp hk)
  have hnumbers : ∀ n ∈ (s.arrive i error).tracked.map s.number ++ s.delivered,
      n ∈ s.tracked.map s.number ++ s.delivered :=
    fun n hn => (List.Perm.append_right _ (htracked.map _)).mem_iff.mp hn
  refine ⟨h.perFrame, h.highSpeed, h.memory, fun j => ?_, ?_, fun n hn => ?_, ?_, ?_⟩
  · exact (h.tracked j).trans htracked.mem_iff.symm
  · change InOrder [s.number i] _ ((s.queued.erase i).map s.number) _ _ (s.arrived ++ [s.number i])
    exact horder.arrive ((perm_cons_erase hi).map s.number)
  · exact h.last n (hnumbers n hn)
  · exact h.request.keep rfl rfl hnumbers (fun _ _ hb => hb) fun _ _ => rfl
  · intro hne
    have hcallback := h.callback
    rw [CallbackInvariant, hidle] at hcallback
    obtain ⟨j, hj, hlowest, hmem⟩ := hcallback hne
    by_cases heq : j = i
    · exact .inl (heq ▸ holdest hlowest)
    · exact .inr ⟨j, (mem_erase_of_ne heq).mpr hj, holdest hlowest, hmem⟩

theorem Invariant.found_queued (h : s.Invariant) {n : ℤ} (hfound : s.channel.mMemory.getOldestFrameNumber.1 ≠ -1)
    (hlt : s.channel.mMemory.getOldestFrameNumber.1 < n) {i : ℕ} (hi : i ∈ s.tracked)
    (hin : s.number i = n) (hcame : ∀ j ∈ s.current ++ s.held, n ≤ s.number j) :
    s.channel.mMemory.getOldestFrameNumber.2 ∈ s.queued := by
  obtain ⟨hnumber, hmem, -⟩ := h.found hfound
  rw [OrderState.tracked, mem_append, mem_append] at hmem
  rcases hmem with (hmem | hmem) | hmem
  · have hle := hcame _ hmem
    omega
  · exact hmem
  · have hle := h.le_marked hmem hi
    omega

theorem insertInOrder_perm (f : ℕ → ℤ) (b : SuperBuf) (l : List SuperBuf) :
    ((ProcessingChannel.insertInOrder f b l).map SuperBuf.bufIdx).Perm (b.bufIdx :: l.map SuperBuf.bufIdx) := by
  induction l with
  | nil => exact List.Perm.refl _
  | cons b' l ih =>
    rw [ProcessingChannel.insertInOrder]
    split
    · exact List.Perm.refl _
    · exact (ih.cons _).trans (List.Perm.swap _ _ _)

theorem insertInOrder_numbers (f : ℕ → ℤ) (b : SuperBuf) (l : List SuperBuf) :
    ((ProcessingChannel.insertInOrder f b l).map SuperBuf.bufIdx).map f =
      ((l.map SuperBuf.bufIdx).map f).orderedInsert (· < ·) (f b.bufIdx) := by
  induction l with
  | nil => rfl
  | cons b' l ih =>
    rw [ProcessingChannel.insertInOrder, map_cons, map_cons, orderedInsert_cons]
    split
    · rfl
    · rw [map_cons, map_cons, ih]

theorem Invariant.hold (h : s.Invariant) {b : SuperBuf} (hlook : s.callback = .look b)
    (hfound : s.channel.mMemory.getOldestFrameNumber.1 ≠ -1)
    (hlt : s.channel.mMemory.getOldestFrameNumber.1 < s.number b.bufIdx) {c : ProcessingChannel}
    (hc : c = { s.channel with
      mOutOfSequenceBuffers :=
        ProcessingChannel.insertInOrder s.number b s.channel.mOutOfSequenceBuffers
      cancelled := if s.channel.mOutOfSequenceBuffers = [] then
        s.channel.cancelled ++ [s.number s.channel.mMemory.getOldestFrameNumber.2]
        else s.channel.cancelled }) :
    Invariant { s with callback := .idle, channel := c } := by
  have hcurrent : s.current = [b.bufIdx] := by simp [current, hlook]
  generalize ht : ({ s with callback := .idle, channel := c } : OrderState) = t
  have hnumber : t.number = s.number := by rw [← ht, hc]; rfl
  have hheld : t.held = (ProcessingChannel.insertInOrder s.number b
      s.channel.mOutOfSequenceBuffers).map SuperBuf.bufIdx := by rw [← ht, hc]; rfl
  have htcurrent : t.current = [] := by rw [← ht]; rfl
  have hmarked : t.marked = s.marked := by rw [← ht]; rfl
  have hqueued : t.queued = s.queued := by rw [← ht]
  have hdelivered : t.delivered = s.delivered := by rw [← ht, hc]; rfl
  have harrived : t.arrived = s.arrived := by rw [← ht]
  have hlast : t.last = s.last := by rw [← ht]
  have htracked : t.tracked.Perm s.tracked := by
    rw [OrderState.tracked, OrderState.tracked, htcurrent, hheld, hcurrent, hmarked, hqueued]
    exact List.Perm.append_right _ (List.Perm.append_right _ (insertInOrder_perm _ b _))
  have hnumbers : ∀ n ∈ t.tracked.map t.number ++ t.delivered, n ∈ s.tracked.map s.number ++ s.delivered := by
    rw [hnumber, hdelivered]
    exact fun n hn => (List.Perm.append_right _ (htracked.map _)).mem_iff.mp hn
  have holdest {j : ℕ} (hlowest : s.Oldest j) : t.Oldest j := by
    rw [Oldest, hnumber]
    exact fun k hk => hlowest k (htracked.mem_iff.mp hk)
  have hin : b.bufIdx ∈ s.tracked := by simp [OrderState.tracked, hcurrent]
  obtain ⟨hfirst, hmem, hlowest⟩ := h.found hfound
  have horder := h.order
  rw [hcurrent] at horder
  refine ⟨?_, ?_, ?_, fun j => ?_, ?_, fun n hn => ?_, ?_, ?_⟩
  · rw [← ht, hc]
    exact h.perFrame
  · rw [← ht, hc]
    exact h.highSpeed
  · rw [← ht, hc]
    exact h.memory
  · rw [hnumber]
    exact (h.tracked j).trans htracked.mem_iff.symm
  · rw [htcurrent, hheld, hnumber, insertInOrder_numbers, hqueued, hmarked, hdelivered, harrived]
    exact horder.hold
  · rw [hlast]
    exact h.last n (hnumbers n hn)
  · refine h.request.keep (by rw [← ht]) hlast hnumbers (fun i b' hb' => ?_) fun i _ => by
      rw [hnumber]
    rw [← ht, hc] at hb'
    exact hb'
  · have hphase : t.callback = .idle := by rw [← ht]
    rw [CallbackInvariant, hphase]
    intro _
    by_cases hnil : s.channel.mOutOfSequenceBuffers = []
    · have hsheld : s.held = [] := by rw [held, hnil]; rfl
      have hcame : ∀ j ∈ s.current ++ s.held, s.number b.bufIdx ≤ s.number j := by
        rw [hcurrent, hsheld]
        rintro j hj
        obtain rfl := mem_singleton.mp hj
        exact le_rfl
      refine ⟨_, hqueued ▸ h.found_queued hfound hlt hin rfl hcame, holdest hlowest, ?_⟩
      rw [hnumber, ← ht, hc, if_pos hnil]
      exact mem_append_right _ (mem_singleton_self _)
    · have hcallback := h.callback
      rw [CallbackInvariant, hlook] at hcallback
      have hne : s.held ≠ [] := fun heq => hnil (map_eq_nil_iff.mp heq)
      rcases hcallback hne with hb | ⟨j, hj, hjlow, hjmem⟩
      · have hle := hb _ hmem
        omega
      · refine ⟨j, hqueued ▸ hj, holdest hjlow, ?_⟩
        rw [hnumber, ← ht, hc, if_neg hnil]
        exact hjmem

theorem Invariant.deliver (h : s.Invariant) {b : SuperBuf} (hlook : s.callback = .look b)
    (hlowest : s.Oldest b.bufIdx) {r : CallbackPhase}
    (hr : r = if s.channel.mOutOfSequenceBuffers = [] then .idle else .next) :
    Invariant { s with callback := r, channel := s.channel.deliver b } := by
  have hcurrent : s.current = [b.bufIdx] := by simp [current, hlook]
  have hin : b.bufIdx ∈ s.tracked := by simp [OrderState.tracked, hcurrent]
  have hmarkednumber := (h.tracked _).mpr hin
  have hi : b.bufIdx ∈ s.channel.mMemory.grallocIndices := h.memory.place_of_number hmarkednumber
  have hpos : 0 ≤ s.channel.frameNumber b.bufIdx := h.memory.nonneg hmarkednumber
  have hc : s.channel.deliver b = { s.channel with
      mMemory := s.channel.mMemory.setBuffer b.bufIdx none
      sent := s.channel.sent ++ [⟨s.number b.bufIdx, b.error⟩] } := by
    rw [ProcessingChannel.deliver, if_pos h.perFrame, if_pos hpos, StreamMem.unregisterBuffer_eq hi]
    rfl
  rw [hc]
  generalize ht : ({ s with
    callback := r
    channel := { s.channel with
      mMemory := s.channel.mMemory.setBuffer b.bufIdx none
      sent := s.channel.sent ++ [⟨s.number b.bufIdx, b.error⟩] } } : OrderState) = t
  have htcurrent : t.current = [] := by
    rw [← ht, current, hr]
    split
    · rename_i heq
      split at heq <;> cases heq
    · rfl
  have hheld : t.held = s.held := by rw [← ht]; rfl
  have hmarked : t.marked = s.marked := by rw [← ht]; rfl
  have hqueued : t.queued = s.queued := by rw [← ht]
  have hdelivered : t.delivered = s.delivered ++ [s.number b.bufIdx] := by
    rw [← ht]
    exact map_append
  have harrived : t.arrived = s.arrived := by rw [← ht]
  have hlast : t.last = s.last := by rw [← ht]
  have hsplit : s.tracked = b.bufIdx :: t.tracked := by
    rw [OrderState.tracked, OrderState.tracked, htcurrent, hheld, hcurrent, hmarked, hqueued]
    rfl
  have hd : Untracks s t b.bufIdx := by
    refine ⟨fun j => ?_, ?_⟩
    · rw [← ht]
      exact number_setBuffer hi none j
    · rw [hsplit]
  have hnumbers : ∀ n ∈ t.tracked.map t.number ++ t.delivered, n ∈ s.tracked.map s.number ++ s.delivered := by
    rw [hd.map_eq h (l := t.tracked) fun _ hj => hj, hdelivered, hsplit]
    intro n hn
    simp only [mem_append, map_cons, mem_cons, not_mem_nil, or_false] at hn ⊢
    tauto
  have horder := h.order
  rw [hcurrent] at horder
  have htracked : t.tracked = s.held ++ s.queued ++ s.marked := by
    rw [OrderState.tracked, htcurrent, hheld, hmarked, hqueued]
    rfl
  refine ⟨?_, ?_, ?_, hd.tracked_iff h, ?_, fun n hn => ?_, ?_, ?_⟩
  · rw [← ht]
    exact h.perFrame
  · rw [← ht]
    exact h.highSpeed
  · rw [← ht]
    exact h.memory.setBuffer hi fun _ hb => nomatch hb
  · rw [htcurrent, hheld, hqueued, hmarked, hdelivered, harrived,
      hd.map_eq h (l := s.held) (by simp +contextual [htracked]),
      hd.map_eq h (l := s.queued) (by simp +contextual [htracked]),
      hd.map_eq h (l := s.marked) (by simp +contextual [htracked])]
    refine horder.deliver fun k hk => ?_
    rw [← map_append, ← map_append, ← htracked] at hk
    obtain ⟨j, hj, rfl⟩ := mem_map.mp hk
    exact hlowest j (hsplit ▸ mem_cons_of_mem _ hj)
  · rw [hlast]
    exact h.last n (hnumbers n hn)
  · refine h.request.keep (by rw [← ht]) hlast hnumbers (fun i b' hb' => ?_) fun i hi' => ?_
    · rw [← ht] at hb'
      by_cases heq : i = b.bufIdx
      · rw [heq] at hb'
        exact nomatch (StreamMem.setBuffer_self _ _).symm.trans hb'
      · exact (StreamMem.setBuffer_of_ne heq _).symm.trans hb'
    · exact hd.other h (by rw [htracked]; exact mem_append_right _ hi')
  · have hphase : t.callback = r := by rw [← ht]
    rw [CallbackInvariant, hphase, hr, hheld]
    by_cases hnil : s.channel.mOutOfSequenceBuffers = []
    · rw [if_pos hnil]
      intro hnot
      exact absurd (show s.held = [] by rw [held, hnil]; rfl) hnot
    · rw [if_neg hnil]
      trivial

theorem Invariant.look (h : s.Invariant) {b : SuperBuf} (hlook : s.callback = .look b)
    (hfinds : s.FindsOldest b.bufIdx) : Invariant { s with
      callback := (s.channel.lookAtFrame b).1
      channel := (s.channel.lookAtFrame b).2 } := by
  rw [ProcessingChannel.lookAtFrame]
  dsimp only
  split
  · rename_i hlower
    refine h.hold hlook hlower.1 hlower.2.1 ?_
    split <;> rfl
  · rename_i hnot
    refine h.deliver hlook (h.oldest hfinds fun hlower => hnot ?_) rfl
    exact ⟨hlower.1, hlower.2, h.highSpeed⟩

theorem Invariant.next (h : s.Invariant) (hnext : s.callback = .next) (hfinds : ∀ i ∈ s.held.take 1, s.FindsOldest i) :
    Invariant { s with callback := s.channel.nextFrame.1, channel := s.channel.nextFrame.2 } := by
  have hcurrent : s.current = [] := by simp [current, hnext]
  have horder := h.order
  rw [hcurrent] at horder
  rw [ProcessingChannel.nextFrame]
  split
  · rename_i hnil
    have hheld : s.held = [] := by rw [held, hnil]; rfl
    have htracked : OrderState.tracked { s with callback := .idle } = s.tracked := by
      rw [OrderState.tracked, OrderState.tracked, hcurrent]
      rfl
    refine ⟨h.perFrame, h.highSpeed, h.memory, ?_, horder, ?_, ?_, fun hne => absurd hheld hne⟩
    · rw [htracked]
      exact h.tracked
    · rw [htracked]
      exact h.last
    · exact h.request.keep rfl rfl (by rw [htracked]; exact fun _ hn => hn) (fun _ _ hb => hb) fun _ _ => rfl
  · rename_i b bs hcons
    have hheld : s.held = b.bufIdx :: bs.map SuperBuf.bufIdx := by rw [held, hcons]; rfl
    have hin : b.bufIdx ∈ s.tracked := by simp [OrderState.tracked, hheld]
    dsimp only
    split
    · rename_i hlower
      obtain ⟨hfirst, hmem, hlowest⟩ := h.found hlower.1
      have htracked : OrderState.tracked { s with
          callback := .idle
          channel := s.channel.cancelBuffer s.channel.mMemory.getOldestFrameNumber.2 } =
          s.tracked := by
        rw [OrderState.tracked, OrderState.tracked, hcurrent]
        rfl
      refine ⟨h.perFrame, h.highSpeed, h.memory, ?_, horder, ?_, ?_, fun _ => ?_⟩
      · rw [htracked]
        exact h.tracked
      · rw [htracked]
        exact h.last
      · exact h.request.keep rfl rfl (by rw [htracked]; exact fun _ hn => hn) (fun _ _ hb => hb) fun _ _ => rfl
      · refine ⟨_, h.found_queued hlower.1 hlower.2 hin rfl (fun j hj => ?_), ?_,
          mem_append_right _ (mem_singleton_self _)⟩
        · rw [hcurrent, hheld, nil_append] at hj
          have hsorted := horder.sorted
          rw [hheld, map_cons, pairwise_cons] at hsorted
          rcases mem_cons.mp hj with rfl | hj
          · exact le_rfl
          · exact le_of_lt (hsorted.1 _ (mem_map_of_mem hj))
        · rw [Oldest, htracked]
          exact hlowest
    · rename_i hnot
      have hlowest := h.oldest (hfinds b.bufIdx (by simp [hheld])) hnot
      have htracked : OrderState.tracked { s with
          callback := .look b
          channel := { s.channel with mOutOfSequenceBuffers := bs } } = s.tracked := by
        rw [OrderState.tracked, OrderState.tracked, hcurrent, hheld]
        rfl
      rw [hheld] at horder
      refine ⟨h.perFrame, h.highSpeed, h.memory, ?_, horder.take, ?_, ?_, fun _ => .inl ?_⟩
      · rw [htracked]
        exact h.tracked
      · rw [htracked]
        exact h.last
      · exact h.request.keep rfl rfl (by rw [htracked]; exact fun _ hn => hn) (fun _ _ hb => hb) fun _ _ => rfl
      · rw [Oldest, htracked]
        exact hlowest

/-- **One event keeps the order**, if it meets the condition. -/
theorem Invariant.step (h : s.Invariant) {e : ChannelEvent} {t : OrderState} (hg : s.Ordered e)
    (hstep : s.step e = some t) : t.Invariant := by
  cases e with
  | request buffer frameNumber registers =>
    simp only [OrderState.step, ite_none_right_eq_some, some.injEq] at hstep
    obtain ⟨⟨hidle, hlast, howned⟩, rfl⟩ := hstep
    exact h.begin hidle hlast howned hg
  | abandon =>
    rw [OrderState.step] at hstep
    split at hstep
    · rename_i hreq
      cases hstep
      exact h.giveUp (by simp [marked, hreq])
    · cases hstep
  | mark =>
    rw [OrderState.step] at hstep
    split at hstep
    · rename_i hreq
      cases hstep
      exact h.mark hreq
    · cases hstep
  | queue succeeds =>
    rw [OrderState.step] at hstep
    split at hstep
    · rename_i hreq
      cases hstep
      rw [OrderState.queue]
      split
      · exact h.queued hreq
      · exact h.unmark hreq
    · cases hstep
  | arrive index error =>
    simp only [OrderState.step, ite_none_right_eq_some, some.injEq] at hstep
    obtain ⟨⟨hidle, hi⟩, rfl⟩ := hstep
    exact h.arrive hidle hi error
  | look =>
    rw [OrderState.step] at hstep
    split at hstep
    · rename_i hlook
      cases hstep
      exact h.look hlook (hg _ (by simp [current, hlook]))
    · cases hstep
  | next =>
    rw [OrderState.step] at hstep
    split at hstep
    · rename_i hnext
      cases hstep
      exact h.next hnext hg
    · cases hstep

/-! ### Every run -/

/-- The frames are returned in order and once each: one that came back was returned or is held
back, in order; where frames are held back an older one was cancelled; and where no buffer is with
the stream all were returned. -/
structure Delivers (s : OrderState) : Prop where
  increasing : s.delivered.Pairwise (· < ·)
  once : (s.delivered ++ (s.current ++ s.held).map s.number).Perm s.arrived
  sorted : (s.held.map s.number).Pairwise (· < ·)
  cancelled : s.callback = .idle → s.held ≠ [] → ∃ i ∈ s.queued,
    (∀ j ∈ s.held ++ s.queued, s.number i ≤ s.number j) ∧ s.number i ∈ s.channel.cancelled
  complete : s.callback = .idle → s.queued = [] → s.delivered.Perm s.arrived

theorem Invariant.delivers (h : s.Invariant) : s.Delivers := by
  have horder := h.order
  have hcancelled : s.callback = .idle → s.held ≠ [] → s.OldestCancelled := by
    intro hidle
    have hcallback := h.callback
    rwa [CallbackInvariant, hidle] at hcallback
  refine ⟨horder.increasing, ?_, horder.sorted, fun hidle hne => ?_, fun hidle hnil => ?_⟩
  · rw [map_append]
    exact horder.arrived
  · obtain ⟨i, hi, hlowest, hmem⟩ := hcancelled hidle hne
    refine ⟨i, hi, fun j hj => hlowest j ?_, hmem⟩
    rw [OrderState.tracked, append_assoc s.current]
    exact mem_append_left _ (mem_append_right _ hj)
  · have hheld : s.held = [] := by
      by_contra hne
      obtain ⟨i, hi, -⟩ := hcancelled hidle hne
      rw [hnil] at hi
      cases hi
    have hcurrent : s.current = [] := by simp [current, hidle]
    rw [hheld, hcurrent] at horder
    exact horder.complete

/-- **The frames of a processing channel are returned in order**, in every run of requests, failing
ones among them, and callbacks in which the search for the oldest frame number finds it. -/
theorem frames_in_order {s t : OrderState} {es : List ChannelEvent} (hs : s.Initial)
    (h : Run (guarded Ordered (fires step)) s es t) : t.Delivers := by
  have hinv : t.Invariant :=
    h.invariant (fun _ _ _ hinv hstep => hinv.step hstep.1 hstep.2) hs.invariant
  exact hinv.delivers

/-- A channel whose first indices are for three buffers on the heap. -/
def fresh : OrderState where
  channel := { mMemory := { mMaxHeapBuffers := 3 } }

theorem fresh_initial : fresh.Initial := ⟨rfl, rfl, rfl, rfl, rfl, rfl, rfl, rfl, rfl, rfl, rfl⟩

/-- A request whose buffer is queued, or is not. -/
def requestEvents (buffer frameNumber : ℕ) (succeeds : Bool) : List ChannelEvent :=
  [.request buffer frameNumber true, .mark, .queue succeeds]

/-- Two frames come back in the wrong order, and are returned in the right one. -/
theorem frames_in_order_two : fresh.Initial ∧ ∃ t, Run (guarded Ordered (fires step)) fresh
    (requestEvents 11 1 true ++ requestEvents 12 2 true ++
      [.arrive 4 false, .look, .arrive 3 true, .look, .next, .look]) t ∧
    t.Delivers ∧ t.delivered = [1, 2] :=
  ⟨fresh_initial, (exists_run (by decide +kernel)).imp fun _ h =>
    ⟨h.1, frames_in_order fresh_initial h.1, h.2⟩⟩

/-- A buffer that could not be queued stays registered at the first index, without a frame number.
Of two frames that come back in the wrong order the later one is then returned at once. -/
theorem failed_request_reorders : fresh.Initial ∧ ∃ es t, Run (fires step) fresh es t ∧
    t.delivered = [3, 2] ∧ ¬ t.Delivers := by
  refine ⟨fresh_initial, requestEvents 11 1 false ++ requestEvents 12 2 true ++ requestEvents 13 3 true ++
    [.arrive 5 false, .look, .arrive 4 false, .look], (exists_run_fires (by decide +kernel)).imp
    fun t h => ⟨h.1, h.2, fun hdelivers => ?_⟩⟩
  have hincreasing := hdelivers.increasing
  rw [h.2] at hincreasing
  simp at hincreasing

end OrderState

end Marlin
