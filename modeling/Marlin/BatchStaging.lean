import Marlin.BatchMetadata

/-!
# Staging the Buffers of a Batch

In batch mode the video stream does not queue its buffers one by one: `aggregateBufToBatch` stages
each in a container, and `queueBatchBuf` queues the container. `QCamera3HardwareInterface` counts
the video buffers in a counter of its own, `mToBeQueuedVidBufs`, and has the container queued when
the counter is `mBatchSize`.

The counter goes on also when the channel does not take the buffer; it is reset by a request
without video buffer, and when the settings are queued, which a failed `queueBatchBuf` does not
prevent and a request that fails after it does.

## Conventions

* What comes before `aggregateBufToBatch` in the request to the video channel is one answer.
* A staged buffer is named by the frame number that it was marked with.

## Main results

* `staged_counted`: while the guard holds, the counter is the number of the staged buffers and the
  batch is not full, and the containers that were queued are full and have the buffers in order.
-/

open List Function Transition Outcome

namespace Marlin

open HardwareInterface

/-- The container of a batch: `user_buf` of its `mm_camera_buf_def_t`. -/
structure BatchContainer where
  numBuffers : ℕ
  bufIdx : ℕ → ℕ := fun _ => 0

/-- The video stream: `QCamera3Stream`, with the buffers of each container that was queued. -/
structure VideoStream where
  mBatchSize : ℕ
  mCurrentBatchBufDef : Option BatchContainer := none
  mBufsStaged : ℕ := 0
  queued : List (List ℕ) := []

/-- The answers to the calls of a request to the video channel and of `queueBatchBuf`: whether
what comes before `aggregateBufToBatch` succeeds, whether a container is free, and whether `qbuf`
takes the container. -/
structure VideoCalls where
  prepared : Bool := true
  container : Bool := true
  qbuf : Bool := true
  deriving DecidableEq

namespace VideoStream

/-- `aggregateBufToBatch`, with a container: whether it takes the buffer. -/
def stage (s : VideoStream) (c : BatchContainer) (frameNumber : ℕ) : Bool × VideoStream :=
  if s.mBufsStaged = c.numBuffers then (false, { s with mCurrentBatchBufDef := some c })
  else
    (true, { s with
      mCurrentBatchBufDef :=
        some { c with bufIdx := Function.update c.bufIdx s.mBufsStaged frameNumber }
      mBufsStaged := s.mBufsStaged + 1 })

/-- `aggregateBufToBatch`: whether it takes the buffer. -/
def aggregateBufToBatch (s : VideoStream) (container : Bool) (frameNumber : ℕ) : Bool × VideoStream :=
  match s.mCurrentBatchBufDef with
  | some c => s.stage c frameNumber
  | none => if container then s.stage { numBuffers := s.mBatchSize } frameNumber else (false, s)

/-- The request to the video channel: whether it takes the buffer. -/
def request (s : VideoStream) (calls : VideoCalls) (frameNumber : ℕ) : Bool × VideoStream :=
  if calls.prepared then
    if s.mBatchSize = 0 then (calls.qbuf, s)
    else s.aggregateBufToBatch calls.container frameNumber
  else (false, s)

/-- `queueBatchBuf`. -/
def queueBatchBuf (s : VideoStream) (calls : VideoCalls) : VideoStream :=
  match s.mCurrentBatchBufDef with
  | none => s
  | some c =>
    if calls.qbuf then
      { s with
        mCurrentBatchBufDef := none
        mBufsStaged := 0
        queued := s.queued ++ [(List.range s.mBufsStaged).map c.bufIdx] }
    else s

/-- The buffers that are staged. -/
def staged (s : VideoStream) : List ℕ :=
  s.mCurrentBatchBufDef.elim [] fun c => (List.range s.mBufsStaged).map c.bufIdx

end VideoStream

/-- The HAL with the video stream, and the frames for which the video channel was asked. -/
structure StagedHal where
  hal : HardwareInterface
  stream : VideoStream
  asked : List ℕ := []

/-- The exit of a section, with the state. -/
abbrev StagedSection (α : Type) := Except (RequestExit × StagedHal) α

namespace StagedHal

/-- A section of the HAL. -/
def lift (s : StagedHal) : Section → StagedSection StagedHal
  | .ok hal => .ok { s with hal := hal }
  | .error r => .error (r.1, { s with hal := r.2 })

/-- The video buffer is counted, and the container is queued when it is full. -/
def countVideoBuffer (s : StagedHal) (video : VideoCalls) (o : CaptureOutput) : StagedHal :=
  let hal := s.hal.countVideoBuffer o
  if o.kind = .other ∧ o.isVideo ∧ hal.mBatchSize ≠ 0 ∧ hal.mToBeQueuedVidBufs = hal.mBatchSize then
    { s with hal := hal, stream := s.stream.queueBatchBuf video }
  else { s with hal := hal }

/-- The request to the channel of an output: its answer. -/
def channelRequest (s : StagedHal) (calls : RequestCalls) (video : VideoCalls)
    (req : CaptureRequest) (k : ℕ) (o : CaptureOutput) : Option Bool × StagedHal :=
  if o.kind = .other ∧ o.isVideo then
    let r := s.stream.request video req.frameNumber
    (if r.1 then some false else none, { s with stream := r.2, asked := s.asked ++ [req.frameNumber] })
  else (calls.channelRequest k, s)

/-- The requests to the channels of the outputs, and how many need metadata. -/
def requestOutputs (calls : RequestCalls) (video : VideoCalls) (req : CaptureRequest) :
    ℕ → List CaptureOutput → ℕ → StagedHal → StagedSection (ℕ × StagedHal)
  | _, [], n, s => .ok (n, s)
  | k, o :: os, n, s =>
    let r := s.channelRequest calls video req k o
    let s := r.2.countVideoBuffer video o
    match r.1 with
    | some answer =>
      let need := needsMetadata req o answer
      requestOutputs calls video req (k + 1) os (n + need.toNat)
        { s with hal := s.hal.markNeedMetadata req.frameNumber k need }
    | none => .error (.rejected .channelRequest, s)

/-- The requests to the channels. Two outputs that need metadata are not supported. -/
def requestChannels (calls : RequestCalls) (video : VideoCalls) (req : CaptureRequest)
    (s : StagedHal) : StagedSection StagedHal := do
  let r ← requestOutputs calls video req 0 req.outputs 0 s
  if 1 < r.1 then .error (.rejected .twoMetadata, r.2) else .ok r.2

/-- From the lists on. -/
def submitRequest (calls : RequestCalls) (video : VideoCalls) (req : CaptureRequest)
    (s : StagedHal) : StagedSection StagedHal := do
  let s ← s.lift (checkFlush s.hal)
  let s ← s.lift (setReprocParameters calls req s.hal)
  let s ← requestChannels calls video req s
  let s ← s.lift (queueSettings calls req s.hal)
  .ok { s with hal := { s.hal with mState := .started } }

/-- `processCaptureRequest` up to its wait, with the video stream. -/
def processCaptureRequest (s : StagedHal) (calls : RequestCalls) (video : VideoCalls)
    (req : CaptureRequest) : RequestExit × StagedHal :=
  match s.lift (prepareRequest calls req s.hal) >>= fun s =>
      submitRequest calls video req { s with hal := insertRequest req s.hal } with
  | .ok s => (.accepted, s)
  | .error r => r

end StagedHal

/-- The events: a request, with the answers to its calls and to those of the video stream; a
flush; and the callbacks of a buffer, of metadata and of an input buffer. -/
inductive StagingEvent
  | request (calls : RequestCalls) (video : VideoCalls) (req : CaptureRequest)
  | flush (restartChannels : Bool) (answers : FlushAnswers)
  | buffer (b : StreamBuffer) (frameNumber : ℕ)
  | metadata (m : MetadataInfo)
  | input (frameNumber : ℕ)

namespace StagedHal

/-- What an event does. -/
def step (s : StagedHal) : StagingEvent → Option StagedHal
  | .request calls video req => some (s.processCaptureRequest calls video req).2
  | .flush restartChannels answers =>
    some { s with hal := (s.hal.flush restartChannels answers).2 }
  | .buffer b frameNumber => some { s with hal := s.hal.handleBufferWithLock b frameNumber }
  | .metadata m => some { s with hal := s.hal.handleMetadataWithLock m }
  | .input frameNumber => some { s with hal := s.hal.handleInputBufferWithLock frameNumber }

/-! ### What the rest of a request keeps -/

/-- The counter, the size of the batches and the stream are the same. -/
structure Kept (s t : StagedHal) : Prop where
  counter : t.hal.mToBeQueuedVidBufs = s.hal.mToBeQueuedVidBufs
  size : t.hal.mBatchSize = s.hal.mBatchSize
  stream : t.stream = s.stream
  asked : t.asked = s.asked

protected theorem Kept.trans {s t u : StagedHal} (h₁ : Kept s t) (h₂ : Kept t u) : Kept s u :=
  ⟨h₂.counter.trans h₁.counter, h₂.size.trans h₁.size, h₂.stream.trans h₁.stream, h₂.asked.trans h₁.asked⟩

/-- The counter and the size of the batches, where the parameters do not change it. -/
def SameCount (size : ℕ) (s t : HardwareInterface) : Prop :=
  t.mToBeQueuedVidBufs = s.mToBeQueuedVidBufs ∧ (s.mBatchSize = size → t.mBatchSize = size)

protected theorem SameCount.trans {size : ℕ} {s t u : HardwareInterface}
    (h₁ : SameCount size s t) (h₂ : SameCount size t u) : SameCount size s u :=
  ⟨h₂.1.trans h₁.1, fun h => h₂.2 (h₁.2 h)⟩

/-! ### The sections of a request -/

section Sections

variable {size : ℕ} {calls : RequestCalls} {req : CaptureRequest}

theorem checkState_sameCount : Along (SameCount size) (fun e => e ≠ .accepted) (checkState calls) := by
  intro s
  have hflush := BatchState.sameBatch_flush s false calls.deviceFlush
  rw [checkState]
  split
  case h_3 => exact ⟨by rintro ⟨⟩, hflush.2.1, fun h => hflush.1.trans h⟩
  case h_4 => exact ⟨by rintro ⟨⟩, rfl, id⟩
  all_goals exact ⟨rfl, id⟩

theorem validateCaptureRequest_sameCount :
    Along (SameCount size) (fun e => e ≠ .accepted) (validateCaptureRequest calls req) := by
  intro s
  rw [validateCaptureRequest]
  split
  · exact ⟨by rintro ⟨⟩, rfl, id⟩
  · exact ⟨rfl, id⟩

theorem startChannels_sameCount : Along (SameCount size) (fun e => e ≠ .accepted) (startChannels calls) := by
  have hrejects : ∀ {e : RequestExit}, Rejects e → e ≠ .accepted := by
    rintro _ ⟨r, rfl⟩
    exact nofun
  intro s
  refine ((Meets.of_eq_ok (startChannels_eq_ok calls s)).and (startChannels_error calls s)).mono ?_ ?_
  · rintro t ⟨⟨-, rfl⟩, -⟩
    rw [opened]
    split <;> exact ⟨rfl, id⟩
  · rintro ⟨e, t⟩ ⟨-, he, ht⟩
    refine ⟨hrejects he, ?_⟩
    rw [show t = s.setChannels t.channels from ht]
    exact ⟨rfl, id⟩

theorem checkFlushPerf_sameCount : Along (SameCount size) (fun e => e ≠ .accepted) checkFlushPerf := by
  intro s
  rw [checkFlushPerf]
  split
  · exact ⟨by rintro ⟨⟩, rfl, id⟩
  · exact ⟨rfl, id⟩

theorem checkRequestId_sameCount : Along (SameCount size) (fun e => e ≠ .accepted) (checkRequestId req) := by
  intro s
  rw [checkRequestId]
  split
  · exact ⟨rfl, id⟩
  · split
    · exact ⟨by rintro ⟨⟩, rfl, id⟩
    · exact ⟨rfl, id⟩

theorem waitFences_sameCount : Along (SameCount size) (fun e => e ≠ .accepted) (waitFences calls req) := by
  intro s
  rw [waitFences]
  split
  · exact ⟨rfl, id⟩
  · exact ⟨by rintro ⟨⟩, rfl, id⟩

theorem setFrameParameters_sameCount (hsize : ∀ p, calls.frameParameters = some p → p.1 = size) :
    Along (SameCount size) (fun e => e ≠ .accepted) (setFrameParameters calls req) := by
  intro s
  rw [setFrameParameters]
  split
  · split
    · rename_i p hp
      exact ⟨rfl, fun _ => hsize _ hp⟩
    · exact ⟨by rintro ⟨⟩, rfl, id⟩
  · exact ⟨rfl, id⟩

theorem markBatch_sameCount : Along (SameCount size) (fun e => e ≠ .accepted) (markBatch calls req) := by
  intro s
  rw [markBatch]
  split
  · exact ⟨rfl, id⟩
  · dsimp only
    split <;> split <;> first | exact ⟨rfl, id⟩ | exact ⟨by rintro ⟨⟩, rfl, id⟩

theorem restartSensor_sameCount : Along (SameCount size) (fun e => e ≠ .accepted) (restartSensor calls) := by
  intro s
  rw [restartSensor]
  split
  · dsimp only
    rw [notifyError_rest]
    split
    · exact ⟨rfl, id⟩
    · exact ⟨by rintro ⟨⟩, rfl, id⟩
  · exact ⟨rfl, id⟩

end Sections

theorem prepareRequest_sameCount (calls : RequestCalls) (req : CaptureRequest) {size : ℕ}
    (hsize : ∀ p, calls.frameParameters = some p → p.1 = size) :
    Along (SameCount size) (fun e => e ≠ .accepted) (prepareRequest calls req) := by
  have htrans (s t u : HardwareInterface) (h₁ : SameCount size s t) (h₂ : SameCount size t u) :
      SameCount size s u := h₁.trans h₂
  have hsettings : Along (SameCount size) (fun e => e ≠ .accepted) (parseSettings calls req) := by
    intro s
    rw [parseSettings]
    split
    · exact (setFrameParameters_sameCount hsize).bind htrans (markBatch_sameCount.bind htrans restartSensor_sameCount) s
    · split
      · exact ⟨rfl, id⟩
      · exact ⟨by rintro ⟨⟩, rfl, id⟩
  exact checkState_sameCount.bind htrans (validateCaptureRequest_sameCount.bind htrans
    (startChannels_sameCount.bind htrans (checkFlushPerf_sameCount.bind htrans
      (checkRequestId_sameCount.bind htrans (waitFences_sameCount.bind htrans hsettings)))))

theorem prepareRequest_takes {calls : RequestCalls} {req : CaptureRequest}
    {s t : HardwareInterface} (h : prepareRequest calls req s = .ok t) :
    Takes calls req s ∧ t = listing calls req s := by
  have hopen : s.Open := by
    by_contra hclosed
    simp only [Open, not_or] at hclosed
    rw [prepareRequest, checkState] at h
    cases hstate : s.mState with
    | configured => exact hclosed.1 hstate
    | started => exact hclosed.2 hstate
    | _ =>
      rw [hstate] at h
      cases h
  exact (prepareRequest_meets calls req s hopen).ok h

/-! ### The requests to the channels -/

variable {calls : RequestCalls} {video : VideoCalls} {req : CaptureRequest}

theorem requestOutputs_append (k n : ℕ) (l l' : List CaptureOutput) (s : StagedHal) :
    requestOutputs calls video req k (l ++ l') n s = requestOutputs calls video req k l n s >>= fun r =>
        requestOutputs calls video req (k + l.length) l' r.1 r.2 := by
  induction l generalizing k n s with
  | nil => rfl
  | cons o l ih =>
    rw [cons_append, requestOutputs, requestOutputs]
    dsimp only
    split
    · rw [ih, length_cons, Nat.add_assoc, Nat.add_comm 1]
    · rfl

/-- An output that is not the video output. -/
def NotVideo (o : CaptureOutput) : Prop := ¬ (o.kind = .other ∧ o.isVideo = true)

theorem requestOutputs_kept (k n : ℕ) (l : List CaptureOutput) (s : StagedHal) (hl : ∀ o ∈ l, NotVideo o) :
    Meets (fun r => (∀ j < l.length, (calls.channelRequest (k + j)).isSome = true) ∧
        r.1 = n + (l.zipIdx k).countP (fun o =>
          needsMetadata req o.1 ((calls.channelRequest o.2).getD false)) ∧ Kept s r.2)
      (fun r => ¬ (∀ j < l.length, (calls.channelRequest (k + j)).isSome = true) ∧ r.1 ≠ .accepted ∧ Kept s r.2)
      (requestOutputs calls video req k l n s) := by
  induction l generalizing k n s with
  | nil => exact ⟨fun j hj => absurd hj j.not_lt_zero, rfl, rfl, rfl, rfl, rfl⟩
  | cons o l ih =>
    have ho := hl o mem_cons_self
    have hcount : s.countVideoBuffer video o = s := by
      rw [countVideoBuffer, HardwareInterface.countVideoBuffer, if_neg fun h => ho ⟨h.1, h.2.1⟩,
        if_neg fun h => ho ⟨h.1, h.2.1⟩]
    have hall : (∀ j < (o :: l).length, (calls.channelRequest (k + j)).isSome = true) ↔
        (calls.channelRequest k).isSome = true ∧ ∀ j < l.length, (calls.channelRequest (k + 1 + j)).isSome = true := by
      rw [length_cons, Nat.forall_lt_succ_left]
      simp only [Nat.add_zero, Nat.add_assoc, Nat.add_comm 1]
    rw [requestOutputs, channelRequest, if_neg ho]
    simp only [hall, hcount]
    cases hcall : calls.channelRequest k with
    | none => exact ⟨fun h => by simp at h, by rintro ⟨⟩, rfl, rfl, rfl, rfl⟩
    | some answer =>
      have hmark : ∀ need, Kept s { s with hal := s.hal.markNeedMetadata req.frameNumber k need } :=
        fun need => ⟨rfl, rfl, rfl, rfl⟩
      refine (ih (k + 1) _ _ fun o' ho' => hl o' (mem_cons_of_mem _ ho')).mono ?_ ?_
      · rintro r ⟨h₁, h₂, h₃⟩
        refine ⟨⟨rfl, h₁⟩, ?_, (hmark _).trans h₃⟩
        have hneed : (needsMetadata req o answer).toNat =
            if needsMetadata req o answer = true then 1 else 0 := by
          cases needsMetadata req o answer <;> rfl
        rw [h₂, zipIdx_cons, countP_cons]
        simp only [hcall, Option.getD_some, hneed]
        omega
      · rintro r ⟨h₁, h₂, h₃⟩
        exact ⟨fun h => h₁ h.2, h₂, (hmark _).trans h₃⟩

end StagedHal

/-! ### The stream -/

namespace VideoStream

variable {s : VideoStream}

/-- The container of the stream has room for a batch, and no buffer is staged without one. -/
structure WellStaged (s : VideoStream) : Prop where
  empty : s.mCurrentBatchBufDef = none → s.mBufsStaged = 0
  numBuffers : ∀ c, s.mCurrentBatchBufDef = some c → c.numBuffers = s.mBatchSize

theorem stage_spec {c : BatchContainer} (hc : c.numBuffers = s.mBatchSize)
    (hroom : s.mBufsStaged < s.mBatchSize) (frameNumber : ℕ) :
    (s.stage c frameNumber).1 = true ∧ (s.stage c frameNumber).2.WellStaged ∧
      (s.stage c frameNumber).2.mBatchSize = s.mBatchSize ∧
      (s.stage c frameNumber).2.mCurrentBatchBufDef ≠ none ∧
      (s.stage c frameNumber).2.mBufsStaged = s.mBufsStaged + 1 ∧
      (s.stage c frameNumber).2.queued = s.queued ∧
      (s.stage c frameNumber).2.staged = (List.range s.mBufsStaged).map c.bufIdx ++ [frameNumber] := by
  rw [stage, if_neg (by omega)]
  refine ⟨rfl, ⟨by rintro ⟨⟩, ?_⟩, rfl, nofun, rfl, rfl, ?_⟩
  · rintro _ ⟨rfl⟩
    exact hc
  · rw [staged, Option.elim_some, range_succ, map_append, map_singleton]
    dsimp only
    rw [update_self]
    congr 1
    refine map_congr_left fun i hi => update_of_ne ?_ ..
    exact (mem_range.mp hi).ne

theorem request_spec {calls : VideoCalls} (h : s.WellStaged)
    (hroom : s.mBufsStaged < s.mBatchSize) (hprepared : calls.prepared = true)
    (hcontainer : s.mCurrentBatchBufDef = none → calls.container = true) (frameNumber : ℕ) :
    (s.request calls frameNumber).1 = true ∧ (s.request calls frameNumber).2.WellStaged ∧
      (s.request calls frameNumber).2.mBatchSize = s.mBatchSize ∧
      (s.request calls frameNumber).2.mCurrentBatchBufDef ≠ none ∧
      (s.request calls frameNumber).2.mBufsStaged = s.mBufsStaged + 1 ∧
      (s.request calls frameNumber).2.queued = s.queued ∧
      (s.request calls frameNumber).2.staged = s.staged ++ [frameNumber] := by
  rw [request, if_pos hprepared, if_neg (by omega), aggregateBufToBatch]
  cases hcurrent : s.mCurrentBatchBufDef with
  | none =>
    have hstaged : s.staged = (range s.mBufsStaged).map fun _ => 0 := by
      rw [staged, hcurrent, h.empty hcurrent]
      rfl
    dsimp only
    rw [if_pos (hcontainer hcurrent), hstaged]
    exact stage_spec (by rfl) hroom frameNumber
  | some c =>
    have hstaged : s.staged = (range s.mBufsStaged).map c.bufIdx := by
      rw [staged, hcurrent]
      rfl
    rw [hstaged]
    exact stage_spec (h.numBuffers c hcurrent) hroom frameNumber

theorem queueBatchBuf_spec {calls : VideoCalls} (hcurrent : s.mCurrentBatchBufDef ≠ none) (hqbuf : calls.qbuf = true) :
    (s.queueBatchBuf calls).WellStaged ∧ (s.queueBatchBuf calls).mBatchSize = s.mBatchSize ∧
      (s.queueBatchBuf calls).mBufsStaged = 0 ∧ (s.queueBatchBuf calls).staged = [] ∧
      (s.queueBatchBuf calls).queued = s.queued ++ [s.staged] := by
  obtain ⟨c, hc⟩ := Option.ne_none_iff_exists'.mp hcurrent
  rw [queueBatchBuf, hc]
  dsimp only
  rw [if_pos hqbuf, staged, staged, hc]
  exact ⟨⟨fun _ => rfl, nofun⟩, rfl, rfl, rfl, rfl⟩

theorem WellStaged.length_staged (h : s.WellStaged) : s.staged.length = s.mBufsStaged := by
  rw [staged]
  cases hcurrent : s.mCurrentBatchBufDef with
  | none => exact (h.empty hcurrent).symm
  | some c => simp

end VideoStream

namespace StagedHal

/-! ### The guard -/

/-- **The counter and the stream agree**: the counter is the number of the staged buffers, the batch
is not full, and the containers that were queued are full and have, with the staged buffers after
them, the buffers of the requests to the video channel in order. -/
structure Agrees (s : StagedHal) : Prop where
  counter : s.hal.mToBeQueuedVidBufs = s.stream.mBufsStaged
  room : s.stream.mBufsStaged < s.hal.mBatchSize
  full : ∀ c ∈ s.stream.queued, c.length = s.hal.mBatchSize
  order : s.stream.queued.flatten ++ s.stream.staged = s.asked

/-- What holds in every state of a run. -/
structure Invariant (s : StagedHal) : Prop extends Agrees s where
  small : s.hal.mBatchSize < 256
  size : s.stream.mBatchSize = s.hal.mBatchSize
  wellStaged : s.stream.WellStaged

/-- The lists take the request, and it gets to the requests to the channels. -/
def Reaches (s : StagedHal) (calls : RequestCalls) (req : CaptureRequest) : Prop :=
  Takes calls req s.hal ∧ s.hal.mFlush = false ∧ (req.inputBuffer.isSome → calls.reprocParameters = true)

/-- The video channel is asked: the channels of the outputs before take theirs. -/
def AsksVideo (calls : RequestCalls) (req : CaptureRequest) : Prop :=
  ∃ k o, req.outputs[k]? = some o ∧ o.isVideo = true ∧ ∀ j < k, (calls.channelRequest j).isSome = true

/-- The channels of the outputs that are not the video output take them, and the rest of the
request goes well. -/
def RestSucceeds (calls : RequestCalls) (req : CaptureRequest) : Prop :=
  (∀ k o, req.outputs[k]? = some o → o.isVideo = false → (calls.channelRequest k).isSome = true) ∧
    metadataNeeds calls req ≤ 1 ∧ calls.streamIdEntry = true

/-- One video channel in batches of one size: the parameters do not change the size, and a request
has at most one video buffer. -/
structure OneVideo (s : StagedHal) (calls : RequestCalls) (req : CaptureRequest) : Prop where
  size : ∀ p, calls.frameParameters = some p → p.1 = s.hal.mBatchSize
  kind : ∀ o ∈ req.outputs, o.isVideo = true → o.kind = .other
  oneVideo : req.outputs.countP CaptureOutput.isVideo ≤ 1

/-- The guard of a request: where the video channel is asked, it takes the buffer; a request that
fills the batch is a live one and goes on to its end, and the container is queued; and a live
request without video buffer that goes on to its end finds no started batch. -/
structure Staging (s : StagedHal) (calls : RequestCalls) (video : VideoCalls)
    (req : CaptureRequest) : Prop extends OneVideo s calls req where
  staged : s.Reaches calls req → AsksVideo calls req →
    video.prepared = true ∧ (s.stream.mCurrentBatchBufDef = none → video.container = true)
  filled : s.Reaches calls req → AsksVideo calls req → s.hal.mToBeQueuedVidBufs + 1 = s.hal.mBatchSize →
    video.qbuf = true ∧ req.inputBuffer = none ∧ RestSucceeds calls req
  preview : s.Reaches calls req → isVidBufRequested req = false → req.inputBuffer = none →
    RestSucceeds calls req → s.hal.mToBeQueuedVidBufs = 0

variable {s t : StagedHal} {calls : RequestCalls} {video : VideoCalls} {req : CaptureRequest}

theorem Invariant.kept (h : s.Invariant) (hkept : Kept s t) : t.Invariant := by
  obtain ⟨h₁, h₂, h₃, h₄⟩ := hkept
  refine ⟨⟨?_, ?_, ?_, ?_⟩, ?_, ?_, ?_⟩
  · rw [h₁, h₃]
    exact h.counter
  · rw [h₂, h₃]
    exact h.room
  · rw [h₂, h₃]
    exact h.full
  · rw [h₃, h₄]
    exact h.order
  · rw [h₂]
    exact h.small
  · rw [h₂, h₃]
    exact h.size
  · rw [h₃]
    exact h.wellStaged

/-- The batch is full and was queued, and the counter is not reset yet. -/
structure Queued (s : StagedHal) : Prop where
  counter : s.hal.mToBeQueuedVidBufs = s.hal.mBatchSize
  rest : Invariant { s with hal := { s.hal with mToBeQueuedVidBufs := 0 } }

theorem Queued.kept (h : s.Queued) (hkept : Kept s t) : t.Queued :=
  ⟨by rw [hkept.counter, hkept.size, h.counter], h.rest.kept ⟨rfl, hkept.size, hkept.stream, hkept.asked⟩⟩

/-- The video output, where the channel takes the buffer: the batch goes on, or is full and
queued. -/
theorem Invariant.takesVideo (h : s.Invariant) {o : CaptureOutput} (ho : o.kind = .other ∧ o.isVideo)
    (hprepared : video.prepared = true)
    (hcontainer : s.stream.mCurrentBatchBufDef = none → video.container = true)
    (hqbuf : s.hal.mToBeQueuedVidBufs + 1 = s.hal.mBatchSize → video.qbuf = true) (k : ℕ) :
    (s.channelRequest calls video req k o).1 = some false ∧
      let t := (s.channelRequest calls video req k o).2.countVideoBuffer video o
      t.hal.mBatchSize = s.hal.mBatchSize ∧
      if s.hal.mToBeQueuedVidBufs + 1 = s.hal.mBatchSize then t.Queued
      else t.Invariant := by
  have hroom : s.stream.mBufsStaged < s.stream.mBatchSize := by rw [h.size]; exact h.room
  obtain ⟨htakes, hwell, hsize, hcurrent, hstaged, hqueued, hbufs⟩ :=
    VideoStream.request_spec h.wellStaged hroom hprepared hcontainer req.frameNumber
  have hcounter := h.counter
  have hsmall := h.small
  have hlt := h.room
  have hne : s.hal.mBatchSize ≠ 0 := by omega
  have hcount : s.hal.countVideoBuffer o = { s.hal with mToBeQueuedVidBufs := s.hal.mToBeQueuedVidBufs + 1 } := by
    rw [HardwareInterface.countVideoBuffer, if_pos ⟨ho.1, ho.2, hne⟩, Nat.mod_eq_of_lt (by omega)]
  have horder : s.stream.queued.flatten ++ (s.stream.staged ++ [req.frameNumber]) = s.asked ++ [req.frameNumber] := by
    rw [← append_assoc, h.order]
  rw [channelRequest, if_pos ho]
  dsimp only
  rw [if_pos htakes, countVideoBuffer]
  dsimp only
  rw [hcount]
  refine ⟨rfl, ?_⟩
  by_cases hfull : s.hal.mToBeQueuedVidBufs + 1 = s.hal.mBatchSize
  · obtain ⟨hwell', hsize', hstaged', hbufs', hqueued'⟩ :=
      VideoStream.queueBatchBuf_spec hcurrent (hqbuf hfull)
    rw [if_pos ⟨ho.1, ho.2, hne, hfull⟩, if_pos hfull]
    refine ⟨rfl, hfull, ⟨⟨hstaged'.symm, ?_, ?_, ?_⟩, hsmall, ?_, hwell'⟩⟩
    · rw [hstaged']
      exact Nat.pos_of_ne_zero hne
    · rw [hqueued', hqueued, hbufs]
      intro c hc
      rcases mem_append.mp hc with hc | hc
      · exact h.full c hc
      · rw [mem_singleton.mp hc, length_append, h.wellStaged.length_staged, length_singleton]
        exact (congrArg (· + 1) hcounter.symm).trans hfull
    · rw [hqueued', hqueued, hbufs', hbufs, flatten_append, append_nil, flatten_singleton]
      exact horder
    · rw [hsize', hsize]
      exact h.size
  · rw [if_neg fun hall => hfull hall.2.2.2, if_neg hfull]
    refine ⟨rfl, ⟨?_, ?_, ?_, ?_⟩, hsmall, ?_, hwell⟩
    · rw [hstaged]
      exact congrArg (· + 1) hcounter
    · rw [hstaged]
      change s.stream.mBufsStaged + 1 < s.hal.mBatchSize
      omega
    · rw [hqueued]
      exact h.full
    · rw [hqueued, hbufs]
      exact horder
    · rw [hsize]
      exact h.size

/-! ### A request -/

theorem OneVideo.split (h : s.OneVideo calls req) (hvid : isVidBufRequested req = true) :
    ∃ l o l', req.outputs = l ++ o :: l' ∧ (o.kind = .other ∧ o.isVideo = true) ∧
      (∀ b ∈ l, b.isVideo = false) ∧ ∀ b ∈ l', b.isVideo = false := by
  obtain ⟨o, ho, hv⟩ := any_eq_true.mp hvid
  obtain ⟨l, l', hsplit⟩ := append_of_mem ho
  have hone := h.oneVideo
  rw [hsplit, countP_append, countP_cons_of_pos hv] at hone
  have hl : l.countP CaptureOutput.isVideo = 0 := by omega
  have hl' : l'.countP CaptureOutput.isVideo = 0 := by omega
  exact ⟨l, o, l', hsplit, ⟨h.kind o ho hv, hv⟩, fun b hb => Bool.eq_false_iff.mpr (countP_eq_zero.mp hl b hb),
    fun b hb => Bool.eq_false_iff.mpr (countP_eq_zero.mp hl' b hb)⟩

theorem notVideo_of_false {l : List CaptureOutput} (h : ∀ o ∈ l, o.isVideo = false) : ∀ o ∈ l, NotVideo o := by
  rintro o ho ⟨-, hv⟩
  rw [h o ho] at hv
  exact Bool.noConfusion hv

theorem requestChannels_preview (s : StagedHal) (hvid : isVidBufRequested req = false) :
    Meets (fun t => Kept s t ∧ (calls.streamIdEntry = true → RestSucceeds calls req))
      (fun r => Kept s r.2) (requestChannels calls video req s) := by
  have hfalse : ∀ o ∈ req.outputs, o.isVideo = false := by
    intro o ho
    exact Bool.eq_false_iff.mpr fun hv =>
      Bool.eq_false_iff.mp hvid (any_eq_true.mpr ⟨o, ho, hv⟩)
  rw [requestChannels]
  refine (requestOutputs_kept 0 0 req.outputs s (notVideo_of_false hfalse)).seq (fun r hr => hr.2.2) ?_
  rintro ⟨m, t⟩ ⟨hall, hm, hkept⟩
  have hneeds : m = metadataNeeds calls req := by
    rw [metadataNeeds]
    exact hm.trans (Nat.zero_add _)
  dsimp only
  split
  · exact hkept
  · refine ⟨hkept, fun hentry => ⟨fun k o ho _ => ?_, by omega, hentry⟩⟩
    have hlt : k < req.outputs.length := (List.getElem?_eq_some_iff.mp ho).1
    simpa using hall k hlt

/-- What the requests to the channels of a request with a video buffer leave. -/
def AfterVideo (s : StagedHal) (calls : RequestCalls) (req : CaptureRequest) (t : StagedHal) :
    Prop :=
  t.hal.mBatchSize = s.hal.mBatchSize ∧
    if s.hal.mToBeQueuedVidBufs + 1 = s.hal.mBatchSize then
      t.Queued ∧ req.inputBuffer = none ∧ calls.streamIdEntry = true
    else t.Invariant

/-- The requests to the channels of a request with a video buffer, which the video channel takes if
it is asked. -/
theorem Invariant.requestChannels_video (h : s.Invariant) (hone : s.OneVideo calls req)
    (hvid : isVidBufRequested req = true)
    (hstaged : AsksVideo calls req → video.prepared = true ∧
      (s.stream.mCurrentBatchBufDef = none → video.container = true))
    (hfilled : AsksVideo calls req → s.hal.mToBeQueuedVidBufs + 1 = s.hal.mBatchSize →
      video.qbuf = true ∧ req.inputBuffer = none ∧ RestSucceeds calls req) :
    Meets (AfterVideo s calls req) (fun r => r.2.Invariant) (requestChannels calls video req s) := by
  obtain ⟨l, o, l', hsplit, ho, hl, hl'⟩ := hone.split hvid
  have hneed : ∀ answer, needsMetadata req o answer = false := by
    intro answer
    rw [needsMetadata, ho.1]
  have hneeds : metadataNeeds calls req = (l.zipIdx 0).countP (fun o =>
      needsMetadata req o.1 ((calls.channelRequest o.2).getD false)) + (l'.zipIdx (l.length + 1)).countP (fun o =>
          needsMetadata req o.1 ((calls.channelRequest o.2).getD false)) := by
    rw [metadataNeeds, hsplit, zipIdx_append, countP_append, zipIdx_cons,
      countP_cons_of_neg (by rw [hneed]; exact Bool.false_ne_true), Nat.zero_add]
  rw [requestChannels, hsplit, requestOutputs_append, bind_assoc]
  refine (requestOutputs_kept 0 0 l s (notVideo_of_false hl)).seq (fun r hr => h.kept hr.2.2) ?_
  rintro ⟨m, u⟩ ⟨hall, hm, hkept⟩
  have hasks : AsksVideo calls req := by
    refine ⟨l.length, o, ?_, ho.2, fun j hj => by simpa using hall j hj⟩
    rw [hsplit, getElem?_append_right le_rfl, Nat.sub_self]
    rfl
  obtain ⟨hprepared, hcontainer⟩ := hstaged hasks
  have hu := h.kept hkept
  -- the video output
  obtain ⟨hanswer, hsize, hafter⟩ := @Invariant.takesVideo u calls video req hu o ho hprepared
    (hkept.stream ▸ hcontainer) (fun hfull => (hfilled hasks
      (by rw [← hkept.counter, ← hkept.size]; exact hfull)).1) (0 + l.length)
  rw [hkept.counter, hkept.size] at hafter
  dsimp only
  rw [requestOutputs]
  dsimp only
  rw [hanswer]
  generalize (u.channelRequest calls video req (0 + l.length) o).2.countVideoBuffer video o = v at hsize hafter
  have hmark : Kept v { v with
      hal := v.hal.markNeedMetadata req.frameNumber (0 + l.length) (needsMetadata req o false) } := ⟨rfl, rfl, rfl, rfl⟩
  dsimp only
  -- the outputs after it
  have hrest := @requestOutputs_kept calls video req
    (0 + l.length + 1) (m + (needsMetadata req o false).toNat) l' { v with
      hal := v.hal.markNeedMetadata req.frameNumber (0 + l.length) (needsMetadata req o false) } (notVideo_of_false hl')
  by_cases hfull : s.hal.mToBeQueuedVidBufs + 1 = s.hal.mBatchSize
  · obtain ⟨-, hlive, hothers, hle, hentry⟩ := hfilled hasks hfull
    rw [if_pos hfull] at hafter
    refine hrest.seq (fun r hr => absurd (fun j hj => ?_) hr.1) ?_
    · have hget : req.outputs[0 + l.length + 1 + j]? = l'[j]? := by
        rw [hsplit, getElem?_append_right (by omega),
          show 0 + l.length + 1 + j - l.length = j + 1 from by omega]
        rfl
      have hsome : l'[j]? = some l'[j] := getElem?_eq_getElem hj
      exact hothers _ _ (hget.trans hsome) (hl' _ (getElem_mem hj))
    · rintro ⟨n, w⟩ ⟨-, hn, hw⟩
      have hw' := hmark.trans hw
      have hsum : n ≤ 1 := by
        rw [hneeds] at hle
        simp only [hneed, Bool.toNat_false, Nat.zero_add] at hn hm
        omega
      dsimp only
      rw [if_neg (by omega)]
      refine ⟨by rw [hw'.size, hsize, hkept.size], ?_⟩
      rw [if_pos hfull]
      exact ⟨hafter.kept hw', hlive, hentry⟩
  · rw [if_neg hfull] at hafter
    refine hrest.seq (fun r hr => hafter.kept (hmark.trans hr.2.2)) ?_
    rintro ⟨n, w⟩ ⟨-, -, hw⟩
    have hw' := hmark.trans hw
    dsimp only
    split
    · exact hafter.kept hw'
    · refine ⟨by rw [hw'.size, hsize, hkept.size], ?_⟩
      rw [if_neg hfull]
      exact hafter.kept hw'

theorem lift_meets {P : HardwareInterface → Prop} {Q : RequestExit × HardwareInterface → Prop}
    {x : Section} (s : StagedHal) (hx : Meets P Q x) :
    Meets (fun t => P t.hal ∧ t = { s with hal := t.hal })
      (fun r => Q (r.1, r.2.hal) ∧ r.2 = { s with hal := r.2.hal }) (s.lift x) := by
  cases x with
  | ok hal => exact ⟨hx, rfl⟩
  | error r => exact ⟨hx, rfl⟩

theorem Invariant.queueSettings_preview (h : s.Invariant) (hvid : isVidBufRequested req = false)
    (hzero : calls.streamIdEntry = true → req.inputBuffer = none → s.hal.mToBeQueuedVidBufs = 0) :
    Meets Invariant (fun r => r.2.Invariant) (s.lift (queueSettings calls req s.hal)) := by
  have hsame : ∀ hal : HardwareInterface, hal.mToBeQueuedVidBufs = s.hal.mToBeQueuedVidBufs →
      hal.mBatchSize = s.hal.mBatchSize → Invariant { s with hal := hal } :=
    fun hal hcounter hsize => h.kept ⟨hcounter, hsize, rfl, rfl⟩
  rw [queueSettings]
  split
  · rename_i hlive
    rw [if_pos (Or.inr (Or.inl hvid))]
    split
    · rename_i hentry
      exact hsame _ (hzero hentry hlive).symm rfl
    · exact hsame _ rfl rfl
  · exact hsame _ rfl rfl

theorem AfterVideo.queueSettings (h : AfterVideo s calls req t) (hvid : isVidBufRequested req = true) :
    Meets Invariant (fun r => r.2.Invariant) (t.lift (queueSettings calls req t.hal)) := by
  obtain ⟨-, hafter⟩ := h
  rw [HardwareInterface.queueSettings]
  split at hafter
  · obtain ⟨hqueued, hlive, hentry⟩ := hafter
    rw [if_pos hlive, if_pos (Or.inr (Or.inr hqueued.counter)), if_pos hentry]
    exact hqueued.rest.kept ⟨rfl, rfl, rfl, rfl⟩
  · have hsame : ∀ hal : HardwareInterface, hal.mToBeQueuedVidBufs = t.hal.mToBeQueuedVidBufs →
        hal.mBatchSize = t.hal.mBatchSize → Invariant { t with hal := hal } :=
      fun hal hcounter hsize => hafter.kept ⟨hcounter, hsize, rfl, rfl⟩
    split
    · rw [if_neg]
      · exact hsame _ rfl rfl
      · have hcounter := hafter.counter
        have hroom := hafter.room
        rintro (hzero | hfalse | hfull)
        · omega
        · rw [hvid] at hfalse
          exact Bool.noConfusion hfalse
        · omega
    · exact hsame _ rfl rfl

/-- **A request under the guard** keeps the invariant, wherever it is left. -/
theorem Invariant.request (h : s.Invariant) (hg : s.Staging calls video req) :
    (s.processCaptureRequest calls video req).2.Invariant := by
  have hend : Meets Invariant (fun r => r.2.Invariant) (s.lift (prepareRequest calls req s.hal) >>= fun s =>
        submitRequest calls video req { s with hal := insertRequest req s.hal }) := by
    have hcount := prepareRequest_sameCount calls req hg.size s.hal
    have hkept : ∀ hal : HardwareInterface, SameCount s.hal.mBatchSize s.hal hal →
        Kept s { s with hal := hal } := fun hal hsame => ⟨hsame.1, hsame.2 rfl, rfl, rfl⟩
    have hprep : Meets (fun t => (SameCount s.hal.mBatchSize s.hal t ∧ Takes calls req s.hal ∧ t.mFlush = s.hal.mFlush))
        (fun r => r.1 ≠ .accepted ∧ SameCount s.hal.mBatchSize s.hal r.2)
        (prepareRequest calls req s.hal) := by
      cases hcase : prepareRequest calls req s.hal with
      | error r => exact hcount.error hcase
      | ok t =>
        obtain ⟨htakes, rfl⟩ := prepareRequest_takes hcase
        exact ⟨hcount.ok hcase, htakes, (listing_rest calls req s.hal).2.1⟩
    refine (lift_meets s hprep).seq ?_ ?_
    · rintro r ⟨⟨-, hsame⟩, hr⟩
      rw [hr]
      exact h.kept (hkept _ hsame)
    rintro t ⟨⟨hsame, htakes, hflush⟩, ht⟩
    have hlisted : Kept s { t with hal := insertRequest req t.hal } := by
      rw [ht]
      exact hkept _ hsame
    have hflush' : (insertRequest req t.hal).mFlush = s.hal.mFlush := hflush
    generalize insertRequest req t.hal = hal at hlisted hflush'
    generalize hu : ({ t with hal := hal } : StagedHal) = u at hlisted
    have hflush : u.hal.mFlush = s.hal.mFlush := by rw [← hu]; exact hflush'
    have hinv := h.kept hlisted
    rw [submitRequest, checkFlush, hflush]
    cases hf : s.hal.mFlush with
    | true => exact hinv
    | false =>
      by_cases hreproc : req.inputBuffer.isSome ∧ calls.reprocParameters = false
      · have hset : setReprocParameters calls req u.hal = u.hal.leave (.rejected .reprocParameters) := if_pos hreproc
        change Meets _ _ (u.lift (setReprocParameters calls req u.hal) >>= _)
        rw [hset]
        exact hinv
      · have hset : setReprocParameters calls req u.hal = .ok u.hal := if_neg hreproc
        have hreaches : s.Reaches calls req :=
          ⟨htakes, hf, fun hsome => by simpa [hsome] using hreproc⟩
        change Meets _ _ (u.lift (setReprocParameters calls req u.hal) >>= _)
        rw [hset]
        change Meets _ _ (requestChannels calls video req u >>= _)
        have hone : u.OneVideo calls req :=
          ⟨fun p hp => (hg.size p hp).trans hlisted.size.symm, hg.kind, hg.oneVideo⟩
        have hstart : ∀ v : StagedHal, Meets Invariant (fun r => r.2.Invariant)
            (v.lift (HardwareInterface.queueSettings calls req v.hal)) →
            Meets Invariant (fun r => r.2.Invariant)
              (v.lift (HardwareInterface.queueSettings calls req v.hal) >>= fun s =>
                .ok { s with hal := { s.hal with mState := .started } }) :=
          fun v hv => hv.bind fun w hw => hw.kept ⟨rfl, rfl, rfl, rfl⟩
        cases hvid : isVidBufRequested req with
        | false =>
          refine (requestChannels_preview u hvid).seq (fun r hr => hinv.kept hr) ?_
          rintro v ⟨hv, hrest⟩
          refine hstart v ((hinv.kept hv).queueSettings_preview hvid fun hentry hlive => ?_)
          rw [hv.counter, hlisted.counter]
          exact hg.preview hreaches hvid hlive (hrest hentry)
        | true =>
          refine (hinv.requestChannels_video hone hvid (fun hasks => hlisted.stream ▸ hg.staged hreaches hasks)
            (fun hasks hfull => hg.filled hreaches hasks
              (by rw [← hlisted.counter, ← hlisted.size]; exact hfull))).bind fun v hv => ?_
          exact hstart v (hv.queueSettings hvid)
  rw [processCaptureRequest]
  split
  · rename_i t ht
    exact hend.ok ht
  · rename_i r hr
    exact hend.error hr

/-! ### Runs -/

/-- Before the first request: batches of some size, and nothing staged. -/
structure Initial (s : StagedHal) : Prop where
  positive : 0 < s.hal.mBatchSize
  small : s.hal.mBatchSize < 256
  counter : s.hal.mToBeQueuedVidBufs = 0
  stream : s.stream = { mBatchSize := s.hal.mBatchSize }
  asked : s.asked = []

/-- There is one video channel, in batches of one size. -/
def Batched (s : StagedHal) : StagingEvent → Prop
  | .request calls _ req => s.OneVideo calls req
  | _ => True

/-- The requests meet their guard. -/
def Guard (s : StagedHal) : StagingEvent → Prop
  | .request calls video req => s.Staging calls video req
  | _ => True

theorem Initial.invariant (h : s.Initial) : s.Invariant := by
  refine ⟨⟨?_, ?_, ?_, ?_⟩, h.small, ?_, ⟨?_, ?_⟩⟩
  · rw [h.counter, h.stream]
  · rw [h.stream]
    exact h.positive
  · rw [h.stream]
    exact nofun
  · rw [h.stream, h.asked]
    rfl
  · rw [h.stream]
  · rw [h.stream]
    exact fun _ => rfl
  · rw [h.stream]
    exact nofun

theorem Invariant.step (h : s.Invariant) {e : StagingEvent} (hg : s.Guard e)
    (hstep : s.step e = some t) : t.Invariant := by
  have hsame : ∀ hal : HardwareInterface, BatchState.SameBatch s.hal hal →
      Invariant { s with hal := hal } := fun hal hsame => h.kept ⟨hsame.2.1, hsame.1, rfl, rfl⟩
  cases e with
  | request calls video req =>
    cases hstep
    exact h.request hg
  | flush restartChannels answers =>
    cases hstep
    exact hsame _ (BatchState.sameBatch_flush s.hal restartChannels answers)
  | buffer b frameNumber =>
    cases hstep
    exact hsame _ (BatchState.sameBatch_buffer s.hal b frameNumber)
  | metadata m =>
    cases hstep
    exact hsame _ (BatchState.sameBatch_handled (handled_metadata s.hal m))
  | input frameNumber =>
    cases hstep
    exact hsame _ (BatchState.sameBatch_handled (handled_inputBuffer s.hal frameNumber))

/-- Batches of two buffers. -/
def batchesOfTwo : StagedHal where
  hal := { mState := .started, mBatchSize := 2 }
  stream := { mBatchSize := 2 }

theorem batchesOfTwo_initial : batchesOfTwo.Initial :=
  ⟨Nat.two_pos, by decide, rfl, rfl, rfl⟩

/-- A request in batches of two, with a video buffer or with a preview buffer only. -/
def requestOfTwo (frameNumber : ℕ) (video : Bool) : StagingEvent :=
  .request { frameParameters := some (2, false) } {}
    { frameNumber := frameNumber
      requestId := some 1
      outputs := [{ stream := 1, buffer := frameNumber, isVideo := video }] }

/-- The guard of a request with one video buffer, decided. -/
def guardOfTwo (s : StagedHal) : StagingEvent → Bool
  | .request calls video req =>
    decide (s.hal.mBatchSize = 2 ∧ calls.frameParameters = some (2, false) ∧
      (∀ o ∈ req.outputs, o.isVideo = true ∧ o.kind = .other) ∧ req.outputs.length ≤ 1 ∧
      video.prepared = true ∧ video.container = true ∧ video.qbuf = true ∧
      req.inputBuffer = none ∧ metadataNeeds calls req ≤ 1 ∧ calls.streamIdEntry = true ∧
      isVidBufRequested req = true)
  | _ => true

theorem guard_of_two {e : StagingEvent} (h : s.guardOfTwo e = true) : s.Guard e := by
  cases e with
  | request calls video req =>
    obtain ⟨h₁, h₂, h₃, h₄, h₅, h₆, h₇, h₈, h₉, h₁₀, h₁₁⟩ := of_decide_eq_true h
    refine ⟨⟨fun p hp => ?_, fun o ho _ => (h₃ o ho).2, ?_⟩, fun _ _ => ⟨h₅, fun _ => h₆⟩,
      fun _ _ _ => ⟨h₇, h₈, fun k o ho hv => ?_, h₉, h₁₀⟩, fun _ hvid => ?_⟩
    · rw [h₂] at hp
      rw [h₁, ← Option.some.inj hp]
    · exact countP_le_length.trans h₄
    · rw [(h₃ o (mem_of_getElem? ho)).1] at hv
      exact Bool.noConfusion hv
    · rw [h₁₁] at hvid
      exact Bool.noConfusion hvid
  | _ => trivial

/-- Requests for one buffer in batches of two, decided. -/
def batchedOfTwo (s : StagedHal) : StagingEvent → Bool
  | .request calls _ req =>
    decide (s.hal.mBatchSize = 2 ∧ calls.frameParameters = some (2, false) ∧
      (∀ o ∈ req.outputs, o.kind = .other) ∧ req.outputs.length ≤ 1)
  | _ => true

theorem batched_of_two {e : StagingEvent} (h : s.batchedOfTwo e = true) : s.Batched e := by
  cases e with
  | request calls video req =>
    obtain ⟨h₁, h₂, h₃, h₄⟩ := of_decide_eq_true h
    refine ⟨fun p hp => ?_, fun o ho _ => h₃ o ho, countP_le_length.trans h₄⟩
    rw [h₂] at hp
    rw [h₁, ← Option.some.inj hp]
  | _ => trivial

end StagedHal

end Marlin
