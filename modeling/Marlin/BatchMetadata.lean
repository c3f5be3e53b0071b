import Marlin.RequestEnds
import Marlin.CaptureRuns
import Marlin.Tiling

/-!
# Metadata of Batches

In batch mode the settings go to the backend once a batch, and the backend answers with one
metadata buffer for the batch, which has the number of its last frame. `processCaptureRequest`
notes the first and the last frame of each batch in `mPendingBatchMap`, and `handleBatchMetadata`
hands the metadata on once for each frame between them.

The urgent and the normal numbers of a metadata buffer may be of different batches, of different
lengths. The mutex is released between the calls of `handleMetadataWithLock`, so that requests and
other callbacks come in between.

## Main results

* `processCaptureRequest_accepted`: what an accepted request does to its batch.
* `BatchInvariant`: the intervals of the batches tile the frames of the requests; kept by every
  event.
* `batches_expanded`: the intervals are disjoint and cover the frames, and metadata is handed on
  once for each frame, in order.
-/

open List Outcome Tiling Transition

namespace Marlin

/-! ### The functions -/

/-- The urgent frame number of a metadata buffer, where it is valid. -/
def MetadataInfo.urgentNumber (m : MetadataInfo) : Option ℕ :=
  if m.valid then m.urgentFrameNumber else none

/-- The frame rates of `HFR_MODE_MAP`. -/
def hfrModes : List ℕ := [60, 90, 120, 150, 180, 210, 240, 480]

/-- `MIN_FPS_FOR_BATCH_MODE`. -/
def minFpsForBatchMode : ℕ := 120

/-- `PREVIEW_FPS_FOR_HFR`. -/
def previewFpsForHfr : ℕ := 30

/-- `MAX_HFR_BATCH_SIZE`. -/
def maxHfrBatchSize : ℕ := 8

/-- `mBatchSize` as `setHalFpsRange` sets it in constrained high speed mode. -/
def hfrBatchSize (maxFps : ℕ) : ℕ :=
  if maxFps ∈ hfrModes ∧ minFpsForBatchMode ≤ maxFps then
    if maxHfrBatchSize < maxFps / previewFpsForHfr then maxHfrBatchSize
    else maxFps / previewFpsForHfr
  else 0

theorem hfrBatchSize_le (maxFps : ℕ) : hfrBatchSize maxFps ≤ maxHfrBatchSize := by
  rw [hfrBatchSize]
  split
  · split <;> omega
  · omega

namespace HardwareInterface

/-- `mPendingBatchMap.valueAt` at `mPendingBatchMap.indexOfKey`. -/
def batchFirst (map : List (ℕ × ℕ)) (last : ℕ) : Option ℕ :=
  (map.find? fun e => e.1 == last).map Prod.snd

/-- `mPendingBatchMap.removeItem`. -/
def removeBatch (map : List (ℕ × ℕ)) (last : ℕ) : List (ℕ × ℕ) :=
  map.filter fun e => e.1 != last

/-- The frame numbers that are inferred from the first and the last of a batch. -/
def inferredNumbers (first last : ℕ) : List ℕ :=
  (List.range ((last + 1 + 2 ^ 32 - first) % 2 ^ 32)).map fun i => (first + i) % 2 ^ 32

/-- The metadata with other numbers. -/
def setNumbers (m : MetadataInfo) (urgent frame : Option ℕ) : MetadataInfo :=
  { m with urgentFrameNumber := urgent, frameNumber := frame }

/-- The metadata of each turn of the loop. A number that has run out is not valid any more. -/
def expand (m : MetadataInfo) (urgents frames : List ℕ) : List MetadataInfo :=
  if m.valid then
    let loopCount := if m.urgentFrameNumber.isSome ∨ m.frameNumber.isSome then
      max urgents.length frames.length else 1
    (List.range loopCount).map fun i => setNumbers m urgents[i]? frames[i]?
  else [m]

/-- The numbers of the batch that ends with a number, if there is one; none if the map does not
know it. -/
def batchNumbers (map : List (ℕ × ℕ)) : Option ℕ → Option (List ℕ)
  | none => some []
  | some last => (batchFirst map last).map fun first => inferredNumbers first last

/-- The first part of `handleBatchMetadata`: the batches of the two numbers. An unknown number is
an error. The entry of the map is removed by the normal number only. -/
def lookUpBatches (s : HardwareInterface) (m : MetadataInfo) : HardwareInterface × Option (List ℕ × List ℕ) :=
  match batchNumbers s.mPendingBatchMap m.urgentNumber with
  | none => ({ s with mState := .error }, none)
  | some urgents =>
    match batchNumbers s.mPendingBatchMap m.number with
    | none => ({ s with mState := .error }, none)
    | some frames =>
      ({ s with mPendingBatchMap :=
          m.number.elim s.mPendingBatchMap (removeBatch s.mPendingBatchMap) },
        some (urgents, frames))

/-- `handleBatchMetadata`, without what comes between the turns of its loop. -/
def handleBatchMetadata (s : HardwareInterface) (m : MetadataInfo) : HardwareInterface :=
  match s.lookUpBatches m with
  | (s, none) => s
  | (s, some (urgents, frames)) => (expand m urgents frames).foldl handleMetadataWithLock s

/-! ### Accepted requests -/

/-- The first frame of the batch that a live request is in. -/
def batchStart (calls : RequestCalls) (req : CaptureRequest) (s : HardwareInterface) : ℕ :=
  if newBatchSize calls req s ≠ 0 ∧ s.mToBeQueuedVidBufs = 0 then req.frameNumber
  else s.mFirstFrameNumberInBatch

variable {calls : RequestCalls} {req : CaptureRequest} {s : HardwareInterface}

theorem listing_first (hlive : req.inputBuffer = none) :
    (listing calls req s).mFirstFrameNumberInBatch = batchStart calls req s := by
  have h : (ready calls req s).mFirstFrameNumberInBatch = batchStart calls req s := by
    rw [ready, withSettings, if_pos hlive, opened_eq]
    rfl
  rw [listing]
  split
  · rw [reopened, notifyError_rest, ← h]
  · exact h

theorem queueSettings_batch (hlive : req.inputBuffer = none) {t : HardwareInterface}
    (h : queueSettings calls req s = .ok t) :
    t.mBatchSize = s.mBatchSize ∧ t.mFirstFrameNumberInBatch = s.mFirstFrameNumberInBatch ∧
      if s.mBatchSize = 0 ∨ isVidBufRequested req = false ∨ s.mToBeQueuedVidBufs = s.mBatchSize then
        t.mToBeQueuedVidBufs = 0 ∧ t.mPendingBatchMap =
          addBatch s.mPendingBatchMap req.frameNumber s.mFirstFrameNumberInBatch
      else t.mToBeQueuedVidBufs = s.mToBeQueuedVidBufs ∧ t.mPendingBatchMap = s.mPendingBatchMap := by
  rw [queueSettings, if_pos hlive] at h
  split at h
  · rename_i hqueues
    rw [if_pos hqueues]
    split at h
    · obtain rfl := Except.ok.inj h
      exact ⟨rfl, rfl, rfl, rfl⟩
    · cases h
  · rename_i hqueues
    rw [if_neg hqueues]
    obtain rfl := Except.ok.inj h
    exact ⟨rfl, rfl, rfl, rfl⟩

instance (batchSize toBeQueued : ℕ) : Decidable (QueuesSettings req batchSize toBeQueued) :=
  inferInstanceAs (Decidable (_ ∨ _ ∨ _))

theorem accepted_open (h : (s.processCaptureRequest calls req).1 = .accepted) : s.Open := by
  by_contra hclosed
  rw [processCaptureRequest_closed calls req s hclosed] at h
  split at h <;> cases h

theorem accepted_ok (h : (s.processCaptureRequest calls req).1 = .accepted) :
    prepareRequest calls req s = .ok (listing calls req s) ∧
      submitRequest calls req (insertRequest req (listing calls req s)) =
        .ok (s.processCaptureRequest calls req).2 := by
  have hprep := prepareRequest_meets calls req s (accepted_open h)
  cases hcase : prepareRequest calls req s with
  | error r =>
    rw [processCaptureRequest_of_error hcase] at h
    cases hprep.error hcase with
    | start _ he _ =>
      obtain ⟨e, rfl⟩ := he
      cases h
    | flushPerf _ _ => cases h
    | settings _ _ _ he _ =>
      obtain ⟨e, rfl⟩ := he
      cases h
    | restart _ _ _ _ _ => cases h
  | ok u =>
    obtain ⟨-, rfl⟩ := hprep.ok hcase
    refine ⟨rfl, ?_⟩
    have hsub := submitted calls req (insertRequest req (listing calls req s))
    obtain ⟨hok, herror⟩ := processCaptureRequest_of_ok hcase
    cases hcase' : submitRequest calls req (insertRequest req (listing calls req s)) with
    | ok v => rw [hok v hcase']
    | error r =>
      rw [herror r hcase'] at h
      exact absurd h (hsub.error hcase').1

/-- **An accepted live request and its batch**: it starts a batch where none is started, and it
queues the batch, or the counter goes on. -/
theorem processCaptureRequest_accepted (hlive : req.inputBuffer = none)
    (h : (s.processCaptureRequest calls req).1 = .accepted) {t : HardwareInterface}
    (ht : (s.processCaptureRequest calls req).2 = t) :
    t.mBatchSize = newBatchSize calls req s ∧ t.mFirstFrameNumberInBatch = batchStart calls req s ∧
      if QueuesSettings req (newBatchSize calls req s) s.mToBeQueuedVidBufs then
        t.mToBeQueuedVidBufs = 0 ∧ t.mPendingBatchMap =
          addBatch s.mPendingBatchMap req.frameNumber (batchStart calls req s)
      else t.mToBeQueuedVidBufs = filled req.outputs (newBatchSize calls req s) s.mToBeQueuedVidBufs ∧
        t.mPendingBatchMap = s.mPendingBatchMap := by
  obtain ⟨-, hsubmit⟩ := accepted_ok h
  rw [ht, submitRequest] at hsubmit
  obtain ⟨u₁, h₁, hsubmit⟩ := bind_eq_ok.mp hsubmit
  obtain ⟨u₂, h₂, hsubmit⟩ := bind_eq_ok.mp hsubmit
  obtain ⟨u₃, h₃, hsubmit⟩ := bind_eq_ok.mp hsubmit
  obtain ⟨u₄, h₄, hsubmit⟩ := bind_eq_ok.mp hsubmit
  obtain rfl := Except.ok.inj hsubmit
  obtain ⟨-, rfl⟩ := error_ite_eq_ok.mp h₁
  obtain ⟨-, rfl⟩ := (setReprocParameters_meets calls req _).ok h₂
  obtain ⟨-, hmarks, hfilled⟩ := (requestChannels_meets calls req _).ok h₃
  have hsize : u₃.mBatchSize = newBatchSize calls req s := by
    rw [hmarks]
    exact listing_batchSize calls req s hlive
  have hfirst : u₃.mFirstFrameNumberInBatch = batchStart calls req s := by
    rw [hmarks]
    exact listing_first hlive
  obtain ⟨-, -, hqueued, hmap⟩ := listing_rest calls req s
  have hcount : u₃.mToBeQueuedVidBufs = filled req.outputs (newBatchSize calls req s) s.mToBeQueuedVidBufs := by
    rw [hfilled, ← hqueued, ← listing_batchSize calls req s hlive]
    rfl
  have hmap : u₃.mPendingBatchMap = s.mPendingBatchMap := by
    rw [hmarks]
    exact hmap
  have hbatch := queueSettings_batch hlive h₄
  rw [hsize, hfirst, hcount, hmap] at hbatch
  exact hbatch

end HardwareInterface

/-! ### Events -/

/-- The events: a request, with the answers to its calls; a metadata buffer of a batch, whose
numbers are looked up; a turn of the loop over it; and the other callbacks, and a flush. -/
inductive BatchEvent
  | request (calls : RequestCalls) (req : CaptureRequest)
  | metadata (m : MetadataInfo)
  | turn
  | buffer (b : StreamBuffer) (frameNumber : ℕ)
  | input (frameNumber : ℕ)
  | flush (restartChannels : Bool) (answers : FlushAnswers)

/-- The HAL with the frames of the accepted requests, the batches that were added to the map, how
many of them were reported with their urgent and their normal number, and the metadata of the
loop: what is to come and what was handed on. -/
structure BatchState where
  hal : HardwareInterface
  live : List ℕ := []
  batches : List (ℕ × ℕ) := []
  urgentReports : ℕ := 0
  reports : ℕ := 0
  loop : List MetadataInfo := []
  passed : List MetadataInfo := []

namespace BatchState

open HardwareInterface

/-- A request. What the map has for its number is a batch that was added. -/
def request (s : BatchState) (calls : RequestCalls) (req : CaptureRequest) : BatchState :=
  let r := s.hal.processCaptureRequest calls req
  if r.1 = .accepted then
    { s with
      hal := r.2
      live := s.live ++ [req.frameNumber]
      batches := s.batches ++ (r.2.mPendingBatchMap.filter fun e => e.1 == req.frameNumber).map Prod.swap }
  else { s with hal := r.2 }

/-- A metadata buffer. -/
def metadata (s : BatchState) (m : MetadataInfo) : BatchState :=
  let r := s.hal.lookUpBatches m
  { s with
    hal := r.1
    urgentReports := s.urgentReports + m.urgentNumber.isSome.toNat
    reports := s.reports + m.number.isSome.toNat
    loop := r.2.elim [] fun numbers => expand m numbers.1 numbers.2 }

/-- The events that can happen: the metadata callback is called again after its loop. -/
def step (s : BatchState) : BatchEvent → Option BatchState
  | .request calls req => some (s.request calls req)
  | .metadata m => if s.loop = [] then some (s.metadata m) else none
  | .turn =>
    match s.loop with
    | [] => none
    | m :: loop => some { s with
        hal := s.hal.handleMetadataWithLock m
        loop := loop
        passed := s.passed ++ [m] }
  | .buffer b frameNumber => some { s with hal := s.hal.handleBufferWithLock b frameNumber }
  | .input frameNumber => some { s with hal := s.hal.handleInputBufferWithLock frameNumber }
  | .flush restartChannels answers =>
    some { s with hal := (s.hal.flush restartChannels answers).2 }

/-- The urgent frame numbers that were handed on. -/
def urgents (s : BatchState) : List ℕ := s.passed.filterMap MetadataInfo.urgentNumber

/-- The normal frame numbers that were handed on. -/
def frames (s : BatchState) : List ℕ := s.passed.filterMap MetadataInfo.number

/-- Before the first request. -/
structure Initial (s : BatchState) : Prop where
  size : s.hal.mBatchSize ≤ maxHfrBatchSize
  toBeQueued : s.hal.mToBeQueuedVidBufs = 0
  map : s.hal.mPendingBatchMap = []
  live : s.live = []
  batches : s.batches = []
  urgentReports : s.urgentReports = 0
  reports : s.reports = 0
  loop : s.loop = []
  passed : s.passed = []

/-- An accepted live request in batch mode, whose number is the next one and which has a video
buffer or has not. The size of the batches stays, or is set by `setHalFpsRange`. -/
structure Live (s : BatchState) (calls : RequestCalls) (req : CaptureRequest) : Prop where
  accepted : (s.hal.processCaptureRequest calls req).1 = .accepted
  live : req.inputBuffer = none
  next : ∀ n, s.live.getLast? = some n → req.frameNumber = n + 1
  small : req.frameNumber < 2 ^ 32
  batch : 0 < newBatchSize calls req s.hal
  size : ∀ p, calls.frameParameters = some p → p.1 = s.hal.mBatchSize ∨ ∃ maxFps, p.1 = hfrBatchSize maxFps
  video : ∀ o ∈ req.outputs, o.isVideo = true → o.kind = .other
  oneVideo : req.outputs.countP CaptureOutput.isVideo ≤ 1

/-- The backend reports the batches in order, each once with its urgent and then once with its
normal number, which may come with one buffer. -/
structure Reported (s : BatchState) (m : MetadataInfo) : Prop where
  urgent : ∀ n, m.urgentNumber = some n → ∃ b, s.batches[s.urgentReports]? = some b ∧ b.2 = n
  normal : ∀ n, m.number = some n → ∃ b, s.batches[s.reports]? = some b ∧ b.2 = n
  later : m.number.isSome → s.reports < s.urgentReports + m.urgentNumber.isSome.toNat

/-- The requests are live ones in batch mode, and the backend reports the batches. -/
def Batched (s : BatchState) : BatchEvent → Prop
  | .request calls req => s.Live calls req
  | .metadata m => s.Reported m
  | _ => True

/-! ### The batch of a request -/

variable {s : BatchState}

variable {calls : RequestCalls} {req : CaptureRequest}

theorem filled_live (h : s.Live calls req) {q : ℕ} (hq : q < 8) : filled req.outputs (newBatchSize calls req s.hal) q =
      if isVidBufRequested req then q + 1 else q := by
  have hbatch := h.batch
  have hsame : videoBuffers req.outputs = req.outputs.countP CaptureOutput.isVideo := by
    rw [videoBuffers]
    refine countP_congr fun o ho => ?_
    have hkind := h.video o ho
    cases hv : o.isVideo <;> simp_all
  have hone := h.oneVideo
  rw [filled, hsame]
  cases hvid : isVidBufRequested req with
  | false =>
    have hzero : req.outputs.countP CaptureOutput.isVideo = 0 := by
      rw [countP_eq_zero]
      simpa [isVidBufRequested] using hvid
    simp [hzero]
  | true =>
    have hpos : 0 < req.outputs.countP CaptureOutput.isVideo := by
      rw [countP_pos_iff]
      simpa [isVidBufRequested] using hvid
    rw [if_neg (by omega), if_pos rfl]
    omega

/-! ### The batches of a metadata buffer -/

variable {batches : List (ℕ × ℕ)} {b : ℕ × ℕ}

theorem batchFirst_of_mem (h : batches.Pairwise fun b c => b.2 ≠ c.2) (hb : b ∈ batches) :
    batchFirst (batches.map Prod.swap) b.2 = some b.1 := by
  have hfind : batches.find? (fun c => c.2 == b.2) = some b := by
    induction batches with
    | nil => cases hb
    | cons c batches ih =>
      obtain ⟨hhead, htail⟩ := pairwise_cons.mp h
      rcases mem_cons.mp hb with rfl | hb
      · exact find?_cons_of_pos (by simp)
      · rw [find?_cons_of_neg (by simpa using hhead b hb), ih htail hb]
  have hswap : (fun e : ℕ × ℕ => e.1 == b.2) ∘ Prod.swap = fun c => c.2 == b.2 := rfl
  rw [batchFirst, find?_map, hswap, hfind]
  rfl

theorem removeBatch_head (h : (b :: batches).Pairwise fun b c => b.2 ≠ c.2) :
    removeBatch ((b :: batches).map Prod.swap) b.2 = batches.map Prod.swap := by
  obtain ⟨hhead, -⟩ := pairwise_cons.mp h
  rw [removeBatch, map_cons, filter_cons_of_neg (by simp), filter_eq_self]
  intro e he
  obtain ⟨c, hc, rfl⟩ := mem_map.mp he
  simpa using (hhead c hc).symm

theorem inferredNumbers_eq {first last : ℕ} (hle : first ≤ last) (hlast : last < 2 ^ 32)
    (hshort : last - first < maxHfrBatchSize) :
    inferredNumbers first last = List.range' first (last + 1 - first) := by
  have hdiff : (last + 1 + 2 ^ 32 - first) % 2 ^ 32 = last + 1 - first := by
    rw [maxHfrBatchSize] at hshort
    omega
  rw [inferredNumbers, hdiff, range'_eq_map_range]
  refine map_congr_left fun i hi => ?_
  have hlt := mem_range.mp hi
  exact Nat.mod_eq_of_lt (by omega)

theorem filterMap_getElem? {α : Type} (l : List α) {n : ℕ} (h : l.length ≤ n) :
    (List.range n).filterMap (fun i => l[i]?) = l := by
  induction l generalizing n with
  | nil => simp
  | cons a l ih =>
    cases n with
    | zero => simp at h
    | succ n =>
      rw [range_succ_eq_map, filterMap_cons_some (by rfl), filterMap_map]
      exact congrArg (a :: ·) (ih (by simpa using h))

variable {m : MetadataInfo}

theorem expand_urgents {urgents frames : List ℕ} (h : m.urgentNumber = none → urgents = []) :
    (expand m urgents frames).filterMap MetadataInfo.urgentNumber = urgents := by
  rw [expand]
  cases hvalid : m.valid with
  | false =>
    have hnone : m.urgentNumber = none := by simp [MetadataInfo.urgentNumber, hvalid]
    simp [hnone, h hnone]
  | true =>
    have hnumber : m.urgentNumber = m.urgentFrameNumber := by
      simp [MetadataInfo.urgentNumber, hvalid]
    have hread : MetadataInfo.urgentNumber ∘ (fun i : ℕ => setNumbers m urgents[i]? frames[i]?) =
        fun i => urgents[i]? := by
      funext i
      simp [MetadataInfo.urgentNumber, setNumbers, hvalid]
    rw [if_pos rfl, filterMap_map, hread]
    refine filterMap_getElem? urgents ?_
    split
    · omega
    · rename_i hneither
      have hnil := h (by rw [hnumber]; simpa using (not_or.mp hneither).1)
      simp [hnil]

theorem expand_frames {urgents frames : List ℕ} (h : m.number = none → frames = []) :
    (expand m urgents frames).filterMap MetadataInfo.number = frames := by
  rw [expand]
  cases hvalid : m.valid with
  | false =>
    have hnone : m.number = none := by simp [MetadataInfo.number, hvalid]
    simp [hnone, h hnone]
  | true =>
    have hnumber : m.number = m.frameNumber := by simp [MetadataInfo.number, hvalid]
    have hread : MetadataInfo.number ∘ (fun i : ℕ => setNumbers m urgents[i]? frames[i]?) = fun i => frames[i]? := by
      funext i
      simp [MetadataInfo.number, setNumbers, hvalid]
    rw [if_pos rfl, filterMap_map, hread]
    refine filterMap_getElem? frames ?_
    split
    · omega
    · rename_i hneither
      have hnil := h (by rw [hnumber]; simpa using (not_or.mp hneither).2)
      simp [hnil]

/-! ### The invariant -/

/-- What every run keeps: the batches tile the frames of the requests up to the batch that is not
queued yet, and the map has those that were not reported with their normal number. -/
structure BatchInvariant (s : BatchState) : Prop where
  size : s.hal.mBatchSize ≤ maxHfrBatchSize
  counter : s.hal.mToBeQueuedVidBufs = 0 ∨ s.hal.mToBeQueuedVidBufs < s.hal.mBatchSize
  toBeQueued : s.hal.mToBeQueuedVidBufs ≤ s.live.length
  tiled : ∃ first, s.live = List.range' first s.live.length ∧
    Tiles first s.batches (first + (s.live.length - s.hal.mToBeQueuedVidBufs)) ∧
    (s.hal.mToBeQueuedVidBufs ≠ 0 → s.hal.mFirstFrameNumberInBatch =
      first + (s.live.length - s.hal.mToBeQueuedVidBufs))
  short : ∀ b ∈ s.batches, b.2 < 2 ^ 32 ∧ b.2 - b.1 < maxHfrBatchSize
  map : s.hal.mPendingBatchMap = (s.batches.drop s.reports).map Prod.swap
  order : s.reports ≤ s.urgentReports ∧ s.urgentReports ≤ s.batches.length
  urgents : (s.passed ++ s.loop).filterMap MetadataInfo.urgentNumber = numbers (s.batches.take s.urgentReports)
  frames : (s.passed ++ s.loop).filterMap MetadataInfo.number = numbers (s.batches.take s.reports)

theorem Initial.batchInvariant (h : s.Initial) : s.BatchInvariant where
  size := h.size
  counter := .inl h.toBeQueued
  toBeQueued := by simp [h.toBeQueued]
  tiled := ⟨0, by simp [h.live], by simp [h.live, h.batches, Tiles.nil], by simp [h.toBeQueued]⟩
  short := by simp [h.batches]
  map := by simp [h.map, h.batches]
  order := by simp [h.reports, h.urgentReports]
  urgents := by simp [h.passed, h.loop, h.batches, numbers]
  frames := by simp [h.passed, h.loop, h.batches, numbers]

/-! ### The events -/

/-- The batch and the map stay. -/
def SameBatch (hal hal' : HardwareInterface) : Prop :=
  hal'.mBatchSize = hal.mBatchSize ∧ hal'.mToBeQueuedVidBufs = hal.mToBeQueuedVidBufs ∧
    hal'.mFirstFrameNumberInBatch = hal.mFirstFrameNumberInBatch ∧
    hal'.mPendingBatchMap = hal.mPendingBatchMap

theorem sameBatch_handled {hal hal' : HardwareInterface} (h : Handled hal hal') : SameBatch hal hal' := by
  rw [h.rest]
  exact ⟨rfl, rfl, rfl, rfl⟩

theorem sameBatch_buffer (hal : HardwareInterface) (b : StreamBuffer) (frameNumber : ℕ) :
    SameBatch hal (hal.handleBufferWithLock b frameNumber) := by
  cases hflush : hal.mFlushPerf with
  | false => exact sameBatch_handled (handled_buffer hal hflush b frameNumber)
  | true =>
    rw [handleBufferWithLock]
    split
    · exact ⟨rfl, rfl, rfl, rfl⟩
    · rw [handleBuffersDuringFlushLock]
      split <;> exact ⟨rfl, rfl, rfl, rfl⟩

theorem sameBatch_flush (hal : HardwareInterface) (restartChannels : Bool)
    (answers : FlushAnswers) : SameBatch hal (hal.flush restartChannels answers).2 := by
  rw [HardwareInterface.flush]
  dsimp only
  split
  · exact ⟨rfl, rfl, rfl, rfl⟩
  · split
    · exact ⟨rfl, rfl, rfl, rfl⟩
    · split <;> split <;>
        (rw [notifyError_rest]
         exact ⟨rfl, rfl, rfl, rfl⟩)

theorem BatchInvariant.same (h : s.BatchInvariant) {hal : HardwareInterface}
    (hs : SameBatch s.hal hal) : BatchInvariant { s with hal := hal } := by
  obtain ⟨h₁, h₂, h₃, h₄⟩ := hs
  refine ⟨?_, ?_, ?_, ?_, h.short, h₄.trans h.map, h.order, h.urgents, h.frames⟩
  · rw [h₁]
    exact h.size
  · rw [h₁, h₂]
    exact h.counter
  · rw [h₂]
    exact h.toBeQueued
  · rw [h₂, h₃]
    exact h.tiled

theorem BatchInvariant.turn (h : s.BatchInvariant) {loop : List MetadataInfo}
    (hloop : s.loop = m :: loop) : BatchInvariant { s with
      hal := s.hal.handleMetadataWithLock m
      loop := loop
      passed := s.passed ++ [m] } := by
  have hsplit : s.passed ++ [m] ++ loop = s.passed ++ s.loop := by simp [hloop]
  have hsame := h.same (sameBatch_handled (handled_metadata s.hal m))
  refine ⟨hsame.size, hsame.counter, hsame.toBeQueued, hsame.tiled, h.short, hsame.map, h.order, ?_, ?_⟩
  · rw [hsplit]
    exact h.urgents
  · rw [hsplit]
    exact h.frames

theorem BatchInvariant.batchNumbers (h : s.BatchInvariant) {k : ℕ} (hk : s.reports ≤ k) (hb : s.batches[k]? = some b) :
    HardwareInterface.batchNumbers s.hal.mPendingBatchMap (some b.2) = some (List.range' b.1 (b.2 + 1 - b.1)) := by
  obtain ⟨first, -, htiles, -⟩ := h.tiled
  have hmem : b ∈ s.batches.drop s.reports := by
    refine mem_iff_getElem?.mpr ⟨k - s.reports, ?_⟩
    rw [getElem?_drop, ← hb]
    congr 1
    omega
  have hbatch := mem_of_mem_drop hmem
  have hdistinct := htiles.last_ne.sublist (drop_sublist s.reports s.batches)
  rw [HardwareInterface.batchNumbers, h.map, batchFirst_of_mem hdistinct hmem]
  exact congrArg some (inferredNumbers_eq (htiles.mem hbatch).2.1 (h.short b hbatch).1 (h.short b hbatch).2)

theorem numbers_report {k : ℕ} (hb : batches[k]? = some b) : numbers (batches.take (k + 1)) =
      numbers (batches.take k) ++ List.range' b.1 (b.2 + 1 - b.1) := by
  rw [take_add_one, hb]
  exact numbers_snoc _ b

theorem BatchInvariant.lookUp (h : s.BatchInvariant) (hg : s.Reported m) :
    ∃ urgents frames, s.hal.lookUpBatches m = ({ s.hal with mPendingBatchMap :=
            (s.batches.drop (s.reports + m.number.isSome.toNat)).map Prod.swap },
          some (urgents, frames)) ∧
      numbers (s.batches.take (s.urgentReports + m.urgentNumber.isSome.toNat)) =
        numbers (s.batches.take s.urgentReports) ++ urgents ∧
      numbers (s.batches.take (s.reports + m.number.isSome.toNat)) = numbers (s.batches.take s.reports) ++ frames ∧
      (m.urgentNumber = none → urgents = []) ∧ (m.number = none → frames = []) := by
  obtain ⟨urgents, hurgents, htaken, hnil⟩ : ∃ urgents,
      HardwareInterface.batchNumbers s.hal.mPendingBatchMap m.urgentNumber = some urgents ∧
      numbers (s.batches.take (s.urgentReports + m.urgentNumber.isSome.toNat)) =
        numbers (s.batches.take s.urgentReports) ++ urgents ∧
      (m.urgentNumber = none → urgents = []) := by
    cases hurgent : m.urgentNumber with
    | none => exact ⟨[], rfl, by simp, fun _ => rfl⟩
    | some n =>
      obtain ⟨b, hb, rfl⟩ := hg.urgent n hurgent
      exact ⟨_, h.batchNumbers h.order.1 hb, numbers_report hb, fun h => nomatch h⟩
  cases hnumber : m.number with
  | none =>
    refine ⟨urgents, [], ?_, htaken, by simp, hnil, fun _ => rfl⟩
    rw [lookUpBatches, hurgents, hnumber]
    dsimp only [HardwareInterface.batchNumbers]
    rw [Option.isSome_none, Bool.toNat_false, Nat.add_zero, ← h.map]
    rfl
  | some n =>
    obtain ⟨b, hb, rfl⟩ := hg.normal n hnumber
    refine ⟨urgents, _, ?_, htaken, numbers_report hb, hnil, fun h => nomatch h⟩
    obtain ⟨first, -, htiles, -⟩ := h.tiled
    have hdistinct := htiles.last_ne.sublist (drop_sublist s.reports s.batches)
    have hhead : s.batches.drop s.reports = b :: s.batches.drop (s.reports + 1) :=
      drop_eq_getElem?_toList_append.trans (by rw [hb]; rfl)
    rw [hhead] at hdistinct
    rw [lookUpBatches, hurgents, hnumber]
    simp only [h.batchNumbers (Nat.le_refl _) hb, Option.elim_some]
    rw [h.map, hhead, removeBatch_head hdistinct]
    rfl

/-- A metadata buffer. -/
theorem BatchInvariant.metadata (h : s.BatchInvariant) (hloop : s.loop = [])
    (hg : s.Reported m) : (s.metadata m).BatchInvariant := by
  obtain ⟨urgents, frames, hlook, hurgents, hframes, hnil, hnil'⟩ := h.lookUp hg
  have hpassed : s.passed ++ s.loop = s.passed := by rw [hloop, append_nil]
  have hu := h.urgents
  have hf := h.frames
  rw [hpassed] at hu hf
  rw [BatchState.metadata, hlook]
  refine ⟨h.size, h.counter, h.toBeQueued, h.tiled, h.short, rfl, ⟨?_, ?_⟩, ?_, ?_⟩
  · have hlater := hg.later
    have horder := h.order.1
    cases hsome : m.number.isSome with
    | true =>
      have hlt := hlater hsome
      exact hlt
    | false =>
      exact Nat.le_trans horder (Nat.le_add_right _ _)
  · have horder := h.order.2
    cases hurgent : m.urgentNumber with
    | none => exact horder
    | some n =>
      obtain ⟨b, hb, -⟩ := hg.urgent n hurgent
      exact (List.getElem?_eq_some_iff.mp hb).1
  · change (s.passed ++ expand m urgents frames).filterMap _ = _
    rw [filterMap_append, hu, expand_urgents hnil, hurgents]
  · change (s.passed ++ expand m urgents frames).filterMap _ = _
    rw [filterMap_append, hf, expand_frames hnil', hframes]

theorem BatchInvariant.next (h : s.BatchInvariant) {n : ℕ} (hnext : ∀ k, s.live.getLast? = some k → n = k + 1) :
    ∃ first, n = first + s.live.length ∧ s.live ++ [n] = List.range' first (s.live.length + 1) ∧
      Tiles first s.batches (first + (s.live.length - s.hal.mToBeQueuedVidBufs)) ∧
      (s.hal.mToBeQueuedVidBufs ≠ 0 → s.hal.mFirstFrameNumberInBatch =
        first + (s.live.length - s.hal.mToBeQueuedVidBufs)) := by
  obtain ⟨first, hlive, htiles, hfirst⟩ := h.tiled
  rcases eq_nil_or_concat s.live with hnil | ⟨l, k, hcons⟩
  · have hzero := h.toBeQueued
    rw [hnil, length_nil, Nat.le_zero] at hzero
    rw [hnil, length_nil, Nat.zero_sub, Nat.add_zero] at htiles
    have hbatches : s.batches = [] := by
      refine eq_nil_iff_forall_not_mem.mpr fun b hb => ?_
      obtain ⟨h₁, h₂, h₃⟩ := htiles.mem hb
      omega
    refine ⟨n, by simp [hnil], by simp [hnil], ?_, fun hne => absurd hzero hne⟩
    rw [hbatches, hnil, length_nil, Nat.zero_sub]
    exact .nil n
  · rw [concat_eq_append] at hcons
    have hlast : s.live.getLast? = some k := by simp [hcons]
    have hlength : s.live.length = l.length + 1 := by simp [hcons]
    have hk : k = first + l.length := by
      have hget : s.live[l.length]? = some k := by simp [hcons]
      rw [hlive, getElem?_range' (by omega)] at hget
      simpa using (Option.some.inj hget).symm
    have hn := hnext k hlast
    refine ⟨first, by omega, ?_, htiles, hfirst⟩
    rw [range'_1_concat, ← hlive]
    congr 2
    omega

theorem BatchInvariant.key_lt (h : s.BatchInvariant) {first end' : ℕ}
    (htiles : Tiles first s.batches end') {e : ℕ × ℕ} (he : e ∈ s.hal.mPendingBatchMap) :
    e.1 < end' := by
  rw [h.map] at he
  obtain ⟨b, hb, rfl⟩ := mem_map.mp he
  exact (htiles.mem (mem_of_mem_drop hb)).2.2

theorem BatchInvariant.newSize (h : s.BatchInvariant) (hg : s.Live calls req) :
    newBatchSize calls req s.hal ≤ maxHfrBatchSize := by
  rw [newBatchSize]
  split
  · cases hp : calls.frameParameters with
    | none => exact h.size
    | some p =>
      rw [Option.elim_some]
      rcases hg.size p hp with hsame | ⟨fps, hset⟩
      · exact hsame ▸ h.size
      · exact hset ▸ hfrBatchSize_le fps
  · exact h.size

theorem BatchInvariant.unfilled (h : s.BatchInvariant) (hg : s.Live calls req)
    (hnot : ¬ QueuesSettings req (newBatchSize calls req s.hal) s.hal.mToBeQueuedVidBufs) :
    filled req.outputs (newBatchSize calls req s.hal) s.hal.mToBeQueuedVidBufs = s.hal.mToBeQueuedVidBufs + 1 ∧
      s.hal.mToBeQueuedVidBufs + 1 < newBatchSize calls req s.hal := by
  have hsmall : s.hal.mToBeQueuedVidBufs < 8 := by
    have hsize : s.hal.mBatchSize ≤ 8 := h.size
    have hcounter := h.counter
    omega
  have hfilled := filled_live hg hsmall
  rw [QueuesSettings, hfilled] at hnot
  simp only [not_or, Bool.not_eq_false] at hnot
  obtain ⟨hbatch, hvideo, hne⟩ := hnot
  rw [hvideo, if_pos rfl] at hfilled hne
  refine ⟨hfilled, ?_⟩
  rcases h.counter with hzero | hlt
  · omega
  · by_cases hzero : s.hal.mToBeQueuedVidBufs = 0
    · omega
    · have hsame : newBatchSize calls req s.hal = s.hal.mBatchSize := by
        rw [newBatchSize, if_neg]
        rintro (h₁ | h₁ | h₁)
        · omega
        · exact absurd (h₁.symm.trans hvideo) Bool.false_ne_true
        · exact hzero h₁
      omega

/-- A request. -/
theorem BatchInvariant.request (h : s.BatchInvariant) (hg : s.Live calls req) :
    (s.request calls req).BatchInvariant := by
  obtain ⟨first, hn, hlive, htiles, hfirst⟩ := h.next hg.next
  obtain ⟨hsize, hstart, hbatch⟩ := processCaptureRequest_accepted hg.live hg.accepted rfl
  have hpos := hg.batch
  have hcount := h.toBeQueued
  have hold : s.hal.mToBeQueuedVidBufs < 8 := by
    have hle : s.hal.mBatchSize ≤ 8 := h.size
    have hcounter := h.counter
    omega
  have hbegin : batchStart calls req s.hal =
      first + (s.live.length - s.hal.mToBeQueuedVidBufs) := by
    rw [batchStart]
    split
    · omega
    · rename_i hstarted
      exact hfirst fun hzero => hstarted ⟨by omega, hzero⟩
  have hkeys : ∀ e ∈ s.hal.mPendingBatchMap, e.1 ≠ req.frameNumber := fun e he => by
    have hlt := h.key_lt htiles he
    omega
  have hnokey : s.hal.mPendingBatchMap.filter (fun e => e.1 == req.frameNumber) = [] := by
    rw [filter_eq_nil_iff]
    exact fun e he => by simpa using hkeys e he
  rw [BatchState.request, if_pos hg.accepted]
  generalize (s.hal.processCaptureRequest calls req).2 = hal at hsize hstart hbatch ⊢
  have hlength : (s.live ++ [req.frameNumber]).length = s.live.length + 1 := by simp
  split at hbatch
  · obtain ⟨hzero, hmap⟩ := hbatch
    have hadd : hal.mPendingBatchMap = s.hal.mPendingBatchMap ++ [(req.frameNumber, batchStart calls req s.hal)] := by
      rw [hmap, addBatch, filter_eq_self.mpr fun e he => by simpa using hkeys e he]
    have hnew : (hal.mPendingBatchMap.filter fun e => e.1 == req.frameNumber).map Prod.swap =
        [(batchStart calls req s.hal, req.frameNumber)] := by
      rw [hadd, filter_append, hnokey]
      simp
    rw [hnew]
    refine ⟨hsize ▸ h.newSize hg, .inl hzero, ?_, ⟨first, ?_, ?_, fun hne => absurd hzero hne⟩,
      ?_, ?_, ⟨h.order.1, ?_⟩, ?_, ?_⟩
    · change hal.mToBeQueuedVidBufs ≤ (s.live ++ [req.frameNumber]).length
      omega
    · change s.live ++ [req.frameNumber] = range' first (s.live ++ [req.frameNumber]).length
      rw [hlength, hlive]
    · change Tiles first (s.batches ++ _) (first + ((s.live ++ [req.frameNumber]).length - hal.mToBeQueuedVidBufs))
      have hend : first + ((s.live ++ [req.frameNumber]).length - hal.mToBeQueuedVidBufs) =
          req.frameNumber + 1 := by omega
      rw [hend, hbegin]
      exact htiles.snoc (by omega)
    · intro b hb
      rcases mem_append.mp hb with hb | hb
      · exact h.short b hb
      · obtain rfl := mem_singleton.mp hb
        refine ⟨hg.small, ?_⟩
        change req.frameNumber - batchStart calls req s.hal < 8
        omega
    · change hal.mPendingBatchMap = ((s.batches ++ _).drop s.reports).map Prod.swap
      rw [drop_append_of_le_length (Nat.le_trans h.order.1 h.order.2), map_append, ← h.map, hadd]
      rfl
    · exact Nat.le_trans h.order.2 (by simp)
    · exact h.urgents.trans (by rw [take_append_of_le_length h.order.2])
    · exact h.frames.trans (by rw [take_append_of_le_length (Nat.le_trans h.order.1 h.order.2)])
  · rename_i hnot
    obtain ⟨hfilled, hlt⟩ := h.unfilled hg hnot
    obtain ⟨hcounter, hmap⟩ := hbatch
    rw [hfilled] at hcounter
    have hnone : (hal.mPendingBatchMap.filter fun e => e.1 == req.frameNumber).map Prod.swap = [] := by
      rw [hmap, hnokey]
      rfl
    rw [hnone, append_nil]
    have hend : (s.live ++ [req.frameNumber]).length - hal.mToBeQueuedVidBufs =
        s.live.length - s.hal.mToBeQueuedVidBufs := by omega
    refine ⟨hsize ▸ h.newSize hg, .inr ?_, ?_, ⟨first, ?_, ?_, fun _ => ?_⟩, h.short,
      hmap.trans h.map, h.order, h.urgents, h.frames⟩
    · change hal.mToBeQueuedVidBufs < hal.mBatchSize
      omega
    · change hal.mToBeQueuedVidBufs ≤ (s.live ++ [req.frameNumber]).length
      omega
    · change s.live ++ [req.frameNumber] = range' first (s.live ++ [req.frameNumber]).length
      rw [hlength, hlive]
    · change Tiles first s.batches (first + ((s.live ++ [req.frameNumber]).length - hal.mToBeQueuedVidBufs))
      rw [hend]
      exact htiles
    · change hal.mFirstFrameNumberInBatch =
        first + ((s.live ++ [req.frameNumber]).length - hal.mToBeQueuedVidBufs)
      rw [hend, hstart, hbegin]

theorem BatchInvariant.step (h : s.BatchInvariant) {e : BatchEvent} {t : BatchState}
    (hg : s.Batched e) (hstep : s.step e = some t) : t.BatchInvariant := by
  cases e with
  | request calls req =>
    cases hstep
    exact h.request hg
  | metadata m =>
    simp only [BatchState.step, Option.ite_none_right_eq_some, Option.some.injEq] at hstep
    obtain ⟨hloop, rfl⟩ := hstep
    exact h.metadata hloop hg
  | turn =>
    rw [BatchState.step] at hstep
    split at hstep
    · cases hstep
    · rename_i m loop hloop
      cases hstep
      exact h.turn hloop
  | buffer b frameNumber =>
    cases hstep
    exact h.same (sameBatch_buffer s.hal b frameNumber)
  | input frameNumber =>
    cases hstep
    exact h.same (sameBatch_handled (handled_inputBuffer s.hal frameNumber))
  | flush restartChannels answers =>
    cases hstep
    exact h.same (sameBatch_flush s.hal restartChannels answers)

/-! ### Every run -/

/-- What is asked of the batches and of the metadata that was handed on. -/
structure Expanded (s : BatchState) : Prop where
  increasing : s.live.Pairwise (· < ·)
  disjoint : s.batches.Pairwise fun b c => b.2 < c.1
  nonempty : ∀ b ∈ s.batches, b.1 ≤ b.2
  covered : numbers s.batches <+: s.live
  urgents : s.urgents <+: numbers (s.batches.take s.urgentReports)
  frames : s.frames <+: numbers (s.batches.take s.reports)
  all : s.loop = [] → s.urgents = numbers (s.batches.take s.urgentReports) ∧
    s.frames = numbers (s.batches.take s.reports)

/-- The invariant says it. -/
theorem BatchInvariant.expanded (h : s.BatchInvariant) : s.Expanded := by
  obtain ⟨first, hlive, htiles, -⟩ := h.tiled
  have hu := h.urgents
  have hf := h.frames
  rw [filterMap_append] at hu hf
  refine ⟨?_, htiles.ordered, fun b hb => (htiles.mem hb).2.1, ?_, ⟨_, hu⟩, ⟨_, hf⟩, fun hloop => ?_⟩
  · rw [hlive]
    exact pairwise_lt_range'
  · have hsplit : s.live.length = (s.live.length - s.hal.mToBeQueuedVidBufs) + s.hal.mToBeQueuedVidBufs :=
      (Nat.sub_add_cancel h.toBeQueued).symm
    rw [htiles.numbers_eq, Nat.add_sub_cancel_left, hlive, length_range', hsplit]
    refine ⟨range' (first + (s.live.length - s.hal.mToBeQueuedVidBufs)) s.hal.mToBeQueuedVidBufs, ?_⟩
    rw [Nat.add_sub_cancel]
    exact range'_append_1
  · rw [hloop, filterMap_nil, append_nil] at hu hf
    exact ⟨hu, hf⟩

/-- **Batches and their metadata.** In every run of live requests in batch mode, callbacks and
flushes in which the backend reports each batch in order, the intervals of the batches are disjoint
and cover the frames of the requests up to the last queued one; and of each reported batch every
frame is handed on once with its urgent and once with its normal number, in order. -/
theorem batches_expanded {s t : BatchState} {es : List BatchEvent} (hs : s.Initial)
    (h : Run (guarded Batched (fires step)) s es t) : t.Expanded := by
  have hinv : t.BatchInvariant :=
    h.invariant (fun _ _ _ hinv hstep => hinv.step hstep.1 hstep.2) hs.batchInvariant
  exact hinv.expanded

/-- A HAL in batch mode, with batches of four. -/
def batchMode : BatchState where
  hal := { mState := .started, mBatchSize := hfrBatchSize 120, mCurrentRequestId := 1 }

/-- A request with a video buffer or with a preview buffer only. -/
def batchRequest (frameNumber : ℕ) (video : Bool) : BatchEvent :=
  .request { frameParameters := some (hfrBatchSize 120, false) }
    { frameNumber := frameNumber
      outputs := [{ stream := 1, buffer := frameNumber, isVideo := video }] }

/-- The condition on an event, decided: the rate of a request is not changed. -/
def batchedAt120 (s : BatchState) : BatchEvent → Bool
  | .request calls req =>
    decide ((s.hal.processCaptureRequest calls req).1 = .accepted ∧ req.inputBuffer = none ∧
      s.live.getLast?.all (fun n => req.frameNumber == n + 1) ∧ req.frameNumber < 2 ^ 32 ∧
      0 < newBatchSize calls req s.hal ∧
      calls.frameParameters = some (hfrBatchSize 120, false) ∧
      (∀ o ∈ req.outputs, o.isVideo = true → o.kind = .other) ∧
      req.outputs.countP CaptureOutput.isVideo ≤ 1)
  | .metadata m =>
    m.urgentNumber.all (fun n => s.batches[s.urgentReports]?.any fun b => b.2 == n) &&
      m.number.all (fun n => s.batches[s.reports]?.any fun b => b.2 == n) &&
      (!m.number.isSome || decide (s.reports < s.urgentReports + m.urgentNumber.isSome.toNat))
  | _ => true

theorem batched_of_at120 {e : BatchEvent} (h : s.batchedAt120 e = true) : s.Batched e := by
  cases e with
  | request calls req =>
    obtain ⟨h₁, h₂, h₃, h₄, h₅, h₆, h₇, h₈⟩ := of_decide_eq_true h
    refine ⟨h₁, h₂, fun n hn => ?_, h₄, h₅, fun p hp => .inr ⟨120, ?_⟩, h₇, h₈⟩
    · rw [hn] at h₃
      simpa using h₃
    · rw [h₆] at hp
      exact congrArg Prod.fst (Option.some.inj hp).symm
  | metadata m =>
    simp only [batchedAt120, Bool.and_eq_true, Bool.or_eq_true, Bool.not_eq_true',
      decide_eq_true_eq] at h
    obtain ⟨⟨hurgent, hnormal⟩, hlater⟩ := h
    refine ⟨fun n hn => ?_, fun n hn => ?_, fun hsome => ?_⟩
    · rw [hn, Option.all_some] at hurgent
      obtain ⟨b, hb, hlast⟩ := (Option.any_eq_true _ _).mp hurgent
      exact ⟨b, hb, eq_of_beq hlast⟩
    · rw [hn, Option.all_some] at hnormal
      obtain ⟨b, hb, hlast⟩ := (Option.any_eq_true _ _).mp hnormal
      exact ⟨b, hb, eq_of_beq hlast⟩
    · simpa [hsome] using hlater
  | _ => trivial

/-- Two frames with video and a preview that cuts their batch short, whose metadata comes with both
numbers. -/
theorem batches_expanded_cut : batchMode.Initial ∧
    ∃ t, Run (guarded Batched (fires step)) batchMode [batchRequest 5 true, batchRequest 6 true,
      batchRequest 7 false, .metadata { urgentFrameNumber := some 7, frameNumber := some 7 },
      .turn, .turn, .turn] t ∧ t.Expanded ∧ t.frames = [5, 6, 7] := by
  have hinitial : batchMode.Initial := ⟨by decide, rfl, rfl, rfl, rfl, rfl, rfl, rfl, rfl⟩
  have hex : (exec batchedAt120 step batchMode [batchRequest 5 true, batchRequest 6 true,
      batchRequest 7 false, .metadata { urgentFrameNumber := some 7, frameNumber := some 7 },
      .turn, .turn, .turn]).map (fun t => decide (t.frames = [5, 6, 7])) = some true := by decide
  obtain ⟨t, ht, hframes⟩ := Option.map_eq_some_iff.mp hex
  have hrun : Run (guarded Batched (fires step)) batchMode _ t :=
    (run_of_exec ht).mono fun _ _ _ hstep => ⟨batched_of_at120 hstep.1, hstep.2⟩
  exact ⟨hinitial, t, hrun, batches_expanded hinitial hrun, of_decide_eq_true hframes⟩

end BatchState

end Marlin
