import Marlin.CaptureRuns
import Marlin.MetadataParts

/-!
# What Becomes of a Metadata Buffer

A metadata buffer that `captureResultCb` gets is done when `mMetadataChannel->bufDone` has it back, or
when `queueReprocMetadata` has queued it with a processing channel. `handleMetadataWithLock` sees to it
where it leaves early, and in its loop at the request of the frame. In batch mode it is told not to
release the buffer, and `handleBatchMetadata` does so after its loop.

## Conventions

* The fates of a buffer are the calls that give it away, in order. It is neither lost nor given away
  twice if there is exactly one.
* `captureResultCb` and `handleBatchMetadata` release the mutex between their parts; `between k` is what
  other threads do to the HAL before the `k`-th part.

## Main results

* `length_metadataFates`, `metadataFates_eq_nil`: the fates of a call of `handleMetadataWithLock`.
* `metadata_owned_iff`: when there is exactly one.
-/

open List Option Transition

namespace Marlin

/-- A call that gives a metadata buffer away: `bufDone` and `free`, or `queueReprocMetadata` of the
channel of a stream. -/
inductive MetadataFate
  | bufDone
  | queued (stream : ℕ)
  deriving DecidableEq

namespace HardwareInterface

/-! ### One call -/

/-- Where `free_and_bufdone_meta_buf` is set the buffer is released. -/
def releaseIf (free : Bool) : List MetadataFate := if free then [.bufDone] else []

/-- A turn of the loop gives the buffer away at the request of the frame: to the channel of the first
stream that needs it, if there is one. -/
def turnFates (free : Bool) (n : ℕ) (i : PendingRequestInfo) : List MetadataFate :=
  if i.frameNumber < n then []
  else
    match i.buffers.find? RequestedBufferInfo.needMetadata with
    | some j => [.queued j.stream]
    | none => releaseIf free

/-- The loop over the requests up to the frame number. -/
def loopFates (free : Bool) (n : ℕ) : List PendingRequestInfo → List MetadataFate
  | [] => []
  | i :: is => if n < i.frameNumber then [] else turnFates free n i ++ loopFates free n is

/-- `handleMetadataWithLock` gives up what it gets while it is flushed, or after an error. -/
def GivesUp (s : HardwareInterface) : Prop :=
  s.mFlushPerf ∨ s.mState = .error ∨ s.mState = .deinit
deriving Decidable

/-- The fates of the buffer in `handleMetadataWithLock`. -/
def metadataFates (free : Bool) (s : HardwareInterface) (m : MetadataInfo) : List MetadataFate :=
  if s.GivesUp then releaseIf free
  else if m.valid then
    let s := match m.urgentFrameNumber with
      | some urgent => s.urgentMetadata urgent
      | none => s
    match m.frameNumber with
    | some n => loopFates free n s.mPendingRequestsList
    | none => releaseIf free
  else releaseIf free

/-! ### The callback -/

/-- The turns of the loop of `handleBatchMetadata`, from the `k`-th part on. -/
def batchTurns (between : ℕ → HardwareInterface → HardwareInterface) :
    ℕ → List MetadataInfo → HardwareInterface → HardwareInterface × List MetadataFate
  | _, [], s => (s, [])
  | k, m :: ms, s =>
    let s := between k s
    let r := batchTurns between (k + 1) ms (s.handleMetadataWithLock m)
    (r.1, s.metadataFates false m ++ r.2)

/-- `handleBatchMetadata`, with the fates of the buffer. It returns early where a number is unknown. -/
def batchCallback (between : ℕ → HardwareInterface → HardwareInterface) (free : Bool)
    (s : HardwareInterface) (m : MetadataInfo) : HardwareInterface × List MetadataFate :=
  match s.lookUpBatches m with
  | (s, none) => (s, [])
  | (s, some (urgents, frames)) =>
    let r := batchTurns between 1 (expand m urgents frames) s
    (r.1, r.2 ++ releaseIf free)

/-- `captureResultCb` for metadata. -/
def captureResultCb (between : ℕ → HardwareInterface → HardwareInterface) (s : HardwareInterface)
    (m : MetadataInfo) : HardwareInterface × List MetadataFate :=
  let batchSize := s.mBatchSize
  let s := between 0 s
  if batchSize ≠ 0 then batchCallback between true s m
  else (s.handleMetadataWithLock m, s.metadataFates true m)

/-! ### The requests of the frame -/

/-- The requests of a frame that the loop comes to. -/
def requestsOf (n : ℕ) (l : List PendingRequestInfo) : List PendingRequestInfo :=
  (upTo n l).filter fun i => i.frameNumber = n

theorem loopFates_eq (free : Bool) (n : ℕ) (l : List PendingRequestInfo) :
    loopFates free n l = (requestsOf n l).flatMap fun i =>
      match i.buffers.find? RequestedBufferInfo.needMetadata with
      | some j => [.queued j.stream]
      | none => releaseIf free := by
  induction l with
  | nil => rfl
  | cons i l ih =>
    rw [loopFates, requestsOf, upTo, takeWhile_cons]
    by_cases hlater : n < i.frameNumber
    · rw [if_pos hlater, if_neg (by simpa using hlater)]
      rfl
    · rw [if_neg hlater, if_pos (by simpa using hlater), filter_cons, ih]
      change turnFates free n i ++ (requestsOf n l).flatMap _ =
        (if decide (i.frameNumber = n) = true then i :: requestsOf n l
          else requestsOf n l).flatMap _
      rw [turnFates]
      by_cases hown : i.frameNumber = n
      · rw [if_neg (by omega), if_pos (by simpa using hown), flatMap_cons]
      · rw [if_pos (by omega), if_neg (by simpa using hown)]
        rfl

theorem loopFates_handleUrgent (free : Bool) (n urgent : ℕ) (l : List PendingRequestInfo) :
    loopFates free n (handleUrgent urgent l).1 = loopFates free n l := by
  have hcons (i k : PendingRequestInfo) (l l' : List PendingRequestInfo)
      (hframe : k.frameNumber = i.frameNumber) (hbuffers : k.buffers = i.buffers)
      (hl : loopFates free n l' = loopFates free n l) :
      loopFates free n (k :: l') = loopFates free n (i :: l) := by
    rw [loopFates, loopFates, turnFates, turnFates, hframe, hbuffers, hl]
  induction l with
  | nil => rfl
  | cons i l ih =>
    rw [handleUrgent]
    dsimp only
    split
    · split
      · exact hcons i _ l l rfl rfl rfl
      · exact hcons i _ l _ rfl rfl ih
    · split
      · exact hcons i _ l l rfl rfl rfl
      · exact hcons i _ l _ rfl rfl ih

/-- The fates in a call of `handleMetadataWithLock`. -/
theorem metadataFates_eq (free : Bool) (s : HardwareInterface) (m : MetadataInfo) :
    s.metadataFates free m = if s.GivesUp then releaseIf free
      else m.number.elim (releaseIf free) fun n => loopFates free n s.mPendingRequestsList := by
  rw [metadataFates, MetadataInfo.number]
  split
  · rfl
  · cases m.valid with
    | false => rfl
    | true =>
      rw [if_pos rfl, if_pos rfl]
      cases m.frameNumber with
      | none => rfl
      | some n =>
        cases m.urgentFrameNumber with
        | none => rfl
        | some urgent => exact loopFates_handleUrgent free n urgent s.mPendingRequestsList

/-! ### Exactly one fate -/

/-- Where the buffer may be released, a call gives it away once if it leaves early, or if its loop
comes to one request of the frame. -/
theorem length_metadataFates (s : HardwareInterface) (m : MetadataInfo) : (s.metadataFates true m).length = 1 ↔
      s.GivesUp ∨ ∀ n ∈ m.number, (requestsOf n s.mPendingRequestsList).length = 1 := by
  have hone (n : ℕ) (l : List PendingRequestInfo) : (loopFates true n l).length = (requestsOf n l).length := by
    rw [loopFates_eq]
    induction requestsOf n l with
    | nil => rfl
    | cons i q ih =>
      rw [flatMap_cons, length_append, ih, length_cons, Nat.add_comm]
      split <;> rfl
  rw [metadataFates_eq]
  by_cases hup : s.GivesUp
  · rw [if_pos hup]
    exact ⟨fun _ => .inl hup, fun _ => rfl⟩
  · rw [if_neg hup, or_iff_right hup]
    cases hn : m.number with
    | none => exact ⟨fun _ n hn => absurd hn (not_mem_none n), fun _ => rfl⟩
    | some n =>
      rw [elim_some, hone]
      exact ⟨fun h n' hn' => mem_some.mp hn' ▸ h, fun h => h n rfl⟩

/-- The loop comes to a request of the frame with a stream that needs the metadata. -/
def QueuesMetadata (s : HardwareInterface) (m : MetadataInfo) : Prop :=
  ¬ s.GivesUp ∧ ∃ n ∈ m.number, ∃ i ∈ requestsOf n s.mPendingRequestsList, ∃ j ∈ i.buffers, j.needMetadata = true

/-- Where the buffer may not be released, a call gives it away if it queues it. -/
theorem metadataFates_eq_nil (s : HardwareInterface) (m : MetadataInfo) :
    s.metadataFates false m = [] ↔ ¬ s.QueuesMetadata m := by
  rw [metadataFates_eq, QueuesMetadata]
  by_cases hup : s.GivesUp
  · rw [if_pos hup]
    exact ⟨fun _ h => h.1 hup, fun _ => rfl⟩
  · rw [if_neg hup]
    cases hn : m.number with
    | none => exact ⟨fun _ ⟨_, n, hn', _⟩ => absurd hn' (not_mem_none n), fun _ => rfl⟩
    | some n =>
      have hturn (i : PendingRequestInfo) : (match i.buffers.find? RequestedBufferInfo.needMetadata with
            | some j => [MetadataFate.queued j.stream]
            | none => releaseIf false) = [] ↔ ¬ ∃ j ∈ i.buffers, j.needMetadata = true := by
        cases hfind : i.buffers.find? RequestedBufferInfo.needMetadata with
        | none => exact ⟨fun _ ⟨j, hj, hneed⟩ => find?_eq_none.mp hfind j hj hneed, fun _ => rfl⟩
        | some j =>
          have hneed : j.needMetadata = true := find?_some hfind
          exact ⟨nofun, fun h => absurd ⟨j, mem_of_find?_eq_some hfind, hneed⟩ h⟩
      rw [elim_some, loopFates_eq, flatMap_eq_nil_iff]
      simp only [hturn]
      constructor
      · rintro hall ⟨-, n', hn', i, hi, hj⟩
        obtain rfl := mem_some.mp hn'
        exact hall i hi hj
      · exact fun hnot i hi hj => hnot ⟨hup, n, rfl, i, hi, hj⟩

/-- What the turns of the loop of `handleBatchMetadata` find. -/
def turnStates (between : ℕ → HardwareInterface → HardwareInterface) :
    ℕ → List MetadataInfo → HardwareInterface → List (HardwareInterface × MetadataInfo)
  | _, [], _ => []
  | k, m :: ms, s =>
    (between k s, m) :: turnStates between (k + 1) ms ((between k s).handleMetadataWithLock m)

theorem batchTurns_eq_nil (between : ℕ → HardwareInterface → HardwareInterface) (k : ℕ)
    (ms : List MetadataInfo) (s : HardwareInterface) :
    (batchTurns between k ms s).2 = [] ↔ ∀ x ∈ turnStates between k ms s, ¬ x.1.QueuesMetadata x.2 := by
  induction ms generalizing k s with
  | nil => exact ⟨fun _ x hx => absurd hx not_mem_nil, fun _ => rfl⟩
  | cons m ms ih =>
    rw [batchTurns, turnStates, forall_mem_cons, ← ih, ← metadataFates_eq_nil]
    exact append_eq_nil_iff

/-- The buffer is given away once. Outside of batch mode: `handleMetadataWithLock` gives it up, or has
no valid frame number, or one request of the frame is pending. In batch mode: both numbers are known,
and no turn of the loop comes to a request with a stream that needs the metadata. -/
def GivenOnce (between : ℕ → HardwareInterface → HardwareInterface) (s : HardwareInterface) (m : MetadataInfo) : Prop :=
  let batchSize := s.mBatchSize
  let s := between 0 s
  if batchSize ≠ 0 then
    ∃ urgents frames, batchNumbers s.mPendingBatchMap m.urgentNumber = some urgents ∧
      batchNumbers s.mPendingBatchMap m.number = some frames ∧
      ∀ x ∈ turnStates between 1 (expand m urgents frames) (s.lookUpBatches m).1, ¬ x.1.QueuesMetadata x.2
  else s.GivesUp ∨ ∀ n ∈ m.number, (requestsOf n s.mPendingRequestsList).length = 1

/-- **Exactly one fate of a metadata buffer**, in every state and whatever comes between the parts of
the callback, if and only if it is given once. -/
theorem metadata_owned_iff (between : ℕ → HardwareInterface → HardwareInterface)
    (s : HardwareInterface) (m : MetadataInfo) :
    (captureResultCb between s m).2.length = 1 ↔ GivenOnce between s m := by
  rw [captureResultCb, GivenOnce]
  by_cases hbatch : s.mBatchSize ≠ 0
  · rw [if_pos hbatch, if_pos hbatch, batchCallback]
    generalize between 0 s = u
    cases hurgents : batchNumbers u.mPendingBatchMap m.urgentNumber with
    | none =>
      have hlook : u.lookUpBatches m = ({ u with mState := .error }, none) := by
        rw [lookUpBatches, hurgents]
      rw [hlook]
      exact ⟨nofun, fun ⟨_, _, h, _⟩ => nomatch h⟩
    | some urgents =>
      cases hframes : batchNumbers u.mPendingBatchMap m.number with
      | none =>
        have hlook : u.lookUpBatches m = ({ u with mState := .error }, none) := by
          rw [lookUpBatches, hurgents]
          dsimp only
          rw [hframes]
        rw [hlook]
        exact ⟨nofun, fun ⟨_, _, _, h, _⟩ => nomatch h⟩
      | some frames =>
        obtain ⟨v, hlook⟩ : ∃ v, u.lookUpBatches m = (v, some (urgents, frames)) := by
          rw [lookUpBatches, hurgents]
          dsimp only
          rw [hframes]
          exact ⟨_, rfl⟩
        rw [hlook]
        dsimp only
        have hrelease : (releaseIf true).length = 1 := rfl
        rw [length_append, hrelease, Nat.add_eq_right, length_eq_zero_iff, batchTurns_eq_nil]
        constructor
        · exact fun h => ⟨urgents, frames, rfl, rfl, h⟩
        · rintro ⟨us, fs, hu, hf, h⟩
          cases hu
          cases hf
          exact h
  · rw [if_neg hbatch, if_neg hbatch]
    exact length_metadataFates (between 0 s) m

/-- A batch of one request with a stream that needs the metadata. -/
def batchOfOne : HardwareInterface where
  mState := .started
  mBatchSize := 1
  mPendingBatchMap := [(1, 1)]
  mPendingRequestsList := [{ frameNumber := 1, buffers := [{ stream := 1, needMetadata := true }] }]

end HardwareInterface

namespace CaptureState

open HardwareInterface

/-- The metadata of frame 1. -/
def metadataOne : MetadataInfo := { frameNumber := some 1 }

/-- The metadata of a frame comes a second time, when its request is not pending any more: the buffer is
lost. In batch mode a buffer that is queued with a channel is released as well. -/
theorem metadata_lost : (∃ t, Run (fires step) configured [liveRequest 1 11, .metadata metadataOne] t ∧
      (captureResultCb (fun _ s => s) t.hal metadataOne).2 = []) ∧
    (captureResultCb (fun _ s => s) batchOfOne metadataOne).2 = [.queued 1, .bufDone] :=
  ⟨exists_run_fires (by decide), by decide⟩

end CaptureState

end Marlin
