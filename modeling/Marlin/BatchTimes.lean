import Mathlib.Data.Rat.Floor
import Marlin.BatchMetadata

/-!
# Time Stamps of Batches

The metadata of a batch carries the capture time of its last frame. `handleBatchMetadata` infers the
times of the frames before: it counts back from the capture time as many frame intervals as there are
turns of its loop, and then forward. But the loop has as many turns as the longer of the two batches
that travel in the buffer, the urgent and the normal one. When the urgent batch is longer the normal
frames are dated too early, by a frame interval for each frame that it is longer.

## Conventions

* The times are exact rationals, and so is `mHFRVideoFps`. The two values that the code computes as
  `double` and stores as `int64_t` go through a conversion, which is a parameter: the identity for
  exact times, and `truncate` for what is stored.
* The time of a frame is `CAM_INTF_META_SENSOR_TIMESTAMP` in the turn of the loop that hands on its
  normal number.
* A capture time of `0` is none: the turns keep it.

## Main results

* `handleBatchMetadata_turns`: the turns are those of the loop that hands the metadata on.
* `times_inferred_iff`: the frames of a batch are dated as they should be exactly if the urgent batch
  is not longer; then the times of consecutive batches increase.
* `inferTime_truncate`: what is stored is less than 2 ns off.
-/

namespace Marlin

/-- `NSEC_PER_SEC`. -/
def nsecPerSec : ℚ := 1000000000

/-- The time of a turn of the loop of `handleBatchMetadata`. -/
def inferTime (toInt64 : ℚ → ℚ) (mHFRVideoFps : ℚ) (lastFrameCaptureTime : ℤ) (loopCount i : ℕ) : ℚ :=
  if lastFrameCaptureTime = 0 then 0
  else
    let firstFrameCaptureTime :=
      toInt64 (lastFrameCaptureTime - ((loopCount - 1 : ℕ) * nsecPerSec) / mHFRVideoFps)
    toInt64 (firstFrameCaptureTime + i * nsecPerSec / mHFRVideoFps)

/-- A metadata buffer with the numbers of its two batches and its capture time. -/
structure TimedBatch where
  m : MetadataInfo
  urgents : List ℕ
  frames : List ℕ
  captureTime : ℤ
  valid : m.valid = true
  /-- There are only numbers of a batch where the number of its last frame is valid. -/
  urgents_nil : m.urgentFrameNumber = none → urgents = []
  frames_nil : m.frameNumber = none → frames = []

namespace TimedBatch

open List HardwareInterface BatchState

/-- The metadata that the turns of the loop hand on. -/
def turns (b : TimedBatch) : List MetadataInfo := expand b.m b.urgents b.frames

/-- What `handleBatchMetadata` finds for valid metadata. -/
def found (s : HardwareInterface) (m : MetadataInfo) (captureTime : ℤ) (hvalid : m.valid = true)
    {urgents frames : List ℕ} (h : (s.lookUpBatches m).2 = some (urgents, frames)) : TimedBatch where
  m := m
  urgents := urgents
  frames := frames
  captureTime := captureTime
  valid := hvalid
  urgents_nil hnone := by
    have hnumber : m.urgentNumber = none := by rw [MetadataInfo.urgentNumber, if_pos hvalid, hnone]
    rw [lookUpBatches, hnumber] at h
    simp only [batchNumbers] at h
    split at h
    · cases h
    · exact (congrArg Prod.fst (Option.some.inj h)).symm
  frames_nil hnone := by
    have hnumber : m.number = none := by rw [MetadataInfo.number, if_pos hvalid, hnone]
    rw [lookUpBatches, hnumber] at h
    split at h
    · cases h
    · simp only [batchNumbers] at h
      exact (congrArg Prod.snd (Option.some.inj h)).symm

/-- The turns are those of `handleBatchMetadata`. -/
theorem handleBatchMetadata_turns (s : HardwareInterface) (m : MetadataInfo) (captureTime : ℤ)
    (hvalid : m.valid = true) {urgents frames : List ℕ}
    (h : (s.lookUpBatches m).2 = some (urgents, frames)) :
    s.handleBatchMetadata m =
      (found s m captureTime hvalid h).turns.foldl handleMetadataWithLock (s.lookUpBatches m).1 := by
  rw [handleBatchMetadata]
  split
  · rename_i t hnone
    rw [hnone] at h
    cases h
  · rename_i t urgents' frames' hsome
    rw [hsome] at h ⊢
    obtain ⟨rfl, rfl⟩ := Prod.mk.inj (Option.some.inj h)
    rfl

/-- The normal frames with the times they are reported with. -/
def reports (toInt64 : ℚ → ℚ) (fps : ℚ) (b : TimedBatch) : List (ℕ × ℚ) :=
  b.turns.zipIdx.filterMap fun (m, i) => m.frameNumber.map fun frameNumber =>
    (frameNumber, inferTime toInt64 fps b.captureTime b.turns.length i)

theorem turns_eq {b : TimedBatch} (hne : b.frames ≠ []) :
    b.turns = (List.range (max b.urgents.length b.frames.length)).map fun i =>
      setNumbers b.m b.urgents[i]? b.frames[i]? := by
  have hsome : b.m.frameNumber.isSome := by
    cases hnum : b.m.frameNumber with
    | none => exact absurd (b.frames_nil hnum) hne
    | some _ => rfl
  rw [turns, expand, if_pos b.valid, if_pos (.inr hsome)]

theorem reports_eq (toInt64 : ℚ → ℚ) (fps : ℚ) (b : TimedBatch) :
    b.reports toInt64 fps = b.frames.zipIdx.map fun (frameNumber, i) =>
      (frameNumber, inferTime toInt64 fps b.captureTime (max b.urgents.length b.frames.length) i) := by
  by_cases hne : b.frames = []
  · rw [hne, zipIdx_nil, map_nil, reports, filterMap_eq_nil_iff]
    rintro ⟨m, i⟩ hm
    have hturn := fst_mem_of_mem_zipIdx hm
    have hnone : m.frameNumber = none := by
      rw [turns, expand, if_pos b.valid, hne] at hturn
      obtain ⟨j, -, rfl⟩ := mem_map.mp hturn
      rfl
    simp [hnone]
  · have hlength : b.turns.length = max b.urgents.length b.frames.length := by
      rw [turns_eq hne, length_map, length_range]
    have hread : b.turns.zipIdx = (range (max b.urgents.length b.frames.length)).map fun i =>
        (setNumbers b.m b.urgents[i]? b.frames[i]?, i) := by
      rw [turns_eq hne, zipIdx_map]
      refine ext_getElem (by simp) fun i h₁ h₂ => ?_
      simp
    rw [reports, hlength, hread, filterMap_map]
    refine Eq.trans (filterMap_congr fun i _ => ?_) (filterMap_getElem?
      (b.frames.zipIdx.map fun p => (p.1, inferTime toInt64 fps b.captureTime
        (max b.urgents.length b.frames.length) p.2))
      (n := max b.urgents.length b.frames.length) (by simp))
    simp [setNumbers, getElem?_zipIdx, Function.comp_def]

/-- The frame interval in nanoseconds. -/
def frameInterval (fps : ℚ) : ℚ := nsecPerSec / fps

theorem inferTime_exact {fps : ℚ} {captureTime : ℤ} (hne : captureTime ≠ 0) (loopCount i : ℕ) :
    inferTime id fps captureTime loopCount i =
      captureTime - (loopCount - 1 : ℕ) * frameInterval fps + i * frameInterval fps := by
  rw [inferTime, if_neg hne, id_eq, id_eq, frameInterval]
  ring

/-- The conversion of a `double` to `int64_t`, which rounds toward zero. -/
def truncate (x : ℚ) : ℚ := if 0 ≤ x then (⌊x⌋ : ℤ) else (⌈x⌉ : ℤ)

theorem truncate_close (x : ℚ) : |truncate x - x| < 1 := by
  rw [truncate, abs_lt]
  split
  · exact ⟨by linarith [Int.lt_floor_add_one x], by linarith [Int.floor_le x]⟩
  · exact ⟨by linarith [Int.le_ceil x], by linarith [Int.ceil_lt_add_one x]⟩

/-- What is stored is less than 2 ns off the exact time. -/
theorem inferTime_truncate (fps : ℚ) (captureTime : ℤ) (loopCount i : ℕ) :
    |inferTime truncate fps captureTime loopCount i - inferTime id fps captureTime loopCount i| <
      2 := by
  rw [inferTime, inferTime]
  split
  · simp
  · rw [id_eq, id_eq]
    generalize (captureTime - ((loopCount - 1 : ℕ) * nsecPerSec) / fps : ℚ) = first
    generalize (i * nsecPerSec / fps : ℚ) = step
    have hfirst := abs_lt.mp (truncate_close first)
    have hsum := abs_lt.mp (truncate_close (truncate first + step))
    rw [abs_lt]
    constructor <;> linarith

/-- The times of the normal frames, in order. -/
def times (fps : ℚ) (b : TimedBatch) : List ℚ := (b.reports id fps).map Prod.snd

theorem times_eq (fps : ℚ) (b : TimedBatch) : b.times fps = (List.range b.frames.length).map
      (inferTime id fps b.captureTime (max b.urgents.length b.frames.length)) := by
  rw [times, reports_eq, map_map, range_eq_range', ← zipIdx_map_snd, map_map]
  rfl

/-- The last frame has the capture time of the batch, and the frames are one frame interval apart. -/
structure Inferred (fps : ℚ) (b : TimedBatch) : Prop where
  last : ∀ t ∈ (b.times fps).getLast?, t = b.captureTime
  apart : (b.times fps).IsChain fun t t' => t' - t = frameInterval fps

/-- The urgent batch is not longer than the normal one; without a capture time there is nothing to
infer for more than one frame. -/
def Covered (b : TimedBatch) : Prop :=
  b.frames = [] ∨
    if b.captureTime = 0 then b.frames.length = 1 else b.urgents.length ≤ b.frames.length

/-- The second batch is captured as long after the first as its frames take. -/
def Later (fps : ℚ) (b b' : TimedBatch) : Prop :=
  (b.captureTime : ℚ) + b'.frames.length * frameInterval fps ≤ b'.captureTime

/-- Consecutive batches are captured far enough apart. -/
def Spaced (fps : ℚ) (bs : List TimedBatch) : Prop := bs.IsChain (Later fps)

theorem Covered.times_eq {fps : ℚ} {b : TimedBatch} (h : b.Covered) :
    b.times fps = (List.range b.frames.length).map fun i : ℕ =>
      (b.captureTime : ℚ) - (b.frames.length - 1) * frameInterval fps + i * frameInterval fps := by
  rw [TimedBatch.times_eq]
  refine map_congr_left fun i hi => ?_
  have hi := mem_range.mp hi
  rcases h with hnil | h
  · simp [hnil] at hi
  split at h
  · rename_i hzero
    obtain rfl : i = 0 := by omega
    simp [inferTime, hzero, h]
  · rename_i hne
    rw [inferTime_exact hne, Nat.max_eq_right h, Nat.cast_sub (by omega), Nat.cast_one]

theorem inferred_iff {fps : ℚ} (hfps : 0 < fps) (b : TimedBatch) : Inferred fps b ↔ b.Covered := by
  have hpos : 0 < frameInterval fps := div_pos (by norm_num [nsecPerSec]) hfps
  constructor
  · intro h
    refine (eq_nil_or_concat b.frames).imp_right fun ⟨init, k, hframes⟩ => ?_
    have hlength : b.frames.length = init.length + 1 := by simp [hframes]
    have hlast := h.last
    have hchain := h.apart
    rw [TimedBatch.times_eq, hlength] at hlast hchain
    rw [range_succ, map_append, map_singleton, getLast?_concat] at hlast
    have hlast := hlast _ rfl
    split
    · rename_i hzero
      by_contra hmore
      -- two frames without a capture time have the same time
      have hdiff := hchain.getElem 0 (by simp; omega)
      simp only [getElem_map, getElem_range, inferTime, hzero, if_true, sub_zero] at hdiff
      exact absurd hdiff.symm (ne_of_gt hpos)
    · rename_i hne
      rw [inferTime_exact hne] at hlast
      have hmul : (((max b.urgents.length (init.length + 1) - 1 : ℕ) : ℚ) - init.length) *
          frameInterval fps = 0 := by linarith
      rcases mul_eq_zero.mp hmul with hsame | hzero
      · have hcast : ((max b.urgents.length (init.length + 1) - 1 : ℕ) : ℚ) = (init.length : ℕ) := by
          linarith
        have heq : max b.urgents.length (init.length + 1) - 1 = init.length := by
          exact_mod_cast hcast
        omega
      · exact absurd hzero (ne_of_gt hpos)
  · intro h
    constructor
    · intro t ht
      rw [h.times_eq] at ht
      rcases eq_nil_or_concat b.frames with hnil | ⟨init, k, hframes⟩
      · simp [hnil] at ht
      · have hlength : b.frames.length = init.length + 1 := by simp [hframes]
        rw [hlength, range_succ, map_append, map_singleton, getLast?_concat] at ht
        cases ht
        push_cast
        ring
    · rw [h.times_eq, isChain_iff_getElem]
      intro i hi
      simp only [getElem_map, getElem_range]
      push_cast
      ring

/-- **Times of batches.** The frames of all batches are dated as they should be, and increasingly where
the batches are captured far enough apart, exactly if no urgent batch is longer than the normal one
that it travels with. -/
theorem times_inferred_iff {fps : ℚ} (hfps : 0 < fps) (bs : List TimedBatch) :
    ((∀ b ∈ bs, Inferred fps b) ∧ (Spaced fps bs → (bs.flatMap (times fps)).Pairwise (· < ·))) ↔
      ∀ b ∈ bs, b.Covered := by
  have hpos : 0 < frameInterval fps := div_pos (by norm_num [nsecPerSec]) hfps
  refine ⟨fun h b hb => (inferred_iff hfps b).mp (h.1 b hb), fun h =>
    ⟨fun b hb => (inferred_iff hfps b).mpr (h b hb), fun hspaced => ?_⟩⟩
  have htrans : Trans (Later fps) (Later fps) (Later fps) := ⟨fun {b b' b''} h₁ h₂ => by
    rw [Later] at h₁ h₂ ⊢
    have hnonneg : 0 ≤ (b'.frames.length : ℚ) * frameInterval fps := by positivity
    linarith⟩
  rw [pairwise_flatMap]
  constructor
  · intro b hb
    rw [(h b hb).times_eq, pairwise_map]
    refine pairwise_lt_range.imp fun {i j} hij => ?_
    have hcast : (i : ℚ) < j := by exact_mod_cast hij
    have hmul := mul_lt_mul_of_pos_right hcast hpos
    linarith
  · have hpair : bs.Pairwise (Later fps) := hspaced.pairwise
    refine hpair.imp_of_mem fun {b b'} hb hb' hlater t ht t' ht' => ?_
    rw [Later] at hlater
    rw [(h b hb).times_eq] at ht
    rw [(h b' hb').times_eq] at ht'
    obtain ⟨i, hi, rfl⟩ := mem_map.mp ht
    obtain ⟨j, -, rfl⟩ := mem_map.mp ht'
    have hi : (i : ℚ) + 1 ≤ b.frames.length := by exact_mod_cast mem_range.mp hi
    have hmul := mul_le_mul_of_nonneg_right hi (le_of_lt hpos)
    have hnonneg : 0 ≤ (j : ℚ) * frameInterval fps := by positivity
    linarith

/-- The numbers of an urgent and of a normal batch in one metadata buffer. -/
def both (urgents frames : List ℕ) (captureTime : ℤ) : TimedBatch where
  m := { urgentFrameNumber := some 0, frameNumber := some 0 }
  urgents := urgents
  frames := frames
  captureTime := captureTime
  valid := rfl
  urgents_nil := nofun
  frames_nil := nofun

/-- Two full batches at 120 frames a second. -/
theorem times_inferred_full : (((both [4, 5, 6, 7] [0, 1, 2, 3] 100000000).times 120) ++
      ((both [8, 9] [4, 5, 6, 7] 140000000).times 120)).Pairwise (· < ·) := by
  have hcovered : ∀ b ∈ [both [4, 5, 6, 7] [0, 1, 2, 3] 100000000, both [8, 9] [4, 5, 6, 7] 140000000], b.Covered := by
    intro b hb
    rcases mem_pair.mp hb with rfl | rfl <;> exact .inr (by decide)
  have hspaced : Spaced 120 [both [4, 5, 6, 7] [0, 1, 2, 3] 100000000, both [8, 9] [4, 5, 6, 7] 140000000] := by
    simp only [Spaced, isChain_cons_cons, isChain_singleton, and_true, Later, both, frameInterval, nsecPerSec]
    norm_num
  have hincreasing := ((times_inferred_iff (by norm_num) _).mpr hcovered).2 hspaced
  simpa using hincreasing

/-- With two urgent numbers the one normal frame is dated a frame interval too early. -/
theorem not_times_inferred : ¬ ∀ (fps : ℚ) (bs : List TimedBatch), 0 < fps →
    (∀ b ∈ bs, Inferred fps b) ∧ (Spaced fps bs → (bs.flatMap (times fps)).Pairwise (· < ·)) := by
  intro hall
  have hone := (hall 100 [both [4, 5] [0] 100000000] (by norm_num)).1 _ mem_cons_self
  have hlast := hone.last (inferTime id 100 100000000 2 0) (by rw [times_eq]; rfl)
  rw [inferTime_exact (by decide), frameInterval, nsecPerSec] at hlast
  norm_num [both] at hlast

end TimedBatch

end Marlin
