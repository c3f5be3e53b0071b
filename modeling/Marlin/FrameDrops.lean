import Mathlib.Data.List.Count
import Marlin.MetadataParts

/-!
# The Dropped Frames of a Metadata Buffer

Metadata names the streams that dropped a frame. `handleMetadataWithLock` reports each of them to the
framework, for every request that it goes over, and notes it in `mPendingFrameDropList`, so that the
buffer is returned with an error. This module says what the parts of the handler report, note and
return.

## Conventions

* The pair of a frame and a stream is an output buffer of a request. The ids that the backend gives to
  streams differ.

## Main results

* `takeBuffers_drops`: what is returned of the cached buffers, and which notes are left.
* `reports_metadataEntry`, `notes_metadataEntry`, `statuses_metadataEntry`: a turn of the loop.
* `metadataTurns_drops`: the loop, for a request that it goes over.
-/

open List Ledger

namespace Marlin

/-- The buffers that a call to the framework returns, each with whether its status is an error. -/
def Callback.statuses : Callback → List (Out × Bool)
  | .result r => r.outputBuffers.map fun b => (bufferOut r.frameNumber b, b.error)
  | _ => []

theorem Callback.statuses_outs (c : Callback) : c.statuses.map Prod.fst = c.outs := by
  cases c with
  | result r => exact map_map
  | shutter n => rfl
  | errorDevice => rfl
  | errorRequest n => rfl
  | errorResult n => rfl
  | errorBuffer n stream => rfl

theorem Callback.frame_statuses {c : Callback} {x : Out × Bool} (hx : x ∈ c.statuses) : c.frame = some x.1.frame := by
  cases c with
  | result r =>
    obtain ⟨b, -, rfl⟩ := mem_map.mp hx
    rfl
  | _ => exact absurd hx not_mem_nil

namespace HardwareInterface

/-! ### A pair of a frame and a stream -/

/-- How often the framework was told that the frame was dropped for the stream. -/
def reports (s : HardwareInterface) (f stream : ℕ) : ℕ := s.sent.count (.errorBuffer f stream)

/-- How many entries of the dropped frames refer to the frame and the stream. -/
def notes (s : HardwareInterface) (f stream : ℕ) : ℕ :=
  s.mPendingFrameDropList.countP fun m => m.streamID == s.streamID stream && m.frameNumber == f

/-- The buffers that were returned, each with whether its status is an error. -/
def statuses (s : HardwareInterface) : List (Out × Bool) := s.sent.flatMap Callback.statuses

/-- No buffer of the map has an error. -/
def CleanMap (map : List PendingBuffersInRequest) : Prop :=
  ∀ req ∈ map, ∀ k ∈ req.pendingBufferList, k.bufStatus = false

/-- The status of a buffer is none. -/
theorem CleanMap.status {map : List PendingBuffersInRequest} (h : CleanMap map) (buffer : ℕ) :
    getBufErrStatus map buffer = false := by
  rw [getBufErrStatus]
  cases hfind : (map.flatMap PendingBuffersInRequest.pendingBufferList).find? (fun k => k.buffer == buffer) with
  | none => rfl
  | some k =>
    obtain ⟨req, hreq, hk⟩ := mem_flatMap.mp (mem_of_find?_eq_some hfind)
    exact h req hreq k hk

theorem CleanMap.removeBuf {map : List PendingBuffersInRequest} (h : CleanMap map) (buffer : ℕ) :
    CleanMap (removeBuf buffer map) := by
  induction map with
  | nil => exact h
  | cons req reqs ih =>
    have hreqs : CleanMap reqs := fun e he => h e (mem_cons_of_mem _ he)
    rw [Marlin.removeBuf]
    split
    · dsimp only
      split
      · exact hreqs
      · intro e he k hk
        rcases mem_cons.mp he with rfl | he
        · exact h req mem_cons_self k (mem_of_mem_eraseP hk)
        · exact hreqs e he k hk
    · intro e he
      rcases mem_cons.mp he with rfl | he
      · exact h e mem_cons_self
      · exact ih hreqs e he

/-! ### Buffers are returned -/

section Take

variable {s : HardwareInterface} {n : ℕ}

theorem countP_eraseP_self {α : Type*} (p : α → Bool) (l : List α) : (l.eraseP p).countP p = l.countP p - 1 := by
  induction l with
  | nil => rfl
  | cons a l ih =>
    by_cases ha : p a = true
    · rw [eraseP_cons_of_pos ha, countP_cons_of_pos ha, Nat.add_sub_cancel]
    · rw [eraseP_cons_of_neg ha, countP_cons_of_neg ha, countP_cons_of_neg ha, ih]

theorem countP_eraseP_other {α : Type*} {p q : α → Bool} (h : ∀ a, p a = true → ¬ q a = true)
    (l : List α) : (l.eraseP p).countP q = l.countP q := by
  induction l with
  | nil => rfl
  | cons a l ih =>
    by_cases ha : p a = true
    · rw [eraseP_cons_of_pos ha, countP_cons_of_neg (h a ha)]
    · rw [eraseP_cons_of_neg ha, countP_cons, countP_cons, ih]

theorem takeFrameDrop_fst (s : HardwareInterface) (stream f : ℕ) :
    (s.takeFrameDrop stream f).1 = decide (0 < s.notes f stream) := by
  rw [takeFrameDrop, Bool.eq_iff_iff, decide_eq_true_iff, notes, countP_pos_iff, any_eq_true]

theorem notes_takeFrameDrop (hid : Function.Injective s.streamID) (stream f g other : ℕ) :
    (s.takeFrameDrop stream f).2.notes g other = s.notes g other - if g = f ∧ other = stream then 1 else 0 := by
  have hother (h : ¬ (g = f ∧ other = stream)) (m : PendingFrameDropInfo)
      (hm : (m.streamID == s.streamID stream && m.frameNumber == f) = true) :
      ¬ (m.streamID == s.streamID other && m.frameNumber == g) = true := by
    simp only [Bool.and_eq_true, beq_iff_eq] at hm ⊢
    rintro ⟨hstream, hframe⟩
    exact h ⟨hframe.symm.trans hm.2, hid (hstream.symm.trans hm.1)⟩
  rw [takeFrameDrop, notes, notes]
  dsimp only
  by_cases hsame : g = f ∧ other = stream
  · rw [if_pos hsame, hsame.1, hsame.2, countP_eraseP_self]
  · rw [if_neg hsame, Nat.sub_zero, countP_eraseP_other (hother hsame)]

/-- **The cached buffers of a request are returned**: each takes a note of its stream with the frame
number of the metadata, and has an error then. -/
theorem takeBuffers_drops (hid : Function.Injective s.streamID)
    (hmap : CleanMap s.mPendingBuffersMap) {bs : List StreamBuffer}
    (hbs : (bs.map StreamBuffer.stream).Nodup) :
    (takeBuffers n bs s).1 = bs.map (fun b => { b with error := b.error || decide (0 < s.notes n b.stream) }) ∧
      CleanMap (takeBuffers n bs s).2.mPendingBuffersMap ∧
      ∀ f stream, (takeBuffers n bs s).2.notes f stream =
        s.notes f stream - if f = n ∧ stream ∈ bs.map StreamBuffer.stream then 1 else 0 := by
  induction bs generalizing s with
  | nil => exact ⟨rfl, hmap, fun f stream => by simp [takeBuffers]⟩
  | cons b bs ih =>
    obtain ⟨hb, hbs⟩ := nodup_cons.mp hbs
    have hnotes (f stream : ℕ) : (s.takeBuffer n b).2.notes f stream =
        s.notes f stream - if f = n ∧ stream = b.stream then 1 else 0 :=
      notes_takeFrameDrop hid b.stream n f stream
    have hone : (s.takeBuffer n b).1 = { b with error := b.error || decide (0 < s.notes n b.stream) } := by
      rw [takeBuffer]
      dsimp only
      rw [takeFrameDrop_fst, show getBufErrStatus (s.takeFrameDrop b.stream n).2.mPendingBuffersMap
        b.buffer = false from hmap.status b.buffer, Bool.or_false]
    obtain ⟨htaken, hclean, hleft⟩ := ih (s := (s.takeBuffer n b).2) hid (hmap.removeBuf b.buffer) hbs
    rw [takeBuffers]
    refine ⟨?_, hclean, fun f stream => ?_⟩
    · dsimp only
      rw [htaken, hone, map_cons]
      refine congrArg (cons _) (map_congr_left fun c hc => ?_)
      have hne : c.stream ≠ b.stream := fun heq => hb (heq ▸ mem_map.mpr ⟨c, hc, rfl⟩)
      rw [hnotes, if_neg fun hsame => hne hsame.2, Nat.sub_zero]
    · dsimp only
      rw [hleft, hnotes, Nat.sub_sub]
      refine congrArg (s.notes f stream - ·) ?_
      simp only [map_cons, mem_cons]
      by_cases hstream : stream = b.stream
      · rw [hstream]
        by_cases hf : f = n <;> simp [hf, hb]
      · simp [hstream]

end Take

/-! ### A turn of the loop -/

theorem count_resultCalls (n : ℕ) (i : PendingRequestInfo) (bs : List StreamBuffer)
    (f stream : ℕ) : (resultCalls n i bs).count (.errorBuffer f stream) = 0 := by
  refine count_eq_zero.mpr fun hc => ?_
  rw [resultCalls, mem_append, mem_append] at hc
  rcases hc with (hc | hc) | hc
  all_goals
    split at hc
    · cases mem_singleton.mp hc
    · cases hc

theorem statuses_resultCalls (n : ℕ) (i : PendingRequestInfo) (bs : List StreamBuffer) :
    (resultCalls n i bs).flatMap Callback.statuses = bs.map fun b => (bufferOut i.frameNumber b, b.error) := by
  have hnone (p : Prop) [Decidable p] (c : Callback) (hc : c.statuses = []) :
      (if p then [c] else []).flatMap Callback.statuses = [] := by
    split
    · rw [flatMap_cons, hc]
      rfl
    · rfl
  rw [resultCalls, flatMap_append, flatMap_append, hnone _ _ rfl, hnone _ _ rfl]
  split
  · exact append_nil _
  · rename_i hempty
    rw [not_or, not_not] at hempty
    rw [hempty.1]
    rfl

theorem count_droppedStreams (i : PendingRequestInfo) (streams : List ℕ) (f stream : ℕ) :
    (streams.map (Callback.errorBuffer i.frameNumber)).count (.errorBuffer f stream) =
      if i.frameNumber = f then streams.count stream else 0 := by
  split
  · rename_i hf
    have hinj : Function.Injective (Callback.errorBuffer i.frameNumber) := fun a b h => by
      injection h
    rw [← hf, count_map_of_injective _ _ hinj]
  · rename_i hf
    refine count_eq_zero.mpr fun hmem => hf ?_
    obtain ⟨_, -, heq⟩ := mem_map.mp hmem
    injection heq

section Turn

variable {s : HardwareInterface} {m : MetadataInfo} {n f : ℕ}

/-- **What a turn reports.** -/
theorem reports_metadataEntry (hf : ∀ j ∈ s.mPendingReprocessResultList, j.frameNumber ≠ f)
    (i : PendingRequestInfo) (stream : ℕ) :
    (s.metadataEntry m n i).reports f stream = s.reports f stream +
      if i.frameNumber = f then (s.droppedStreams m.frameDrop i).count stream else 0 := by
  obtain ⟨calls, hsent, hcalls⟩ := sent_metadataEntry s m n i
  have hresult : (if Stays n i then [] else resultCalls n (counted i) (s.takenBuffers m n i)).count
      (.errorBuffer f stream) = 0 := by
    split
    · rfl
    · exact count_resultCalls n _ _ f stream
  have hreproc : calls.count (.errorBuffer f stream) = 0 := by
    refine count_eq_zero.mpr fun hmem => ?_
    obtain ⟨j, hj, hframe⟩ := (hcalls _ hmem).1
    exact hf j hj (Option.some.inj hframe).symm
  rw [reports, hsent, count_append, count_append, count_append, hresult, hreproc, count_droppedStreams]
  rfl

/-- **What a turn returns.** -/
theorem statuses_metadataEntry (hf : ∀ j ∈ s.mPendingReprocessResultList, j.frameNumber ≠ f)
    (i : PendingRequestInfo) {x : Out × Bool} (hx : x.1.frame = f) :
    x ∈ (s.metadataEntry m n i).statuses ↔ x ∈ s.statuses ∨
      ¬ Stays n i ∧ ∃ b ∈ s.takenBuffers m n i, (bufferOut i.frameNumber b, b.error) = x := by
  obtain ⟨calls, hsent, hcalls⟩ := sent_metadataEntry s m n i
  have hdrops : x ∉ ((s.droppedStreams m.frameDrop i).map
      (Callback.errorBuffer i.frameNumber)).flatMap Callback.statuses := by
    intro hmem
    obtain ⟨c, hc, hx⟩ := mem_flatMap.mp hmem
    obtain ⟨stream, -, rfl⟩ := mem_map.mp hc
    exact absurd hx not_mem_nil
  have hreproc : x ∉ calls.flatMap Callback.statuses := by
    intro hmem
    obtain ⟨c, hc, hstatus⟩ := mem_flatMap.mp hmem
    obtain ⟨j, hj, hframe⟩ := (hcalls c hc).1
    rw [Callback.frame_statuses hstatus, hx] at hframe
    exact hf j hj (Option.some.inj hframe).symm
  have hresult : x ∈ (if Stays n i then [] else
      resultCalls n (counted i) (s.takenBuffers m n i)).flatMap Callback.statuses ↔
        ¬ Stays n i ∧ ∃ b ∈ s.takenBuffers m n i, (bufferOut i.frameNumber b, b.error) = x := by
    split
    · rename_i hstays
      simp [hstays]
    · rename_i hstays
      rw [statuses_resultCalls, mem_map]
      exact ⟨fun h => ⟨hstays, h⟩, And.right⟩
  rw [statuses, hsent, flatMap_append, flatMap_append, flatMap_append, mem_append, mem_append, mem_append, hresult]
  exact ⟨fun h => h.elim (·.imp_left (·.resolve_right hdrops)) fun h => absurd h hreproc,
    fun h => .inl (h.imp_left .inl)⟩

theorem handlePendingReprocResults_frame (s : HardwareInterface) (frameNumber : ℕ) :
    s.handlePendingReprocResults frameNumber = { s with
      mPendingRequestsList := (s.handlePendingReprocResults frameNumber).mPendingRequestsList
      mPendingReprocessResultList :=
        (s.handlePendingReprocResults frameNumber).mPendingReprocessResultList
      sent := (s.handlePendingReprocResults frameNumber).sent } := by
  rw [handlePendingReprocResults]
  split
  · dsimp only
    split <;> rfl
  · rfl

theorem notes_reportFrameDrops (hid : Function.Injective s.streamID) (frameDrop : List ℕ)
    (i : PendingRequestInfo) (stream : ℕ) :
    (s.reportFrameDrops frameDrop i).notes f stream = s.notes f stream +
      if i.frameNumber = f then (s.droppedStreams frameDrop i).count stream else 0 := by
  have hnotes : (s.reportFrameDrops frameDrop i).mPendingFrameDropList = s.mPendingFrameDropList ++
      (s.droppedStreams frameDrop i).map fun k => ⟨i.frameNumber, s.streamID k⟩ := rfl
  have hsame : (s.reportFrameDrops frameDrop i).streamID = s.streamID := rfl
  rw [notes, hnotes, hsame, countP_append, countP_map]
  refine congrArg (s.notes f stream + ·) ?_
  split
  · rename_i hf
    refine countP_congr fun k _ => ?_
    simp [hf, hid.eq_iff]
  · rename_i hf
    refine countP_eq_zero.mpr fun k _ => ?_
    simp [hf]

/-- The streams of the cached buffers of a request differ. -/
def CachedOnce (i : PendingRequestInfo) : Prop :=
  ((cachedBuffers i).map StreamBuffer.stream).Nodup

variable {i : PendingRequestInfo}

theorem takenBuffers_eq (hid : Function.Injective s.streamID)
    (hmap : CleanMap s.mPendingBuffersMap) (hi : CachedOnce i) :
    s.takenBuffers m n i = (cachedBuffers i).map fun b =>
      { b with error := b.error || decide (0 < s.notes n b.stream +
        if i.frameNumber = n then (s.droppedStreams m.frameDrop i).count b.stream else 0) } := by
  rw [takenBuffers, (takeBuffers_drops (s := s.reportFrameDrops m.frameDrop (counted i)) hid hmap hi).1]
  refine map_congr_left fun b _ => ?_
  rw [notes_reportFrameDrops hid]
  rfl

/-- **What a turn notes.** -/
theorem notes_metadataEntry (hid : Function.Injective s.streamID)
    (hmap : CleanMap s.mPendingBuffersMap) (hi : CachedOnce i)
    (stream : ℕ) :
    (s.metadataEntry m n i).notes f stream = s.notes f stream +
      (if i.frameNumber = f then (s.droppedStreams m.frameDrop i).count stream else 0) -
        if ¬ Stays n i ∧ f = n ∧ stream ∈ (cachedBuffers i).map StreamBuffer.stream then 1 else 0 := by
  have hreport := notes_reportFrameDrops (f := f) hid m.frameDrop (counted i) stream
  rw [metadataEntry_eq]
  split
  · rename_i hstays
    simp only [hstays, not_true_eq_false, false_and, if_false, Nat.sub_zero]
    exact hreport
  · rename_i hstays
    have hleft := (takeBuffers_drops (s := s.reportFrameDrops m.frameDrop (counted i)) (n := n) hid
      hmap hi).2.2 f stream
    have hsame : ((s.answered m n i).handlePendingReprocResults (n + 1)).notes f stream =
        (takeBuffers n (cachedBuffers i) (s.reportFrameDrops m.frameDrop (counted i))).2.notes f stream := by
      rw [handlePendingReprocResults_frame, answered, sendMetadataResult_eq]
      rfl
    rw [hsame, hleft, hreport]
    simp only [hstays, not_false_eq_true, true_and]
    rfl

theorem clean_metadataEntry (hid : Function.Injective s.streamID)
    (hmap : CleanMap s.mPendingBuffersMap) (hi : CachedOnce i) :
    CleanMap (s.metadataEntry m n i).mPendingBuffersMap ∧ (s.metadataEntry m n i).streamID = s.streamID := by
  rw [metadataEntry_eq]
  split
  · exact ⟨hmap, rfl⟩
  · rw [handlePendingReprocResults_frame, answered, sendMetadataResult_eq, takeBuffers_frame]
    exact ⟨(takeBuffers_drops (s := s.reportFrameDrops m.frameDrop (counted i)) hid hmap hi).2.1, rfl⟩

/-! ### The turns of the loop -/

variable {l : List PendingRequestInfo}

theorem clean_metadataTurns (hid : Function.Injective s.streamID) (hmap : CleanMap s.mPendingBuffersMap)
    (hl : ∀ i ∈ l, CachedOnce i) :
    CleanMap (metadataTurns m n l s).mPendingBuffersMap ∧ (metadataTurns m n l s).streamID = s.streamID := by
  induction l generalizing s with
  | nil => exact ⟨hmap, rfl⟩
  | cons i l ih =>
    obtain ⟨hclean, hsame⟩ :=
      clean_metadataEntry (m := m) (n := n) hid hmap (hl i mem_cons_self)
    obtain ⟨hclean', hsame'⟩ :=
      ih (hsame ▸ hid) hclean fun k hk => hl k (mem_cons_of_mem _ hk)
    exact ⟨hclean', hsame'.trans hsame⟩

theorem told_metadataTurns_other (hl : ∀ i ∈ l, i.frameNumber ≠ f)
    (hf : ∀ j ∈ s.mPendingReprocessResultList, j.frameNumber ≠ f) :
    (∀ stream, (metadataTurns m n l s).reports f stream = s.reports f stream) ∧ ∀ x : Out × Bool, x.1.frame = f →
        (x ∈ (metadataTurns m n l s).statuses ↔ x ∈ s.statuses) := by
  induction l generalizing s with
  | nil => exact ⟨fun _ => rfl, fun _ _ => Iff.rfl⟩
  | cons i l ih =>
    have hi := hl i mem_cons_self
    obtain ⟨hreports, hstatuses⟩ := ih (fun k hk => hl k (mem_cons_of_mem _ hk))
      fun j hj => hf j (results_metadataEntry s m n i hj)
    refine ⟨fun stream => (hreports stream).trans ?_, fun x hx => (hstatuses x hx).trans ?_⟩
    · rw [reports_metadataEntry hf, if_neg hi, Nat.add_zero]
    · rw [statuses_metadataEntry hf i hx, or_iff_left]
      rintro ⟨-, b, -, hb⟩
      rw [← hb] at hx
      exact hi hx

theorem notes_metadataTurns_le (hid : Function.Injective s.streamID) (hmap : CleanMap s.mPendingBuffersMap)
    (hl : ∀ i ∈ l, i.frameNumber ≠ f) (honce : ∀ i ∈ l, CachedOnce i) (stream : ℕ) :
    (metadataTurns m n l s).notes f stream ≤ s.notes f stream := by
  induction l generalizing s with
  | nil => exact Nat.le_refl _
  | cons i l ih =>
    have hi := honce i mem_cons_self
    obtain ⟨hclean, hsame⟩ := clean_metadataEntry (m := m) (n := n) hid hmap hi
    refine (ih (hsame ▸ hid) hclean (fun k hk => hl k (mem_cons_of_mem _ hk))
      fun k hk => honce k (mem_cons_of_mem _ hk)).trans ?_
    rw [notes_metadataEntry hid hmap hi, if_neg (hl i mem_cons_self)]
    exact Nat.sub_le _ _

theorem notes_metadataTurns_eq (hid : Function.Injective s.streamID) (hmap : CleanMap s.mPendingBuffersMap)
    (hl : ∀ i ∈ l, i.frameNumber ≠ f ∧ (f = n → Stays n i)) (honce : ∀ i ∈ l, CachedOnce i)
    (stream : ℕ) : (metadataTurns m n l s).notes f stream = s.notes f stream := by
  induction l generalizing s with
  | nil => rfl
  | cons i l ih =>
    have hi := honce i mem_cons_self
    obtain ⟨hother, hstays⟩ := hl i mem_cons_self
    obtain ⟨hclean, hsame⟩ := clean_metadataEntry (m := m) (n := n) hid hmap hi
    refine (ih (hsame ▸ hid) hclean (fun k hk => hl k (mem_cons_of_mem _ hk))
      fun k hk => honce k (mem_cons_of_mem _ hk)).trans ?_
    rw [notes_metadataEntry hid hmap hi, if_neg hother, if_neg fun h => h.1 (hstays h.2.1), Nat.add_zero, Nat.sub_zero]

/-- **The turns of the loop, for a live request among them** whose drops are named once, and not for
its cached buffers if it is older than the metadata. -/
theorem metadataTurns_drops (hid : Function.Injective s.streamID)
    (hmap : CleanMap s.mPendingBuffersMap) {l' : List PendingRequestInfo}
    (hsorted : (l ++ i :: l').Pairwise fun i k => i.frameNumber < k.frameNumber)
    (hn : ∀ k ∈ l ++ i :: l', k.frameNumber ≤ n) (honce : ∀ k ∈ l ++ i :: l', CachedOnce k)
    (hlive : i.inputBuffer = none)
    (hresults : ∀ j ∈ s.mPendingReprocessResultList, j.frameNumber ≠ i.frameNumber)
    (hnone : ∀ stream, s.notes i.frameNumber stream = 0) (hnone' : ∀ stream, s.notes n stream = 0)
    (hcached : i.frameNumber < n → ∀ b ∈ cachedBuffers i, b.stream ∉ s.droppedStreams m.frameDrop i)
    (hdrops : (s.droppedStreams m.frameDrop i).Nodup) :
    (∀ stream, (metadataTurns m n (l ++ i :: l') s).reports i.frameNumber stream =
        s.reports i.frameNumber stream + (s.droppedStreams m.frameDrop i).count stream) ∧
      (∀ stream, (metadataTurns m n (l ++ i :: l') s).notes i.frameNumber stream =
        if stream ∈ (cachedBuffers i).map StreamBuffer.stream then 0
        else (s.droppedStreams m.frameDrop i).count stream) ∧
      ∀ x : Out × Bool, x.1.frame = i.frameNumber →
        (x ∈ (metadataTurns m n (l ++ i :: l') s).statuses ↔ x ∈ s.statuses ∨
          ∃ b ∈ cachedBuffers i, (bufferOut i.frameNumber b, b.error ||
            decide (0 < (s.droppedStreams m.frameDrop i).count b.stream)) = x) := by
  obtain ⟨-, hlater, hearlier⟩ := pairwise_append.mp hsorted
  obtain ⟨hlater, -⟩ := pairwise_cons.mp hlater
  have hi : CachedOnce i := honce i (by simp)
  have hle : i.frameNumber ≤ n := hn i (by simp)
  have hbefore (k : PendingRequestInfo) (hk : k ∈ l) : k.frameNumber < i.frameNumber :=
    hearlier k hk i mem_cons_self
  have honce₁ (k : PendingRequestInfo) (hk : k ∈ l) : CachedOnce k := honce k (by simp [hk])
  have honce₂ (k : PendingRequestInfo) (hk : k ∈ l') : CachedOnce k := honce k (by simp [hk])
  have hstays : ¬ Stays n i := fun h => by simp [Stays, hlive] at h
  have hcount {b : StreamBuffer} (hb : b ∈ cachedBuffers i) (hne : i.frameNumber ≠ n) :
      (s.droppedStreams m.frameDrop i).count b.stream = 0 :=
    count_eq_zero.mpr (hcached (by omega) b hb)
  have hturns : metadataTurns m n (l ++ i :: l') s =
      metadataTurns m n l' ((metadataTurns m n l s).metadataEntry m n i) := by
    simp [metadataTurns]
  rw [hturns]
  -- the turns before
  obtain ⟨hmap₁, hid₁⟩ := clean_metadataTurns (m := m) (n := n) hid hmap honce₁
  obtain ⟨hreports₁, hstatuses₁⟩ := told_metadataTurns_other (m := m) (n := n)
    (fun k hk => Nat.ne_of_lt (hbefore k hk)) hresults
  have hnone₁ (g : ℕ) (hg : i.frameNumber ≤ g) (hzero : ∀ stream, s.notes g stream = 0)
      (stream : ℕ) : (metadataTurns m n l s).notes g stream = 0 := by
    have hle := notes_metadataTurns_le (m := m) (n := n) (f := g) hid hmap
      (fun k hk => by have := hbefore k hk; omega) honce₁ stream
    exact Nat.le_zero.mp (hzero stream ▸ hle)
  have hresults₁ : ∀ j ∈ (metadataTurns m n l s).mPendingReprocessResultList,
      j.frameNumber ≠ i.frameNumber := fun j hj => hresults j (results_metadataTurns s m n l hj)
  have hdropped : (metadataTurns m n l s).droppedStreams m.frameDrop i =
      s.droppedStreams m.frameDrop i := by rw [droppedStreams, droppedStreams, hid₁]
  generalize metadataTurns m n l s = u at hmap₁ hid₁ hreports₁ hstatuses₁ hnone₁ hresults₁ hdropped
  -- its own turn
  have hid₂ : Function.Injective u.streamID := hid₁ ▸ hid
  obtain ⟨hmap₃, hid₃⟩ := clean_metadataEntry (m := m) (n := n) hid₂ hmap₁ hi
  -- the turns after
  obtain ⟨hreports₃, hstatuses₃⟩ := told_metadataTurns_other (m := m) (n := n)
    (s := u.metadataEntry m n i) (fun k hk => Nat.ne_of_gt (hlater k hk))
    fun j hj => hresults₁ j (results_metadataEntry u m n i hj)
  have hnotes₃ (stream : ℕ) := notes_metadataTurns_eq (m := m) (n := n)
    (s := u.metadataEntry m n i) (f := i.frameNumber) (hid₃ ▸ hid₂) hmap₃
    (fun k hk => ⟨Nat.ne_of_gt (hlater k hk), fun heq => by
      have := hlater k hk
      have := hn k (by simp [hk])
      omega⟩) honce₂ stream
  refine ⟨fun stream => ?_, fun stream => ?_, fun x hx => ?_⟩
  · rw [hreports₃, reports_metadataEntry hresults₁, if_pos rfl, hreports₁, hdropped]
  · rw [hnotes₃, notes_metadataEntry hid₂ hmap₁ hi, hnone₁ _ (Nat.le_refl _) hnone, if_pos rfl, hdropped, Nat.zero_add]
    by_cases hstream : stream ∈ (cachedBuffers i).map StreamBuffer.stream
    · rw [if_pos hstream]
      by_cases hne : i.frameNumber = n
      · rw [if_pos ⟨hstays, hne, hstream⟩]
        have := nodup_iff_count_le_one.mp hdrops stream
        omega
      · obtain ⟨b, hb, rfl⟩ := mem_map.mp hstream
        rw [hcount hb hne, Nat.zero_sub]
    · rw [if_neg hstream, if_neg fun h => hstream h.2.2, Nat.sub_zero]
  · rw [hstatuses₃ x hx, statuses_metadataEntry hresults₁ i hx, hstatuses₁ x hx]
    refine or_congr_right ?_
    have herror {b : StreamBuffer} (hb : b ∈ cachedBuffers i) : (u.notes n b.stream +
        if i.frameNumber = n then (u.droppedStreams m.frameDrop i).count b.stream else 0) =
          (s.droppedStreams m.frameDrop i).count b.stream := by
      rw [hnone₁ n hle hnone', hdropped, Nat.zero_add]
      split
      · rfl
      · rename_i hne
        exact (hcount hb hne).symm
    rw [takenBuffers_eq hid₂ hmap₁ hi]
    constructor
    · rintro ⟨-, b', hb', rfl⟩
      obtain ⟨b, hb, rfl⟩ := mem_map.mp hb'
      refine ⟨b, hb, ?_⟩
      rw [herror hb]
      rfl
    · rintro ⟨b, hb, rfl⟩
      refine ⟨hstays, _, mem_map.mpr ⟨b, hb, rfl⟩, ?_⟩
      rw [herror hb]
      rfl

end Turn

/-! ### The other parts -/

theorem outputs_urgentResult {m : MetadataInfo} {i : PendingRequestInfo} {c : Callback}
    (hc : c ∈ urgentResult m i) : ∃ r, c = .result r ∧ r.outputBuffers = [] := by
  rw [urgentResult] at hc
  cases hurgent : m.urgentNumber with
  | none =>
    rw [hurgent] at hc
    exact absurd hc not_mem_nil
  | some urgent =>
    rw [hurgent, Option.elim_some, urgentCalls] at hc
    split at hc
    · exact ⟨_, mem_singleton.mp hc, rfl⟩
    · exact absurd hc not_mem_nil

theorem told_append {s t : HardwareInterface} {calls : List Callback} (hsent : t.sent = s.sent ++ calls) {f : ℕ}
    (hdrop : ∀ stream, Callback.errorBuffer f stream ∉ calls)
    (hstatus : ∀ c ∈ calls, ∀ x ∈ c.statuses, x.1.frame ≠ f) :
    (∀ stream, t.reports f stream = s.reports f stream) ∧
      ∀ x : Out × Bool, x.1.frame = f → (x ∈ t.statuses ↔ x ∈ s.statuses) := by
  refine ⟨fun stream => ?_, fun x hx => ?_⟩
  · rw [reports, hsent, count_append, count_eq_zero.mpr (hdrop stream)]
    rfl
  · rw [statuses, hsent, flatMap_append, mem_append, or_iff_left]
    · rfl
    · intro hmem
      obtain ⟨c, hc, hxc⟩ := mem_flatMap.mp hmem
      exact hstatus c hc x hxc hx

theorem told_urgentPart {s : HardwareInterface} (m : MetadataInfo)
    (hs : s.mPendingRequestsList.Pairwise fun i k => i.frameNumber < k.frameNumber) (f : ℕ) :
    (∀ stream, (s.urgentPart m).reports f stream = s.reports f stream) ∧
      ∀ x : Out × Bool, x.1.frame = f → (x ∈ (s.urgentPart m).statuses ↔ x ∈ s.statuses) := by
  have hsent : (s.urgentPart m).sent =
      s.sent ++ s.mPendingRequestsList.flatMap (urgentResult m) := by rw [urgentPart_eq m hs]
  have hresult {c : Callback} (hc : c ∈ s.mPendingRequestsList.flatMap (urgentResult m)) :
      ∃ r, c = .result r ∧ r.outputBuffers = [] := by
    obtain ⟨i, -, hc⟩ := mem_flatMap.mp hc
    exact outputs_urgentResult hc
  refine told_append hsent (fun stream hc => ?_) fun c hc x hx => ?_
  · obtain ⟨r, hr, -⟩ := hresult hc
    cases hr
  · obtain ⟨r, rfl, hnone⟩ := hresult hc
    rw [Callback.statuses, hnone] at hx
    exact absurd hx not_mem_nil

theorem droppedStreams_urgentEntry (s : HardwareInterface) (m : MetadataInfo) (frameDrop : List ℕ)
    (i : PendingRequestInfo) :
    s.droppedStreams frameDrop (urgentEntry m i) = s.droppedStreams frameDrop i := by
  rw [droppedStreams, droppedStreams, (urgentEntry_kept m i).2.2]

theorem cachedBuffers_urgentEntry (m : MetadataInfo) (i : PendingRequestInfo) :
    cachedBuffers (urgentEntry m i) = cachedBuffers i := by
  rw [cachedBuffers, cachedBuffers, (urgentEntry_kept m i).2.2]

end HardwareInterface

end Marlin
