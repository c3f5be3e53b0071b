import Mathlib.Data.List.TakeWhile
import Marlin.BatchMetadata

/-!
# The Parts of `handleMetadataWithLock`

A metadata buffer has two frame numbers. For the urgent one, `handleMetadataWithLock` sends a partial
result; for the normal one it goes over the requests up to it, which each get their result, or stay.
This module says of each part, and of the other handlers, which requests it works on and what it
tells the framework.

## Main results

* `handleUrgent_eq`, `metadataEntry_eq`, `metadataLoop_eq`, `handleMetadata_eq`: the parts, one after
  the other.
* `sendMetadataResult_eq`, `sent_metadataEntry`, `metadataTurns_told`: what is sent.
* `handleBuffer_told`, `handleInputBuffer_told`, `remarked_processCaptureRequest`: the other
  handlers, and the requests.
-/

open List Outcome

namespace Marlin

/-- The frame that a call to the framework is about. -/
def Callback.frame : Callback → Option ℕ
  | .shutter n => some n
  | .errorDevice => none
  | .errorRequest n => some n
  | .errorResult n => some n
  | .errorBuffer n _ => some n
  | .result r => some r.frameNumber

namespace HardwareInterface

/-! ### Urgent metadata -/

/-- Urgent metadata of a later frame: the request missed its own. -/
def Misses (urgent : ℕ) (i : PendingRequestInfo) : Prop :=
  i.inputBuffer = none ∧ i.frameNumber < urgent ∧ i.partialResultCnt = 0
deriving Decidable

/-- A request after the urgent metadata of a frame. -/
def afterUrgent (urgent : ℕ) (i : PendingRequestInfo) : PendingRequestInfo :=
  if Misses urgent i then { i with partialResultDropped := true, partialResultCnt := 1 }
  else if i.frameNumber = urgent ∧ i.bUrgentReceived = false then
    { i with partialResultCnt := i.partialResultCnt + 1, bUrgentReceived := true }
  else i

/-- The partial result of a request with the urgent metadata of a frame. -/
def urgentCalls (urgent : ℕ) (i : PendingRequestInfo) : List Callback :=
  if i.frameNumber = urgent ∧ i.bUrgentReceived = false then
    [.result { frameNumber := urgent, partialResult := i.partialResultCnt + 1, metadata := true }]
  else []

variable {i : PendingRequestInfo}

theorem afterUrgent_later {urgent : ℕ} (h : urgent < i.frameNumber) :
    afterUrgent urgent i = i ∧ urgentCalls urgent i = [] := by
  have hmiss : ¬ Misses urgent i := fun hm => by have := hm.2.1; omega
  have hother : ¬ (i.frameNumber = urgent ∧ i.bUrgentReceived = false) := fun ho => by omega
  rw [afterUrgent, urgentCalls, if_neg hmiss, if_neg hother, if_neg hother]
  exact ⟨rfl, rfl⟩

variable {l : List PendingRequestInfo}

/-- **The urgent metadata of a frame**, for requests in the order of their frames. -/
theorem handleUrgent_eq (urgent : ℕ) (hl : l.Pairwise fun i k => i.frameNumber < k.frameNumber) :
    handleUrgent urgent l = (l.map (afterUrgent urgent), l.flatMap (urgentCalls urgent)) := by
  induction l with
  | nil => rfl
  | cons i l ih =>
    obtain ⟨hi, hl⟩ := pairwise_cons.mp hl
    rw [handleUrgent, map_cons, flatMap_cons]
    dsimp only
    by_cases hmiss : i.inputBuffer = none ∧ i.frameNumber < urgent ∧ i.partialResultCnt = 0
    · have hafter : afterUrgent urgent i =
          { i with partialResultDropped := true, partialResultCnt := 1 } := if_pos hmiss
      have hother : ¬ (i.frameNumber = urgent ∧ i.bUrgentReceived = false) := fun ho => by
        have := hmiss.2.1
        omega
      rw [if_pos hmiss, if_neg hother, ih hl, hafter, urgentCalls, if_neg hother]
      rfl
    · have hafter : afterUrgent urgent i = if i.frameNumber = urgent ∧ i.bUrgentReceived = false
          then { i with partialResultCnt := i.partialResultCnt + 1, bUrgentReceived := true }
          else i := if_neg hmiss
      rw [if_neg hmiss, hafter, urgentCalls]
      split
      · rename_i hown
        have hlater (k : PendingRequestInfo) (hk : k ∈ l) :=
          afterUrgent_later (hown.1 ▸ hi k hk : urgent < k.frameNumber)
        rw [map_congr_left fun k hk => (hlater k hk).1, map_id', flatMap_eq_nil_iff.mpr fun k hk => (hlater k hk).2]
        rfl
      · rw [ih hl]
        rfl

theorem afterUrgent_kept (urgent : ℕ) (i : PendingRequestInfo) : (afterUrgent urgent i).frameNumber = i.frameNumber ∧
      (afterUrgent urgent i).inputBuffer = i.inputBuffer ∧
      (afterUrgent urgent i).buffers = i.buffers := by
  rw [afterUrgent]
  split
  · exact ⟨rfl, rfl, rfl⟩
  · split <;> exact ⟨rfl, rfl, rfl⟩

variable {c : Callback}

theorem frame_urgentCalls {urgent : ℕ} (hc : c ∈ urgentCalls urgent i) : c.frame = some i.frameNumber := by
  rw [urgentCalls] at hc
  split at hc
  · rename_i hown
    rw [mem_singleton.mp hc, hown.1]
    rfl
  · cases hc

/-! ### The result of a request -/

/-- The calls with the result of a request. -/
def resultCalls (n : ℕ) (i : PendingRequestInfo) (bs : List StreamBuffer) : List Callback :=
  (if i.frameNumber = n then [.shutter i.frameNumber] else []) ++
    (if i.frameNumber ≠ n ∨ i.partialResultDropped then [.errorResult i.frameNumber] else []) ++
      if bs ≠ [] ∨ ¬ (i.frameNumber ≠ n ∨ i.partialResultDropped) then
        [.result
          { frameNumber := i.frameNumber
            outputBuffers := bs
            inputBuffer := i.inputBuffer
            partialResult := i.partialResultCnt
            metadata := i.frameNumber == n }]
      else []

variable {n : ℕ}

theorem resultCalls_error (h : i.frameNumber ≠ n ∨ i.partialResultDropped = true) :
    resultCalls n i [] = (if i.frameNumber = n then [.shutter i.frameNumber] else []) ++
      [.errorResult i.frameNumber] := by
  simp [resultCalls, h]

theorem takeBuffers_frame (n : ℕ) (bs : List StreamBuffer) (s : HardwareInterface) : (takeBuffers n bs s).2 = { s with
      mPendingBuffersMap := (takeBuffers n bs s).2.mPendingBuffersMap
      mPendingFrameDropList := (takeBuffers n bs s).2.mPendingFrameDropList } := by
  induction bs generalizing s with
  | nil => rfl
  | cons b bs ih =>
    rw [takeBuffers]
    dsimp only
    rw [ih]
    rfl

theorem length_takeBuffers (n : ℕ) (bs : List StreamBuffer) (s : HardwareInterface) :
    (takeBuffers n bs s).1.length = bs.length := by
  induction bs generalizing s with
  | nil => rfl
  | cons b bs ih => exact congrArg Nat.succ (ih _)

theorem takeBuffers_rest (n : ℕ) (bs : List StreamBuffer) (s : HardwareInterface) (live : ℕ)
    (sent : List Callback) :
    takeBuffers n bs { s with mPendingLiveRequest := live, sent := sent } = ((takeBuffers n bs s).1,
        { (takeBuffers n bs s).2 with mPendingLiveRequest := live, sent := sent }) := by
  induction bs generalizing s with
  | nil => rfl
  | cons b bs ih =>
    rw [takeBuffers, takeBuffers]
    dsimp only
    have htake : ({ s with mPendingLiveRequest := live, sent := sent } :
        HardwareInterface).takeBuffer n b = ((s.takeBuffer n b).1,
          { (s.takeBuffer n b).2 with mPendingLiveRequest := live, sent := sent }) := rfl
    rw [htake, ih]

/-- **The result of a request**: its buffers are taken, and it is sent. -/
theorem sendMetadataResult_eq (s : HardwareInterface) (n : ℕ) (i : PendingRequestInfo) :
    s.sendMetadataResult n i = { (takeBuffers n (cachedBuffers i) s).2 with
      mPendingLiveRequest := decU32 s.mPendingLiveRequest
      sent := s.sent ++ resultCalls n i (takeBuffers n (cachedBuffers i) s).1 } := by
  have hsend (t : HardwareInterface) (c : Callback) (p : Prop) [Decidable p] :
      (if p then t.send c else t) = { t with sent := t.sent ++ if p then [c] else [] } := by
    split
    · rfl
    · rw [append_nil]
  rw [sendMetadataResult]
  simp only [hsend, takeBuffers_rest, resultCalls, append_assoc]
  by_cases hown : i.frameNumber = n
  · cases i.partialResultDropped <;> simp [hown]
  · simp [hown]

theorem frame_resultCalls {bs : List StreamBuffer} (hc : c ∈ resultCalls n i bs) : c.frame = some i.frameNumber := by
  rw [resultCalls, mem_append, mem_append] at hc
  rcases hc with (hc | hc) | hc
  all_goals
    split at hc
    · rw [mem_singleton.mp hc]
      rfl
    · cases hc

theorem metadata_resultCalls {bs : List StreamBuffer} {r : CaptureResult} (h : .result r ∈ resultCalls n i bs) :
    r.metadata = (i.frameNumber == n) := by
  rw [resultCalls, mem_append, mem_append] at h
  rcases h with (h | h) | h
  · split at h <;> simp at h
  · split at h <;> simp at h
  · split at h
    · rw [Callback.result.inj (mem_singleton.mp h)]
    · simp at h

/-! ### The loop over the requests -/

theorem sent_handlePendingReprocResults (s : HardwareInterface) (frameNumber : ℕ) :
    ∃ calls, (s.handlePendingReprocResults frameNumber).sent = s.sent ++ calls ∧
      ∀ c ∈ calls, (∃ j ∈ s.mPendingReprocessResultList, c.frame = some j.frameNumber) ∧
        ∀ r, c = .result r → r.metadata = true := by
  rw [handlePendingReprocResults]
  split
  · rename_i j hj
    have hframe : j.frameNumber = frameNumber := by simpa using find?_some hj
    have hmem := mem_of_find?_eq_some hj
    have hshutter : (Callback.shutter frameNumber).frame = some j.frameNumber :=
      congrArg some hframe.symm
    dsimp only
    split
    · rename_i k hk
      have hsame : k.frameNumber = j.frameNumber := by simpa using find?_some hk
      refine ⟨[.shutter frameNumber, .result _], append_assoc _ _ _, fun c hc => ?_⟩
      rcases mem_cons.mp hc with rfl | hc
      · exact ⟨⟨j, hmem, hshutter⟩, by rintro r ⟨⟩⟩
      · rw [mem_singleton.mp hc]
        refine ⟨⟨j, hmem, congrArg some hsame⟩, ?_⟩
        rintro r hr
        obtain rfl := Callback.result.inj hr
        rfl
    · refine ⟨[.shutter frameNumber], rfl, fun c hc => ?_⟩
      rw [mem_singleton.mp hc]
      exact ⟨⟨j, hmem, hshutter⟩, by rintro r ⟨⟩⟩
  · exact ⟨[], (append_nil _).symm, by rintro c ⟨⟩⟩

theorem sublist_handlePendingReprocResults (s : HardwareInterface) (frameNumber : ℕ) :
    (s.handlePendingReprocResults frameNumber).mPendingRequestsList.Sublist s.mPendingRequestsList ∧
      (s.handlePendingReprocResults frameNumber).mPendingReprocessResultList.Sublist s.mPendingReprocessResultList := by
  rw [handlePendingReprocResults]
  split
  · dsimp only
    split
    · exact ⟨eraseP_sublist, eraseP_sublist⟩
    · exact ⟨List.Sublist.refl _, eraseP_sublist⟩
  · exact ⟨List.Sublist.refl _, List.Sublist.refl _⟩

/-- The request that a turn of the loop works on. -/
def counted (i : PendingRequestInfo) : PendingRequestInfo :=
  { i with partialResultCnt := i.partialResultCnt + 1 }

/-- An older reprocess request stays. -/
def Stays (n : ℕ) (i : PendingRequestInfo) : Prop := i.frameNumber < n ∧ i.inputBuffer.isSome
deriving Decidable

/-- The state before the reprocess results of a turn: the request has its result and has left. -/
def answered (s : HardwareInterface) (m : MetadataInfo) (n : ℕ) (i : PendingRequestInfo) :
    HardwareInterface :=
  ((s.reportFrameDrops m.frameDrop (counted i)).sendMetadataResult n (counted i)).erasePendingRequest i.frameNumber

/-- **One turn of the loop**: an older reprocess request stays, another one gets its result. -/
theorem metadataEntry_eq (s : HardwareInterface) (m : MetadataInfo) (n : ℕ) (i : PendingRequestInfo) :
    s.metadataEntry m n i = if Stays n i then
        (s.reportFrameDrops m.frameDrop (counted i)).modifyRequest i.frameNumber fun _ => counted i
      else (s.answered m n i).handlePendingReprocResults (n + 1) := by
  rw [metadataEntry]
  by_cases hstays : Stays n i
  · rw [if_pos hstays]
    exact if_pos hstays
  · rw [if_neg hstays]
    refine (if_neg hstays).trans ?_
    change (if (s.answered m n i).mPendingReprocessResultList ≠ [] then
      (s.answered m n i).handlePendingReprocResults (n + 1) else s.answered m n i) = _
    split
    · rfl
    · rename_i hnone
      rw [handlePendingReprocResults, not_not.mp hnone]
      rfl

theorem answered_lists (s : HardwareInterface) (m : MetadataInfo) (n : ℕ) (i : PendingRequestInfo) :
    (s.answered m n i).mPendingRequestsList = s.mPendingRequestsList.eraseP (fun k => k.frameNumber == i.frameNumber) ∧
      (s.answered m n i).mPendingReprocessResultList = s.mPendingReprocessResultList := by
  rw [answered, sendMetadataResult_eq, takeBuffers_frame]
  exact ⟨rfl, rfl⟩

/-- The streams of a request that dropped its frame, for each time that they are named. -/
def droppedStreams (s : HardwareInterface) (frameDrop : List ℕ) (i : PendingRequestInfo) : List ℕ :=
  i.buffers.flatMap fun j => (frameDrop.filter fun k => k == s.streamID j.stream).map fun _ => j.stream

/-- The buffers of a request that are returned with its result. -/
def takenBuffers (s : HardwareInterface) (m : MetadataInfo) (n : ℕ) (i : PendingRequestInfo) : List StreamBuffer :=
  (takeBuffers n (cachedBuffers i) (s.reportFrameDrops m.frameDrop (counted i))).1

variable {s : HardwareInterface} {m : MetadataInfo}

theorem takenBuffers_eq_nil : s.takenBuffers m n i = [] ↔ cachedBuffers i = [] := by
  rw [← length_eq_zero_iff, takenBuffers, length_takeBuffers, length_eq_zero_iff]

theorem answered_sent (s : HardwareInterface) (m : MetadataInfo) (n : ℕ) (i : PendingRequestInfo) :
    (s.answered m n i).sent = s.sent ++ (s.droppedStreams m.frameDrop i).map (Callback.errorBuffer i.frameNumber) ++
      resultCalls n (counted i) (s.takenBuffers m n i) := by
  rw [answered, sendMetadataResult_eq]
  rfl

/-- What a turn sends: the drops, the result, and a reprocess result. -/
theorem sent_metadataEntry (s : HardwareInterface) (m : MetadataInfo) (n : ℕ) (i : PendingRequestInfo) :
    ∃ calls, (s.metadataEntry m n i).sent = s.sent ++
        (s.droppedStreams m.frameDrop i).map (Callback.errorBuffer i.frameNumber) ++
        (if Stays n i then [] else resultCalls n (counted i) (s.takenBuffers m n i)) ++ calls ∧
      ∀ c ∈ calls, (∃ j ∈ s.mPendingReprocessResultList, c.frame = some j.frameNumber) ∧
        ∀ r, c = .result r → r.metadata = true := by
  rw [metadataEntry_eq]
  split
  · exact ⟨[], by rw [append_nil, append_nil]; rfl, nofun⟩
  · obtain ⟨calls, hsent, hcalls⟩ := sent_handlePendingReprocResults (s.answered m n i) (n + 1)
    rw [(answered_lists s m n i).2] at hcalls
    rw [answered_sent] at hsent
    exact ⟨calls, hsent, hcalls⟩

variable {k : PendingRequestInfo}

theorem live_metadataEntry (hk : k ∈ (s.metadataEntry m n i).mPendingRequestsList)
    (hlive : k.inputBuffer = none) : k ∈ s.mPendingRequestsList := by
  rw [metadataEntry_eq] at hk
  split at hk
  · rename_i hstays
    obtain ⟨j, hj, rfl⟩ := mem_map.mp hk
    split at hlive
    · rw [show (counted i).inputBuffer = i.inputBuffer from rfl] at hlive
      rw [Stays, hlive] at hstays
      exact absurd hstays.2 (by simp)
    · rename_i hother
      rw [if_neg hother]
      exact hj
  · have hmem := (sublist_handlePendingReprocResults _ _).1.subset hk
    rw [(answered_lists s m n i).1] at hmem
    exact mem_of_mem_eraseP hmem

theorem results_metadataEntry (s : HardwareInterface) (m : MetadataInfo) (n : ℕ) (i : PendingRequestInfo) :
    (s.metadataEntry m n i).mPendingReprocessResultList ⊆ s.mPendingReprocessResultList := by
  rw [metadataEntry_eq]
  split
  · exact fun j hj => hj
  · have hsub := (sublist_handlePendingReprocResults (s.answered m n i) (n + 1)).2.subset
    rw [(answered_lists s m n i).2] at hsub
    exact hsub

/-- The turns of the loop, for the requests up to the frame number. -/
def metadataTurns (m : MetadataInfo) (n : ℕ) (l : List PendingRequestInfo)
    (s : HardwareInterface) : HardwareInterface :=
  l.foldl (fun s i => s.metadataEntry m n i) s

/-- **The loop** goes up to the frame number. -/
theorem metadataLoop_eq (m : MetadataInfo) (n : ℕ) (l : List PendingRequestInfo) (s : HardwareInterface) :
    metadataLoop m n l s = metadataTurns m n (l.takeWhile fun i => i.frameNumber ≤ n) s := by
  induction l generalizing s with
  | nil => rfl
  | cons i l ih =>
    rw [metadataLoop, takeWhile_cons]
    split
    · rename_i hlater
      rw [if_neg (by simpa using hlater)]
      rfl
    · rename_i hle
      rw [if_pos (by simpa using hle), ih]
      rfl

/-- What the calls of the turns have in common. -/
theorem metadataTurns_told {P : Callback → Prop} (hdrop : ∀ i ∈ l, ∀ stream, P (.errorBuffer i.frameNumber stream))
    (hresult : ∀ i ∈ l, ¬ Stays n i → ∀ bs, (bs = [] ↔ cachedBuffers i = []) → ∀ c ∈ resultCalls n (counted i) bs, P c)
    (hreproc : ∀ c, (∃ j ∈ s.mPendingReprocessResultList, c.frame = some j.frameNumber) →
      (∀ r, c = .result r → r.metadata = true) → P c)
    (hs : ∀ c ∈ s.sent, P c) : ∀ c ∈ (metadataTurns m n l s).sent, P c := by
  induction l generalizing s with
  | nil => exact hs
  | cons i l ih =>
    obtain ⟨calls, hsent, hcalls⟩ := sent_metadataEntry s m n i
    refine ih (fun k hk => hdrop k (mem_cons_of_mem _ hk)) (fun k hk => hresult k (mem_cons_of_mem _ hk))
      (fun c ⟨j, hj, hc⟩ => hreproc c ⟨j, results_metadataEntry s m n i hj, hc⟩) fun c hc => ?_
    rw [hsent, mem_append, mem_append, mem_append] at hc
    rcases hc with ((hc | hc) | hc) | hc
    · exact hs c hc
    · obtain ⟨stream, -, rfl⟩ := mem_map.mp hc
      exact hdrop i mem_cons_self stream
    · split at hc
      · cases hc
      · rename_i hstays
        exact hresult i mem_cons_self hstays _ takenBuffers_eq_nil c hc
    · exact hreproc c (hcalls c hc).1 (hcalls c hc).2

theorem live_metadataTurns (hk : k ∈ (metadataTurns m n l s).mPendingRequestsList)
    (hlive : k.inputBuffer = none) : k ∈ s.mPendingRequestsList := by
  induction l generalizing s with
  | nil => exact hk
  | cons i l ih => exact live_metadataEntry (ih hk) hlive

theorem results_metadataTurns (s : HardwareInterface) (m : MetadataInfo) (n : ℕ) (l : List PendingRequestInfo) :
    (metadataTurns m n l s).mPendingReprocessResultList ⊆ s.mPendingReprocessResultList := by
  induction l generalizing s with
  | nil => exact fun j hj => hj
  | cons i l ih => exact fun j hj => results_metadataEntry s m n i (ih _ hj)

/-! ### The two parts of a metadata buffer -/

/-- The urgent part of `handleMetadataWithLock`, if the urgent number is valid. -/
def urgentPart (s : HardwareInterface) (m : MetadataInfo) : HardwareInterface :=
  m.urgentNumber.elim s s.urgentMetadata

/-- A pending request after the urgent part. -/
def urgentEntry (m : MetadataInfo) (i : PendingRequestInfo) : PendingRequestInfo :=
  m.urgentNumber.elim i fun urgent => afterUrgent urgent i

/-- The partial result of a request in the urgent part. -/
def urgentResult (m : MetadataInfo) (i : PendingRequestInfo) : List Callback :=
  m.urgentNumber.elim [] fun urgent => urgentCalls urgent i

/-- The requests that a metadata buffer settles, for its frame number. -/
def upTo (n : ℕ) (l : List PendingRequestInfo) : List PendingRequestInfo :=
  l.takeWhile fun i => i.frameNumber ≤ n

/-- The part of `handleMetadataWithLock` for the frame number, if it is valid. -/
def normalPart (s : HardwareInterface) (m : MetadataInfo) : HardwareInterface :=
  m.number.elim s fun n => metadataTurns m n (upTo n s.mPendingRequestsList) s

theorem handleMetadata_open
    (hstate : ¬ (s.mFlushPerf = true ∨ s.mState = .error ∨ s.mState = .deinit)) (m : MetadataInfo) :
    s.handleMetadataWithLock m = ((s.urgentPart m).normalPart m).doneMetadata := by
  rw [handleMetadataWithLock, if_neg hstate, urgentPart, normalPart, MetadataInfo.urgentNumber, MetadataInfo.number]
  cases m.valid with
  | false => rfl
  | true =>
    rw [if_pos rfl, if_pos rfl, if_pos rfl]
    cases m.urgentFrameNumber <;> cases m.frameNumber <;>
      first | rfl | exact congrArg doneMetadata (metadataLoop_eq _ _ _ _)

/-- **The parts of `handleMetadataWithLock`.** -/
theorem handleMetadata_eq (hw : s.Working) (m : MetadataInfo) :
    s.handleMetadataWithLock m = ((s.urgentPart m).normalPart m).doneMetadata := by
  have hstate : ¬ (s.mFlushPerf = true ∨ s.mState = .error ∨ s.mState = .deinit) := by
    rcases hw.state with hst | hst <;> simp [hst, hw.flushPerf]
  exact handleMetadata_open hstate m

theorem urgentPart_eq (m : MetadataInfo)
    (hs : s.mPendingRequestsList.Pairwise fun i k => i.frameNumber < k.frameNumber) :
    s.urgentPart m = { s with
      mPendingRequestsList := s.mPendingRequestsList.map (urgentEntry m)
      sent := s.sent ++ s.mPendingRequestsList.flatMap (urgentResult m) } := by
  rw [urgentPart]
  cases hurgent : m.urgentNumber with
  | none =>
    have hentry : urgentEntry m = id := by
      funext i
      simp [urgentEntry, hurgent]
    have hresult : urgentResult m = fun _ => [] := by
      funext i
      simp [urgentResult, hurgent]
    have hnil : s.mPendingRequestsList.flatMap (fun _ => ([] : List Callback)) = [] :=
      flatMap_eq_nil_iff.mpr fun _ _ => rfl
    rw [hentry, hresult, map_id, hnil, append_nil]
    rfl
  | some urgent =>
    have hentry : urgentEntry m = afterUrgent urgent := by
      funext i
      simp [urgentEntry, hurgent]
    have hresult : urgentResult m = urgentCalls urgent := by
      funext i
      simp [urgentResult, hurgent]
    rw [Option.elim_some, urgentMetadata, handleUrgent_eq urgent hs, hentry, hresult]

theorem urgentEntry_kept (m : MetadataInfo) (i : PendingRequestInfo) :
    (urgentEntry m i).frameNumber = i.frameNumber ∧ (urgentEntry m i).inputBuffer = i.inputBuffer ∧
      (urgentEntry m i).buffers = i.buffers := by
  rw [urgentEntry]
  cases m.urgentNumber with
  | none => exact ⟨rfl, rfl, rfl⟩
  | some urgent => exact afterUrgent_kept urgent i

theorem mem_urgentResult (hc : c ∈ urgentResult m i) :
    c.frame = some i.frameNumber ∧ ∀ r, c = .result r → r.metadata = true := by
  rw [urgentResult] at hc
  cases hurgent : m.urgentNumber with
  | none =>
    rw [hurgent] at hc
    cases hc
  | some urgent =>
    rw [hurgent] at hc
    refine ⟨frame_urgentCalls hc, fun r hr => ?_⟩
    rw [Option.elim_some, urgentCalls] at hc
    split at hc
    · rw [hr] at hc
      obtain rfl := Callback.result.inj (mem_singleton.mp hc)
      rfl
    · cases hc

theorem mem_upTo (hl : l.Pairwise fun i k => i.frameNumber < k.frameNumber) :
    i ∈ upTo n l ↔ i ∈ l ∧ i.frameNumber ≤ n := by
  induction l with
  | nil => simp [upTo]
  | cons k l ih =>
    obtain ⟨hk, hl⟩ := pairwise_cons.mp hl
    rw [upTo, takeWhile_cons]
    split
    · rename_i hle
      rw [mem_cons, mem_cons]
      change i = k ∨ i ∈ upTo n l ↔ _
      rw [ih hl, or_and_right]
      exact or_congr_left ⟨fun h => ⟨h, by simpa [h] using hle⟩, And.left⟩
    · rename_i hlater
      have hlater : n < k.frameNumber := by simpa using hlater
      refine ⟨nofun, fun ⟨hmem, hle⟩ => ?_⟩
      rcases mem_cons.mp hmem with rfl | hmem
      · omega
      · have := hk i hmem
        omega

/-! ### Requests and buffers -/

/-- A request without its buffers. -/
def bare (i : PendingRequestInfo) : PendingRequestInfo := { i with buffers := [] }

/-- A request without the marks of the buffers that need metadata. -/
def unmarked (i : PendingRequestInfo) : PendingRequestInfo :=
  { i with buffers := i.buffers.map fun j => { j with needMetadata := false } }

theorem cachedBuffers_unmarked (i : PendingRequestInfo) : cachedBuffers (unmarked i) = cachedBuffers i := by
  rw [cachedBuffers, unmarked, filterMap_map]
  rfl

/-- The pending requests are the same but for their marks. -/
def Remarked (s t : HardwareInterface) : Prop :=
  t.mPendingRequestsList.map unmarked = s.mPendingRequestsList.map unmarked

theorem Remarked.origin {t : HardwareInterface} (h : Remarked s t) (hk : k ∈ t.mPendingRequestsList) :
    ∃ i ∈ s.mPendingRequestsList, bare i = bare k ∧ cachedBuffers i = cachedBuffers k := by
  have hmem : unmarked k ∈ t.mPendingRequestsList.map unmarked := mem_map.mpr ⟨k, hk, rfl⟩
  rw [show t.mPendingRequestsList.map unmarked = _ from h] at hmem
  obtain ⟨i, hi, hsame⟩ := mem_map.mp hmem
  have hbare : bare (unmarked i) = bare (unmarked k) := congrArg bare hsame
  refine ⟨i, hi, hbare, ?_⟩
  rw [← cachedBuffers_unmarked i, hsame, cachedBuffers_unmarked]

theorem remarked_submitRequest (calls : RequestCalls) (req : CaptureRequest) :
    Along Remarked (fun _ => True) (submitRequest calls req) := by
  have hmark (s : HardwareInterface) (frameNumber k : ℕ) (need : Bool) :
      Remarked s (s.markNeedMetadata frameNumber k need) := by
    rw [Remarked, markNeedMetadata, modifyRequest, map_map]
    refine map_congr_left fun i _ => ?_
    have hmodify (l : List RequestedBufferInfo) : (l.modify k fun j => { j with needMetadata := need }).map
            (fun j => { j with needMetadata := false }) =
          l.map fun j => { j with needMetadata := false } := by
      refine ext_getElem (by simp) fun n _ _ => ?_
      simp only [getElem_map, getElem_modify]
      split <;> rfl
    rw [Function.comp_apply]
    split
    · rw [unmarked, unmarked, hmodify]
    · rfl
  have hcount (s : HardwareInterface) (o : CaptureOutput) : Remarked s (s.countVideoBuffer o) := by
    rw [countVideoBuffer]
    split <;> rfl
  have htrans (s t u : HardwareInterface) (h₁ : Remarked s t) (h₂ : Remarked t u) : Remarked s u := h₂.trans h₁
  have houtputs (k n : ℕ) (l : List CaptureOutput) (s : HardwareInterface) :
      Meets (fun r => Remarked s r.2) (fun r => True ∧ Remarked s r.2) (requestOutputs calls req k l n s) := by
    induction l generalizing k n s with
    | nil => exact rfl
    | cons o l ih =>
      rw [requestOutputs]
      dsimp only
      split
      · rename_i answer _
        have hone := htrans _ _ _ (hcount s o)
          (hmark (s.countVideoBuffer o) req.frameNumber k (needsMetadata req o answer))
        exact (ih _ _ _).mono (fun r hr => htrans _ _ _ hone hr) fun r hr => ⟨trivial, htrans _ _ _ hone hr.2⟩
      · exact ⟨trivial, hcount s o⟩
  have hflush : Along Remarked (fun _ => True) checkFlush := by
    intro s
    rw [checkFlush]
    split <;> first | exact ⟨trivial, rfl⟩ | exact rfl
  have hreproc : Along Remarked (fun _ => True) (setReprocParameters calls req) := by
    intro s
    rw [setReprocParameters]
    split <;> first | exact ⟨trivial, rfl⟩ | exact rfl
  have hchannels : Along Remarked (fun _ => True) (requestChannels calls req) := by
    intro s
    refine (houtputs 0 0 req.outputs s).bind fun r hr => ?_
    obtain ⟨n, t⟩ := r
    dsimp only
    split
    · exact ⟨trivial, hr⟩
    · exact hr
  have hqueue : Along Remarked (fun _ => True) (queueSettings calls req) := by
    intro s
    rw [queueSettings]
    split
    · split
      · split <;> first | exact ⟨trivial, rfl⟩ | exact rfl
      · exact rfl
    · exact rfl
  have hstart : Along Remarked (fun _ => True)
      fun s : HardwareInterface => (.ok { s with mState := .started } : Section) := fun s => rfl
  exact hflush.bind htrans (hreproc.bind htrans (hchannels.bind htrans (hqueue.bind htrans hstart)))

/-- A request that the lists take is the last one, and the others stay as they are. -/
theorem remarked_processCaptureRequest {calls : RequestCalls} {req : CaptureRequest}
    {t : HardwareInterface} (h : prepareRequest calls req s = .ok t) :
    Remarked (insertRequest req t) (s.processCaptureRequest calls req).2 := by
  have hsubmit := remarked_submitRequest calls req (insertRequest req t)
  obtain ⟨hok, herror⟩ := processCaptureRequest_of_ok h
  cases hcase : submitRequest calls req (insertRequest req t) with
  | ok u =>
    rw [hok u hcase]
    exact hsubmit.ok hcase
  | error r =>
    rw [herror r hcase]
    exact (hsubmit.error hcase).2

/-- **A buffer**: the framework is told of its frame, with no metadata, or of the reprocess request
that it is the result of. -/
theorem handleBuffer_told (hw : s.Working) (b : StreamBuffer) (f : ℕ) :
    ∃ calls, (s.handleBufferWithLock b f).sent = s.sent ++ calls ∧
      (∀ c ∈ calls, (∃ o e, c = .result { frameNumber := f, outputBuffers := [⟨b.stream, o, e⟩] }) ∨
        ∃ i ∈ s.mPendingRequestsList, i.inputBuffer.isSome ∧ c.frame = some i.frameNumber ∧
          ∀ r, c = .result r → r.metadata = true) ∧
      (∀ k ∈ (s.handleBufferWithLock b f).mPendingRequestsList, ∃ i ∈ s.mPendingRequestsList, bare k = bare i) ∧
      ∀ j ∈ (s.handleBufferWithLock b f).mPendingReprocessResultList, j ∈ s.mPendingReprocessResultList ∨
          ∃ i ∈ s.mPendingRequestsList, i.inputBuffer.isSome ∧ i.frameNumber = j.frameNumber := by
  have hstate : ¬ (s.mState = .error ∨ s.mState = .deinit) := by
    rcases hw.state with hst | hst <;> simp [hst]
  rw [handleBufferWithLock, if_neg hstate, if_neg (by simp [hw.flushPerf])]
  split
  · refine ⟨_, rfl, fun c hc => ?_, fun k hk => ⟨k, hk, rfl⟩, fun j hj => .inl hj⟩
    rw [mem_singleton.mp hc]
    exact .inl ⟨_, _, rfl⟩
  · rename_i i hi
    have hmem := mem_of_find?_eq_some hi
    split
    · rename_i hreproc
      rw [handleReprocBuffer]
      dsimp only
      split
      · refine ⟨[], (append_nil _).symm, by rintro c ⟨⟩, fun k hk => ⟨k, hk, rfl⟩, fun j hj => ?_⟩
        rcases mem_append.mp hj with hj | hj
        · exact .inl hj
        · rw [mem_singleton.mp hj]
          exact .inr ⟨i, hmem, hreproc, rfl⟩
      · refine ⟨[.shutter i.frameNumber, .result _], append_assoc _ _ _, fun c hc => ?_,
          fun k hk => ⟨k, mem_of_mem_eraseP hk, rfl⟩, fun j hj => .inl hj⟩
        refine .inr ⟨i, hmem, hreproc, ?_⟩
        rcases mem_cons.mp hc with rfl | hc
        · exact ⟨rfl, by rintro r ⟨⟩⟩
        · rw [mem_singleton.mp hc]
          refine ⟨rfl, fun r hr => ?_⟩
          obtain rfl := Callback.result.inj hr
          rfl
    · refine ⟨[], (append_nil _).symm, by rintro c ⟨⟩, fun k hk => ?_, fun j hj => .inl hj⟩
      obtain ⟨i, hi, rfl⟩ := mem_map.mp hk
      refine ⟨i, hi, ?_⟩
      split <;> rfl

/-- **The input of a reprocess request**: the framework is told of that request. -/
theorem handleInputBuffer_told (s : HardwareInterface) (f : ℕ) :
    ∃ calls, (s.handleInputBufferWithLock f).sent = s.sent ++ calls ∧
      (∀ c ∈ calls, ∃ i ∈ s.mPendingRequestsList, i.inputBuffer.isSome ∧
        c.frame = some i.frameNumber ∧ ∀ r, c = .result r → r.metadata = true) ∧
      (∀ k ∈ (s.handleInputBufferWithLock f).mPendingRequestsList, ∃ i ∈ s.mPendingRequestsList, bare k = bare i) ∧
      (s.handleInputBufferWithLock f).mPendingReprocessResultList =
        s.mPendingReprocessResultList := by
  rw [handleInputBufferWithLock]
  split
  · rename_i i hi
    have hmem := mem_of_find?_eq_some hi
    have hframe : i.frameNumber = f := by simpa using find?_some hi
    split
    · rename_i hreproc
      have hresult : ∀ c ∈ [Callback.result
          { frameNumber := f
            inputBuffer := i.inputBuffer
            partialResult := partialResultCount
            metadata := true }], ∃ i ∈ s.mPendingRequestsList, i.inputBuffer.isSome ∧
          c.frame = some i.frameNumber ∧ ∀ r, c = .result r → r.metadata = true := by
        intro c hc
        rw [mem_singleton.mp hc]
        refine ⟨i, hmem, hreproc, congrArg some hframe.symm, fun r hr => ?_⟩
        obtain rfl := Callback.result.inj hr
        rfl
      dsimp only
      split
      · exact ⟨_, rfl, hresult, fun k hk => ⟨k, mem_of_mem_eraseP hk, rfl⟩, rfl⟩
      · refine ⟨.shutter f :: [_], append_assoc _ _ _, fun c hc => ?_, fun k hk => ⟨k, mem_of_mem_eraseP hk, rfl⟩, rfl⟩
        rcases mem_cons.mp hc with rfl | hc
        · exact ⟨i, hmem, hreproc, congrArg some hframe.symm, by rintro r ⟨⟩⟩
        · exact hresult c hc
    · exact ⟨[], (append_nil _).symm, by rintro c ⟨⟩, fun k hk => ⟨k, hk, rfl⟩, rfl⟩
  · exact ⟨[], (append_nil _).symm, by rintro c ⟨⟩, fun k hk => ⟨k, hk, rfl⟩, rfl⟩

end HardwareInterface

end Marlin
