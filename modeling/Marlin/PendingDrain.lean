import Marlin.CaptureKeeps

/-!
# What the Walk over the Map Returns

`notifyErrorForPendingRequests` returns the buffers of the map with one result for each entry.
It takes the requests from the head of their list as it meets their numbers, which empties the
list if the map has an entry for every request.

## Main results

* `notifyErrorLoop_outs`: the walk returns the buffers of the map, as errors.
* `notifyErrorLoop_eq`: the calls of the walk, where the map has an entry for every request.
* `ledger_notifyError`: the ledger is flushed.
-/

open List Ledger

namespace Marlin

/-- The buffers that a call to the framework returns as errors. -/
def Callback.errorOuts : Callback → List Out
  | .result r => (r.outputBuffers.filter StreamBuffer.error).map (bufferOut r.frameNumber)
  | _ => []

/-- The input buffer that a call to the framework returns, with its frame. -/
def Callback.inputs : Callback → List (ℕ × StreamBuffer)
  | .result r => (r.inputBuffer.map fun b => (r.frameNumber, b)).toList
  | _ => []

namespace HardwareInterface

/-! ### The buffers -/

theorem bufferOut_errorBuffers (e : PendingBuffersInRequest) :
    (errorBuffers e).map (bufferOut e.frameNumber) = mapOuts [e] := by
  simp [errorBuffers, mapOuts, bufferOut, Function.comp_def]

theorem filter_errorBuffers (e : PendingBuffersInRequest) :
    (errorBuffers e).filter StreamBuffer.error = errorBuffers e := by
  simp [errorBuffers]

theorem outs_errorBuffer (frameNumber : ℕ) (l : List PendingBufferInfo) :
    (l.map fun k => Callback.errorBuffer frameNumber k.stream).flatMap Callback.outs = [] ∧
      (l.map fun k => Callback.errorBuffer frameNumber k.stream).flatMap Callback.errorOuts = [] := by
  simp [flatMap_map, Callback.outs, Callback.errorOuts]

/-- The walk over the map returns its buffers, as errors. -/
theorem notifyErrorLoop_outs (frameNum : ℕ) (map : List PendingBuffersInRequest)
    (input : Option StreamBuffer) (s : HardwareInterface) :
    ∃ calls, (notifyErrorLoop frameNum map input s).sent = s.sent ++ calls ∧ calls.flatMap Callback.outs = mapOuts map ∧
      calls.flatMap Callback.errorOuts = mapOuts map := by
  induction map generalizing input s with
  | nil => exact ⟨[], (append_nil _).symm, rfl, rfl⟩
  | cons e map ih =>
    rw [notifyErrorLoop]
    have houts := bufferOut_errorBuffers e
    have hbuf := outs_errorBuffer e.frameNumber e.pendingBufferList
    have hcons : mapOuts (e :: map) = mapOuts [e] ++ mapOuts map := by simp [mapOuts]
    split
    · obtain ⟨calls, hsent, h₁, h₂⟩ := ih input (s.notifyErrorBuffers e input)
      refine ⟨_, by rw [hsent, notifyErrorBuffers, append_assoc, append_assoc], ?_, ?_⟩
      · rw [flatMap_append, flatMap_append, hbuf.1, h₁, hcons]
        simp [Callback.outs, houts]
      · rw [flatMap_append, flatMap_append, hbuf.2, h₂, hcons]
        simp [Callback.errorOuts, filter_errorBuffers, houts]
    · obtain ⟨calls, hsent, h₁, h₂⟩ := ih (s.matchingInput e) (s.notifyErrorRequest e)
      refine ⟨_, by rw [hsent, notifyErrorRequest, append_assoc], ?_, ?_⟩
      · rw [flatMap_append, h₁, hcons]
        simp [Callback.outs, houts]
      · rw [flatMap_append, h₂, hcons]
        simp [Callback.errorOuts, filter_errorBuffers, houts]

/-! ### The requests -/

/-- The calls for an entry of the map. -/
def drainCalls (frameNum : ℕ) (requests : List PendingRequestInfo) (e : PendingBuffersInRequest) : List Callback :=
  if e.frameNumber < frameNum then
    e.pendingBufferList.map (fun info => .errorBuffer e.frameNumber info.stream) ++
      [.result { frameNumber := e.frameNumber, outputBuffers := errorBuffers e }]
  else
    [.errorRequest e.frameNumber,
      .result
        { frameNumber := e.frameNumber
          outputBuffers := errorBuffers e
          inputBuffer := (requests.find? fun i => i.frameNumber == e.frameNumber).bind
            PendingRequestInfo.inputBuffer }]

variable {e : PendingBuffersInRequest}

theorem drainCalls_cons_of_ne {frameNum : ℕ} {i : PendingRequestInfo} {requests : List PendingRequestInfo}
    (h : i.frameNumber ≠ e.frameNumber) :
    drainCalls frameNum (i :: requests) e = drainCalls frameNum requests e := by
  simp [drainCalls, h]

theorem notifyErrorLoop_rest (frameNum : ℕ) (map : List PendingBuffersInRequest)
    (input : Option StreamBuffer) (s : HardwareInterface) :
    notifyErrorLoop frameNum map input s = { s with
        mPendingRequestsList := (notifyErrorLoop frameNum map input s).mPendingRequestsList
        sent := (notifyErrorLoop frameNum map input s).sent } := by
  induction map generalizing input s with
  | nil => rfl
  | cons e map ih =>
    rw [notifyErrorLoop]
    split
    · rw [ih]
      rfl
    · rw [ih]
      rfl

theorem notifyError_rest (s : HardwareInterface) : s.notifyErrorForPendingRequests = { s with
      mPendingRequestsList := s.notifyErrorForPendingRequests.mPendingRequestsList
      mPendingFrameDropList := []
      mPendingBuffersMap := []
      mPendingReprocessResultList := []
      sent := s.notifyErrorForPendingRequests.sent } := by
  rw [notifyErrorForPendingRequests, notifyErrorLoop_rest]

variable {s : HardwareInterface}

theorem notifyErrorRequest_head {i : PendingRequestInfo} {is : List PendingRequestInfo}
    (hlist : s.mPendingRequestsList = i :: is) (hi : i.frameNumber = e.frameNumber) :
      (s.notifyErrorRequest e).mPendingRequestsList = is ∧ s.matchingInput e = i.inputBuffer := by
  constructor
  · simp [notifyErrorRequest, hlist, hi]
  · simp [matchingInput, hlist, Option.filter, hi]

theorem notifyErrorRequest_absent (hne : ∀ i ∈ s.mPendingRequestsList, i.frameNumber ≠ e.frameNumber) :
    (s.notifyErrorRequest e).mPendingRequestsList = s.mPendingRequestsList ∧ s.matchingInput e = none := by
  cases hlist : s.mPendingRequestsList with
  | nil => simp [notifyErrorRequest, matchingInput, hlist]
  | cons k ks =>
    have hk : k.frameNumber ≠ e.frameNumber := hne k (by simp [hlist])
    simp [notifyErrorRequest, matchingInput, hlist, hk]

theorem head_or_absent {map : List PendingBuffersInRequest}
    {requests : List PendingRequestInfo} (he : ∀ e' ∈ map, e.frameNumber < e'.frameNumber)
    (hreq : requests.Pairwise fun i k => i.frameNumber < k.frameNumber)
    (hcover : ∀ i ∈ requests, ∃ e' ∈ e :: map, e'.frameNumber = i.frameNumber) :
    (∃ i is, requests = i :: is ∧ i.frameNumber = e.frameNumber) ∨ ∀ i ∈ requests, i.frameNumber ≠ e.frameNumber := by
  cases requests with
  | nil => exact .inr nofun
  | cons k ks =>
    by_cases hk : k.frameNumber = e.frameNumber
    · exact .inl ⟨k, ks, rfl, hk⟩
    · refine .inr fun i hi heq => ?_
      have hle : k.frameNumber ≤ i.frameNumber := by
        rcases mem_cons.mp hi with rfl | hi
        · exact Nat.le_refl _
        · exact Nat.le_of_lt ((pairwise_cons.mp hreq).1 i hi)
      obtain ⟨e', he', heq'⟩ := hcover k mem_cons_self
      rcases mem_cons.mp he' with rfl | he'
      · exact hk heq'.symm
      · have := he e' he'
        omega

/-- The map has an entry for every request: the walk takes all requests, each with its
entry. -/
theorem notifyErrorLoop_eq {frameNum : ℕ} {map : List PendingBuffersInRequest}
    (input : Option StreamBuffer) (s : HardwareInterface)
    (hmap : map.Pairwise fun e e' => e.frameNumber < e'.frameNumber)
    (hreq : s.mPendingRequestsList.Pairwise fun i k => i.frameNumber < k.frameNumber)
    (hold : ∀ i ∈ s.mPendingRequestsList, frameNum ≤ i.frameNumber)
    (hcover : ∀ i ∈ s.mPendingRequestsList, ∃ e ∈ map, e.frameNumber = i.frameNumber)
    (hinput : input = none ∨ ∀ e ∈ map, frameNum ≤ e.frameNumber) :
    (notifyErrorLoop frameNum map input s).mPendingRequestsList = [] ∧
      (notifyErrorLoop frameNum map input s).sent =
        s.sent ++ map.flatMap (drainCalls frameNum s.mPendingRequestsList) := by
  induction map generalizing input s with
  | nil =>
    rw [notifyErrorLoop]
    refine ⟨eq_nil_iff_forall_not_mem.mpr fun i hi => ?_, by simp⟩
    obtain ⟨e, he, -⟩ := hcover i hi
    exact not_mem_nil he
  | cons e map ih =>
    obtain ⟨he, hmap⟩ := pairwise_cons.mp hmap
    rw [notifyErrorLoop]
    split
    · rename_i hlt
      have hnone : input = none := by
        refine hinput.resolve_right fun hall => ?_
        exact absurd (hall e (by simp)) (Nat.not_le_of_gt hlt)
      have hrest := ih input (s.notifyErrorBuffers e input) hmap hreq hold ?_ (.inl hnone)
      · refine ⟨hrest.1, ?_⟩
        rw [hrest.2, flatMap_cons, drainCalls, if_pos hlt, hnone]
        simp [notifyErrorBuffers]
      · rintro i hi
        obtain ⟨e', he', heq⟩ := hcover i hi
        rcases mem_cons.mp he' with rfl | he'
        · exact absurd (hold i hi) (by omega)
        · exact ⟨e', he', heq⟩
    · rename_i hge
      have hlater : ∀ e' ∈ map, frameNum ≤ e'.frameNumber := by
        rintro e' he'
        have := he e' he'
        omega
      -- The head has the least number of the list, and so has the entry of the map.
      rcases head_or_absent he hreq hcover with ⟨i, is, hlist, hi⟩ | hne
      · obtain ⟨htail, hmatch⟩ := notifyErrorRequest_head hlist hi
        rw [hlist] at hreq hold hcover
        obtain ⟨hlt, hreq⟩ := pairwise_cons.mp hreq
        have hrest := ih (s.matchingInput e) (s.notifyErrorRequest e) hmap
          (htail ▸ hreq) (htail ▸ fun k hk => hold k (mem_cons_of_mem _ hk)) ?_
          (.inr hlater)
        · refine ⟨hrest.1, ?_⟩
          have hcalls : map.flatMap (drainCalls frameNum (i :: is)) =
              map.flatMap (drainCalls frameNum is) := by
            refine flatMap_congr fun e' he' => drainCalls_cons_of_ne ?_
            have := he e' he'
            omega
          rw [hrest.2, htail, flatMap_cons, hlist, hcalls, drainCalls, if_neg hge]
          simp [notifyErrorRequest, hmatch, hi]
        · rw [htail]
          rintro k hk
          obtain ⟨e', he', heq⟩ := hcover k (mem_cons_of_mem _ hk)
          have := hlt k hk
          rcases mem_cons.mp he' with rfl | he'
          · omega
          · exact ⟨e', he', heq⟩
      · obtain ⟨htail, hmatch⟩ := notifyErrorRequest_absent hne
        have hfind : s.mPendingRequestsList.find? (fun i => i.frameNumber == e.frameNumber) =
            none := by
          simpa using hne
        have hrest := ih (s.matchingInput e) (s.notifyErrorRequest e) hmap
          (htail ▸ hreq) (htail ▸ hold) ?_ (.inr hlater)
        · refine ⟨hrest.1, ?_⟩
          rw [hrest.2, htail, flatMap_cons, drainCalls, if_neg hge, hfind]
          simp [notifyErrorRequest, hmatch]
        · rw [htail]
          rintro k hk
          obtain ⟨e', he', heq⟩ := hcover k hk
          rcases mem_cons.mp he' with rfl | he'
          · exact absurd heq.symm (hne k hk)
          · exact ⟨e', he', heq⟩

/-! ### The drained lists -/

/-- The calls that were added from `s` to `s'`. -/
def newCalls (s s' : HardwareInterface) : List Callback := s'.sent.drop s.sent.length

theorem newCalls_eq {s' : HardwareInterface} {calls : List Callback}
    (h : s'.sent = s.sent ++ calls) : newCalls s s' = calls := by
  rw [newCalls, h, drop_left]

/-- Every pending request has an entry in the map. -/
def Covered (s : HardwareInterface) : Prop :=
  ∀ i ∈ s.mPendingRequestsList, ∃ e ∈ s.mPendingBuffersMap, e.frameNumber = i.frameNumber

theorem oldestFrameNum_le (hreq : s.mPendingRequestsList.Pairwise fun i k => i.frameNumber < k.frameNumber) :
    ∀ i ∈ s.mPendingRequestsList, s.oldestFrameNum ≤ i.frameNumber := by
  rintro i hi
  rw [oldestFrameNum]
  cases hlist : s.mPendingRequestsList with
  | nil => simp [hlist] at hi
  | cons k ks =>
    rw [hlist] at hi hreq
    rcases mem_cons.mp hi with rfl | hi
    · exact Nat.le_refl _
    · exact Nat.le_of_lt ((pairwise_cons.mp hreq).1 i hi)

theorem notifyError_outs (s : HardwareInterface) : (newCalls s s.notifyErrorForPendingRequests).flatMap Callback.outs =
        mapOuts s.mPendingBuffersMap ∧
      (newCalls s s.notifyErrorForPendingRequests).flatMap Callback.errorOuts = mapOuts s.mPendingBuffersMap := by
  obtain ⟨calls, hsent, h₁, h₂⟩ := notifyErrorLoop_outs s.oldestFrameNum s.mPendingBuffersMap none s
  have hcalls : newCalls s s.notifyErrorForPendingRequests = calls := newCalls_eq hsent
  exact ⟨hcalls ▸ h₁, hcalls ▸ h₂⟩

theorem notifyError_eq (hmap : MapOrdered s.mPendingBuffersMap)
    (hreq : s.mPendingRequestsList.Pairwise fun i k => i.frameNumber < k.frameNumber)
    (hcover : s.Covered) :
    s.notifyErrorForPendingRequests = { s with
        mPendingRequestsList := []
        mPendingBuffersMap := []
        mPendingReprocessResultList := []
        mPendingFrameDropList := []
        sent := s.sent ++ s.mPendingBuffersMap.flatMap (drainCalls s.oldestFrameNum s.mPendingRequestsList) } := by
  obtain ⟨hlist, hsent⟩ := notifyErrorLoop_eq none s hmap.sorted hreq (oldestFrameNum_le hreq) hcover (.inl rfl)
  rw [notifyErrorForPendingRequests, notifyErrorLoop_rest, hlist, hsent]

theorem covered {queued entered : List Out}
    (h : (s.ledger queued entered).Sound) (hheld : s.mPendingReprocessResultList = []) :
    s.Covered := by
  rintro i hi
  have hmem : ledgerReq i ∈ (s.ledger queued entered).requests := mem_map.mpr ⟨i, hi, rfl⟩
  obtain ⟨o, ho, hframe⟩ := h.present _ hmem
  have hlisted : o ∈ mapOuts s.mPendingBuffersMap := by
    refine h.listed.mem_iff.mpr ?_
    simp only [ledger, hheld, map_nil, append_nil, mem_append] at ho ⊢
    rcases ho with ho | ho
    · exact .inl ho
    · exact .inr (mem_flatMap.mpr ⟨_, hmem, ho⟩)
  obtain ⟨e, he, ho⟩ := mem_flatMap.mp hlisted
  obtain ⟨k, -, rfl⟩ := mem_map.mp ho
  exact ⟨e, he, hframe⟩

/-- Where no reprocess result is held, the ledger is flushed. -/
theorem ledger_notifyError {queued entered : List Out}
    (h : (s.ledger queued entered).Sound) (hmap : MapOrdered s.mPendingBuffersMap)
    (hheld : s.mPendingReprocessResultList = []) :
    s.notifyErrorForPendingRequests.ledger [] entered = (s.ledger queued entered).flush := by
  have houts := (notifyError_outs s).1
  have heq := notifyError_eq hmap (sorted_requests h) (covered h hheld)
  have hcalls : newCalls s s.notifyErrorForPendingRequests = s.mPendingBuffersMap.flatMap
      (drainCalls s.oldestFrameNum s.mPendingRequestsList) :=
    newCalls_eq (by rw [heq])
  rw [hcalls] at houts
  rw [heq]
  simp [ledger, BufferLedger.flush, houts, mapOuts]

end HardwareInterface

end Marlin
