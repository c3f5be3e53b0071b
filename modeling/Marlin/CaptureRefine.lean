import Marlin.LedgerSettled
import Marlin.CaptureRequest

/-!
# The HAL as a Ledger

The pending lists of the HAL, with the buffers that are still with the channels, are a ledger of
output buffers. Each handler is an event of the ledger.

## Main results

* `ledger_insertRequest`: a request that the lists take enters the ledger.
* `ledger_handleMetadata`, `ledger_handleInputBuffer`, `ledger_handleBuffer`: the handlers.
-/

open BufferLedger List Function Option Ledger

namespace Marlin

/-! ### The view -/

/-- A buffer of a frame. -/
def bufferOut (frameNumber : ℕ) (b : StreamBuffer) : Out := ⟨frameNumber, b.stream, b.buffer⟩

/-- The buffers of the map. -/
def mapOuts (map : List PendingBuffersInRequest) : List Out :=
  map.flatMap fun req => req.pendingBufferList.map fun k => ⟨req.frameNumber, k.stream, k.buffer⟩

/-- An entry of a pending request. -/
def ledgerSlot (j : RequestedBufferInfo) : Slot :=
  { stream := j.stream, cached := j.buffer.map fun b => (b.stream, b.buffer) }

/-- A pending request. -/
def ledgerReq (i : PendingRequestInfo) : Req :=
  { frame := i.frameNumber, reproc := i.inputBuffer.isSome, slots := i.buffers.map ledgerSlot }

/-- The buffers that a call to the framework returns. -/
def Callback.outs : Callback → List Out
  | .result r => r.outputBuffers.map (bufferOut r.frameNumber)
  | _ => []

/-- The output buffers of a request. -/
def CaptureRequest.outs (req : CaptureRequest) : List Out :=
  req.outputs.map fun o => ⟨req.frameNumber, o.stream, o.buffer⟩

theorem CaptureRequest.frame_of_outs {req : CaptureRequest} {o : Out} (ho : o ∈ req.outs) :
    o.frame = req.frameNumber := by
  obtain ⟨k, -, rfl⟩ := mem_map.mp ho
  rfl

/-- The frame number that the metadata has. -/
def MetadataInfo.number (m : MetadataInfo) : Option ℕ :=
  if m.valid then m.frameNumber else none

namespace HardwareInterface

/-- The ledger of the pending lists. -/
def ledger (s : HardwareInterface) (queued entered : List Out) : BufferLedger where
  requests := s.mPendingRequestsList.map ledgerReq
  listed := mapOuts s.mPendingBuffersMap
  held := s.mPendingReprocessResultList.map fun j => bufferOut j.frameNumber j.buffer
  returned := s.sent.flatMap Callback.outs
  queued := queued
  entered := entered

/-! ### The map of the pending buffers -/

theorem mapOuts_removeBuf (buffer : ℕ) (map : List PendingBuffersInRequest) :
    mapOuts (removeBuf buffer map) = BufferLedger.takeOut buffer (mapOuts map) := by
  induction map with
  | nil => rfl
  | cons req reqs ih =>
    have hmap (l : List PendingBufferInfo) : (l.map fun k => (⟨req.frameNumber, k.stream, k.buffer⟩ : Out)).eraseP
            (fun o => o.buffer == buffer) =
          (l.eraseP fun k => k.buffer == buffer).map fun k => ⟨req.frameNumber, k.stream, k.buffer⟩ :=
      eraseP_map ..
    rw [removeBuf]
    split
    · rename_i hany
      have hmem : ∃ o ∈ req.pendingBufferList.map
          (fun k => (⟨req.frameNumber, k.stream, k.buffer⟩ : Out)), o.buffer == buffer := by
        obtain ⟨k, hk, hbuf⟩ := any_eq_true.mp hany
        exact ⟨_, mem_map.mpr ⟨k, hk, rfl⟩, hbuf⟩
      obtain ⟨o, ho, hbuf⟩ := hmem
      simp only [mapOuts, flatMap_cons, takeOut]
      rw [eraseP_append_left (p := fun o : Out => o.buffer == buffer) hbuf _ ho, hmap]
      split
      · rename_i hnil
        rw [hnil]
        rfl
      · rfl
    · rename_i hany
      have hnone : ∀ o ∈ req.pendingBufferList.map (fun k => (⟨req.frameNumber, k.stream, k.buffer⟩ : Out)),
          ¬ (o.buffer == buffer) = true := by
        rintro o ho hbuf
        obtain ⟨k, hk, rfl⟩ := mem_map.mp ho
        exact hany (any_eq_true.mpr ⟨k, hk, hbuf⟩)
      simp only [mapOuts, flatMap_cons, takeOut] at ih ⊢
      rw [eraseP_append_right _ hnone, ih]

theorem cached_ledgerReq (i : PendingRequestInfo) :
    (ledgerReq i).cached = (cachedBuffers i).map (bufferOut i.frameNumber) := by
  simp only [Req.cached, ledgerReq, cachedBuffers, List.filterMap_map, List.map_filterMap]
  refine List.filterMap_congr fun j _ => ?_
  simp only [ledgerSlot, Function.comp_apply, Option.map_map]
  rfl

/-! ### The parts of the handlers -/

variable (s : HardwareInterface) (queued entered : List Out)

theorem ledger_send (c : Callback) : (s.send c).ledger queued entered = { s.ledger queued entered with
        returned := (s.ledger queued entered).returned ++ c.outs } := by
  simp [send, ledger]

theorem ledger_send_nil {c : Callback} (hc : c.outs = []) (p : Prop) [Decidable p] :
    (if p then s.send c else s).ledger queued entered = s.ledger queued entered := by
  split
  · rw [ledger_send, hc, append_nil]
  · rfl

theorem ledger_erasePendingRequest (frameNumber : ℕ) :
    (s.erasePendingRequest frameNumber).ledger queued entered = { s.ledger queued entered with
        requests := eraseReq frameNumber (s.ledger queued entered).requests } := by
  simp only [erasePendingRequest, ledger, eraseReq, eraseP_map]
  rfl

theorem findReq_ledger (frameNumber : ℕ) : (s.ledger queued entered).findReq frameNumber =
      (s.mPendingRequestsList.find? fun i => i.frameNumber == frameNumber).map ledgerReq := by
  simp only [findReq, ledger, find?_map]
  rfl

theorem ledger_takeBuffer (frameNumber : ℕ) (b : StreamBuffer) :
    (s.takeBuffer frameNumber b).2.ledger queued entered = { s.ledger queued entered with
        listed := takeOut b.buffer (s.ledger queued entered).listed } := by
  simp [takeBuffer, takeFrameDrop, ledger, mapOuts_removeBuf]

theorem bufferOut_takeBuffer (frameNumber frame : ℕ) (b : StreamBuffer) :
    bufferOut frame (s.takeBuffer frameNumber b).1 = bufferOut frame b := by
  simp [takeBuffer, bufferOut]

theorem bufferOut_takeBuffers (frameNumber frame : ℕ) (bs : List StreamBuffer) :
    (takeBuffers frameNumber bs s).1.map (bufferOut frame) = bs.map (bufferOut frame) := by
  induction bs generalizing s with
  | nil => rfl
  | cons b bs ih => simp [takeBuffers, ih, bufferOut_takeBuffer]

theorem ledger_takeBuffers (frameNumber frame : ℕ) (bs : List StreamBuffer) :
    (takeBuffers frameNumber bs s).2.ledger queued entered = { s.ledger queued entered with
        listed := (bs.map (bufferOut frame)).foldl (fun l o => takeOut o.buffer l)
          (s.ledger queued entered).listed } := by
  induction bs generalizing s with
  | nil => rfl
  | cons b bs ih =>
    rw [takeBuffers]
    simp only [ih, ledger_takeBuffer, map_cons, foldl_cons]
    rfl

theorem ledger_sendReprocResult (k : PendingRequestInfo) (b : StreamBuffer) :
    (s.sendReprocResult k b).ledger queued entered = { s.ledger queued entered with
        requests := eraseReq k.frameNumber (s.ledger queued entered).requests
        returned := (s.ledger queued entered).returned ++ [bufferOut k.frameNumber b] } := by
  rw [sendReprocResult, ledger_erasePendingRequest, ledger_send]
  rfl

theorem ledger_handlePendingReprocResults (frameNumber : ℕ) :
    (s.handlePendingReprocResults frameNumber).ledger queued entered = (s.ledger queued entered).drain frameNumber := by
  have hheld : (s.ledger queued entered).held.find? (fun o => o.frame == frameNumber) =
      (s.mPendingReprocessResultList.find? fun j => j.frameNumber == frameNumber).map
        fun j => bufferOut j.frameNumber j.buffer := by
    simp only [ledger, find?_map]
    rfl
  rw [handlePendingReprocResults, drain, hheld]
  cases hj : s.mPendingReprocessResultList.find? (fun j => j.frameNumber == frameNumber) with
  | none => rfl
  | some j =>
    have hframe : j.frameNumber = frameNumber := by simpa using find?_some hj
    have herase : ∀ t : HardwareInterface, t.mPendingReprocessResultList = s.mPendingReprocessResultList →
        HardwareInterface.ledger { t with mPendingReprocessResultList :=
            t.mPendingReprocessResultList.eraseP fun j => j.frameNumber == frameNumber }
            queued entered =
          { t.ledger queued entered with
            held := (s.ledger queued entered).held.eraseP fun o => o.frame == frameNumber } := by
      rintro t ht
      simp only [ledger, eraseP_map, ht]
      rfl
    have hfind := findReq_ledger s queued entered j.frameNumber
    simp only [map_some]
    cases hk : (s.send (.shutter frameNumber)).mPendingRequestsList.find? (fun k => k.frameNumber == j.frameNumber) with
    | none =>
      rw [show s.mPendingRequestsList.find? _ = _ from hk, hframe] at hfind
      dsimp only
      rw [herase (s.send _) rfl, ledger_send, hfind, eraseReq_none hfind]
      simp [Callback.outs]
    | some k =>
      have hkf : k.frameNumber = j.frameNumber := by simpa using find?_some hk
      rw [show s.mPendingRequestsList.find? _ = _ from hk, hframe] at hfind
      dsimp only
      rw [herase ((s.send _).sendReprocResult k _) rfl, ledger_sendReprocResult, ledger_send, hfind, hkf, hframe]
      simp [Callback.outs]

theorem ledger_sendMetadataResult (frameNumber : ℕ) (i : PendingRequestInfo) :
    (s.sendMetadataResult frameNumber i).ledger queued entered = { s.ledger queued entered with
        listed := (ledgerReq i).cached.foldl (fun l o => takeOut o.buffer l) (s.ledger queued entered).listed
        returned := (s.ledger queued entered).returned ++ (ledgerReq i).cached } := by
  rw [sendMetadataResult, cached_ledgerReq]
  dsimp only
  generalize hs₁ : ({ s with mPendingLiveRequest := decU32 s.mPendingLiveRequest } : HardwareInterface) = s₁
  generalize hs₂ : (if (i.frameNumber == frameNumber) = true then
    s₁.send (.shutter i.frameNumber) else s₁) = s₂
  generalize hs₃ : (if (!(i.frameNumber == frameNumber) || i.partialResultDropped) = true then
    s₂.send (.errorResult i.frameNumber) else s₂) = s₃
  have hquiet : s₃.ledger queued entered = s.ledger queued entered := by
    rw [← hs₃, ledger_send_nil _ _ _ rfl, ← hs₂, ledger_send_nil _ _ _ rfl, ← hs₁]
    rfl
  have hbufs := bufferOut_takeBuffers s₃ frameNumber i.frameNumber (cachedBuffers i)
  have htake := ledger_takeBuffers s₃ queued entered frameNumber i.frameNumber (cachedBuffers i)
  rw [hquiet] at htake
  split
  · rw [ledger_send, htake, Callback.outs, hbufs]
  · rename_i hsent
    have hnil : (takeBuffers frameNumber (cachedBuffers i) s₃).1 = [] := by
      by_contra hne
      exact hsent (.inl hne)
    rw [hnil, map_nil] at hbufs
    rw [htake, ← hbufs]
    simp

theorem ledger_reportFrameDrops (frameDrop : List ℕ) (i : PendingRequestInfo) :
    (s.reportFrameDrops frameDrop i).ledger queued entered = s.ledger queued entered := by
  have hquiet (l : List ℕ) : (l.map (Callback.errorBuffer i.frameNumber)).flatMap Callback.outs = [] := by
    simp [flatMap_map, Callback.outs]
  simp only [reportFrameDrops, ledger, flatMap_append, hquiet, append_nil]

theorem ledger_modifyRequest {frameNumber : ℕ} {f : PendingRequestInfo → PendingRequestInfo}
    (hf : ∀ i ∈ s.mPendingRequestsList, i.frameNumber = frameNumber → ledgerReq (f i) = ledgerReq i) :
    (s.modifyRequest frameNumber f).ledger queued entered = s.ledger queued entered := by
  simp only [modifyRequest, ledger, List.map_map]
  congr 1
  refine List.map_congr_left fun i hi => ?_
  simp only [comp_apply]
  split
  · rename_i hframe
    exact hf i hi hframe
  · rfl

/-! ### The handlers -/

variable {s queued entered}

theorem ledger_metadataEntry {m : MetadataInfo} {n : ℕ} {i : PendingRequestInfo}
    (hfind : (s.ledger queued entered).findReq i.frameNumber = some (ledgerReq i))
    (hunique : ∀ r ∈ (s.ledger queued entered).requests, r.frame = i.frameNumber →
      r = ledgerReq i) (hle : i.frameNumber ≤ n) :
    (s.metadataEntry m n i).ledger queued entered =
      if (ledgerReq i).leaves n then
        BufferLedger.turn n (s.ledger queued entered) i.frameNumber
      else s.ledger queued entered := by
  rw [metadataEntry]
  dsimp only
  have hreq : ledgerReq { i with partialResultCnt := i.partialResultCnt + 1 } = ledgerReq i := rfl
  have hdrops := ledger_reportFrameDrops s queued entered m.frameDrop
    { i with partialResultCnt := i.partialResultCnt + 1 }
  generalize s.reportFrameDrops m.frameDrop { i with partialResultCnt := i.partialResultCnt + 1 } = s₁ at hdrops ⊢
  have hleaves : (ledgerReq i).leaves n = true ↔ ¬ (i.frameNumber < n ∧ i.inputBuffer.isSome) := by
    rw [leaves_iff]
    simp [ledgerReq, hle]
  split
  · rename_i hstay
    rw [if_neg fun hgo => hleaves.mp hgo hstay, ledger_modifyRequest, hdrops]
    rintro k hk hkf
    rw [hreq]
    have hmem : ledgerReq k ∈ (s₁.ledger queued entered).requests :=
      mem_map.mpr ⟨k, hk, rfl⟩
    rw [hdrops] at hmem
    exact (hunique _ hmem hkf).symm
  · rename_i hgo
    rw [show (ledgerReq i).leaves n = true from hleaves.mpr hgo, if_pos rfl, turn, complete, hfind]
    dsimp only
    generalize hs₂ : (s₁.sendMetadataResult n
      { i with partialResultCnt := i.partialResultCnt + 1 }).erasePendingRequest i.frameNumber = s₂
    have hsend : s₂.ledger queued entered = { s.ledger queued entered with
          requests := eraseReq i.frameNumber (s.ledger queued entered).requests
          listed := (ledgerReq i).cached.foldl (fun l o => takeOut o.buffer l) (s.ledger queued entered).listed
          returned := (s.ledger queued entered).returned ++ (ledgerReq i).cached } := by
      rw [← hs₂, ledger_erasePendingRequest, ledger_sendMetadataResult, hdrops, hreq]
    rw [← hsend]
    split
    · exact ledger_handlePendingReprocResults s₂ queued entered (n + 1)
    · rename_i hnil
      have hheld : (s₂.ledger queued entered).held = [] := by
        simpa [ledger] using hnil
      simp [drain, hheld]

theorem ledger_metadataLoop (m : MetadataInfo) (n : ℕ) {l : List PendingRequestInfo}
    (h : (s.ledger queued entered).Sound)
    (hsorted : l.Pairwise fun i k => i.frameNumber < k.frameNumber)
    (hfind : ∀ i ∈ l, (s.ledger queued entered).findReq i.frameNumber = some (ledgerReq i) ∨ n < i.frameNumber) :
    (metadataLoop m n l s).ledger queued entered =
      (((l.map ledgerReq).filter (Req.leaves n)).map Req.frame).foldl (BufferLedger.turn n)
        (s.ledger queued entered) := by
  induction l generalizing s with
  | nil => rfl
  | cons i l ih =>
    obtain ⟨hi, hl⟩ := pairwise_cons.mp hsorted
    rw [metadataLoop]
    split
    · rename_i hgt
      have hnil : ((i :: l).map ledgerReq).filter (Req.leaves n) = [] := by
        rw [filter_eq_nil_iff]
        rintro r hr
        obtain ⟨k, hk, rfl⟩ := mem_map.mp hr
        have hlt : n < k.frameNumber := by
          rcases mem_cons.mp hk with rfl | hk
          · exact hgt
          · exact Nat.lt_trans hgt (hi k hk)
        rw [leaves_iff]
        rintro ⟨hle, -⟩
        exact absurd hle (Nat.not_le_of_gt hlt)
      rw [hnil]
      rfl
    · rename_i hle
      have hfound := (hfind i (by simp)).resolve_right hle
      have hunique : ∀ r ∈ (s.ledger queued entered).requests, r.frame = i.frameNumber →
          r = ledgerReq i := fun r hr hrf =>
        some.inj ((h.findReq_eq.mpr ⟨hr, hrf⟩).symm.trans hfound)
      have hentry := ledger_metadataEntry (m := m) hfound hunique (Nat.not_lt.mp hle)
      rw [map_cons]
      by_cases hleaves : (ledgerReq i).leaves n
      · rw [if_pos hleaves] at hentry
        rw [ih (hentry ▸ h.turn _) hl, hentry, filter_cons_of_pos hleaves, map_cons, foldl_cons]
        · rfl
        · rintro k hk
          by_cases hkn : n < k.frameNumber
          · exact .inr hkn
          · refine .inl ?_
            have hlt := hi k hk
            obtain ⟨hmem, -⟩ := findReq_some ((hfind k (mem_cons_of_mem _ hk)).resolve_right hkn)
            rw [hentry, (h.turn _).findReq_eq, mem_turn h]
            exact ⟨⟨hmem, by simp only [ledgerReq]; omega, fun _ => by
              simp only [ledgerReq]; omega⟩, rfl⟩
      · rw [if_neg hleaves] at hentry
        rw [ih (hentry ▸ h) hl, hentry, filter_cons_of_neg hleaves]
        rintro k hk
        rw [hentry]
        exact hfind k (mem_cons_of_mem _ hk)

theorem ledger_urgentMetadata (s : HardwareInterface) (urgent : ℕ) :
    (s.urgentMetadata urgent).mPendingRequestsList.map ledgerReq = s.mPendingRequestsList.map ledgerReq ∧
      (s.urgentMetadata urgent).ledger queued entered = s.ledger queued entered := by
  have hurgent (l : List PendingRequestInfo) : (handleUrgent urgent l).1.map ledgerReq = l.map ledgerReq ∧
        (handleUrgent urgent l).2.flatMap Callback.outs = [] := by
    induction l with
    | nil => exact ⟨rfl, rfl⟩
    | cons i l ih =>
      rw [handleUrgent]
      dsimp only
      split <;> split
      all_goals first
        | exact ⟨rfl, rfl⟩
        | exact ⟨by rw [map_cons, ih.1]; rfl, ih.2⟩
  obtain ⟨h₁, h₂⟩ := hurgent s.mPendingRequestsList
  refine ⟨h₁, ?_⟩
  simp only [urgentMetadata, ledger, h₁, flatMap_append, h₂, append_nil]

theorem ledger_doneMetadata (s : HardwareInterface) :
    s.doneMetadata.ledger queued entered = s.ledger queued entered := by
  simp only [doneMetadata, ledger, List.map_map]
  rfl

/-- The handlers do their work: there is no `flushPerf`, and the state is no error. -/
structure Working (s : HardwareInterface) : Prop where
  flushPerf : s.mFlushPerf = false
  state : s.mState = .configured ∨ s.mState = .started

theorem sorted_requests (h : (s.ledger queued entered).Sound) :
    s.mPendingRequestsList.Pairwise fun i k => i.frameNumber < k.frameNumber :=
  pairwise_map (f := ledgerReq).mp h.sorted

theorem ledger_normalMetadata (h : (s.ledger queued entered).Sound) (m : MetadataInfo) (s₁ : HardwareInterface)
    (hlist : s₁.mPendingRequestsList.map ledgerReq = s.mPendingRequestsList.map ledgerReq)
    (hledger : s₁.ledger queued entered = s.ledger queued entered) :
    (doneMetadata (match m.frameNumber with
      | some frameNumber => metadataLoop m frameNumber s₁.mPendingRequestsList s₁
      | none => s₁)).ledger queued entered =
      m.frameNumber.elim (s.ledger queued entered) (s.ledger queued entered).metadata := by
  have h₁ : (s₁.ledger queued entered).Sound := hledger ▸ h
  rw [ledger_doneMetadata]
  cases m.frameNumber with
  | none => exact hledger
  | some n =>
    dsimp only [elim_some]
    rw [ledger_metadataLoop m n h₁ (sorted_requests h₁), hlist, hledger]
    · rfl
    · rintro i hi
      exact .inl (h₁.findReq_eq.mpr ⟨mem_map.mpr ⟨i, hi, rfl⟩, rfl⟩)

/-- **`handleMetadataWithLock`** is the metadata event of its frame number. -/
theorem ledger_handleMetadata (h : (s.ledger queued entered).Sound) (hw : s.Working) (m : MetadataInfo) :
    (s.handleMetadataWithLock m).ledger queued entered =
      m.number.elim (s.ledger queued entered) (s.ledger queued entered).metadata := by
  have hstate : ¬ (s.mFlushPerf = true ∨ s.mState = .error ∨ s.mState = .deinit) := by
    rcases hw.state with hst | hst <;> simp [hst, hw.flushPerf]
  rw [handleMetadataWithLock, if_neg hstate, MetadataInfo.number]
  split
  · cases m.urgentFrameNumber with
    | none => exact ledger_normalMetadata h m _ rfl rfl
    | some urgent =>
      obtain ⟨hlist, hledger⟩ := ledger_urgentMetadata s urgent
      exact ledger_normalMetadata h m _ hlist hledger
  · exact ledger_doneMetadata s

/-- **`handleInputBufferWithLock`** is the release of the input. -/
theorem ledger_handleInputBuffer (s : HardwareInterface) (frameNumber : ℕ) :
    (s.handleInputBufferWithLock frameNumber).ledger queued entered =
      (s.ledger queued entered).release frameNumber := by
  rw [handleInputBufferWithLock, release, findReq_ledger]
  cases s.mPendingRequestsList.find? (fun i => i.frameNumber == frameNumber) with
  | none => rfl
  | some i =>
    simp only [map_some, ledgerReq]
    split
    · generalize hs₁ : (if i.shutterNotified = true then s
        else s.send (.shutter frameNumber)) = s₁
      have hquiet : s₁.ledger queued entered = s.ledger queued entered := by
        rw [← hs₁]
        split
        · rfl
        · rw [ledger_send]
          simp [Callback.outs]
      rw [ledger_erasePendingRequest, ledger_send, hquiet]
      simp [Callback.outs]
    · rfl

theorem ledger_queued (s : HardwareInterface) (queued queued' entered : List Out) :
    s.ledger queued' entered = { s.ledger queued entered with queued := queued' } := rfl

theorem ledger_sendBuffer (s : HardwareInterface) (b : StreamBuffer) (frameNumber : ℕ) :
    (s.sendBuffer b frameNumber).ledger queued entered = { s.ledger queued entered with
        listed := takeOut b.buffer (s.ledger queued entered).listed
        returned := (s.ledger queued entered).returned ++ [bufferOut frameNumber b] } := by
  have hbuf := bufferOut_takeBuffer s frameNumber frameNumber b
  rw [sendBuffer]
  dsimp only
  rw [ledger_send, ledger_takeBuffer, Callback.outs, map_singleton, hbuf]

theorem ledger_handleReprocBuffer (s : HardwareInterface) (i : PendingRequestInfo) (b : StreamBuffer) :
    (s.handleReprocBuffer i b).ledger queued entered =
      if (s.ledger queued entered).requests.any fun r => decide (r.frame < i.frameNumber) then
        { s.ledger queued entered with
          listed := takeOut b.buffer (s.ledger queued entered).listed
          held := (s.ledger queued entered).held ++ [bufferOut i.frameNumber b] }
      else
        { s.ledger queued entered with
          requests := eraseReq i.frameNumber (s.ledger queued entered).requests
          listed := takeOut b.buffer (s.ledger queued entered).listed
          returned := (s.ledger queued entered).returned ++ [bufferOut i.frameNumber b] } := by
  have hany : ((s.ledger queued entered).requests.any fun r => decide (r.frame < i.frameNumber)) =
      s.mPendingRequestsList.any fun j => decide (j.frameNumber < i.frameNumber) := by
    simp only [ledger, List.any_map]
    rfl
  rw [handleReprocBuffer, hany]
  dsimp only
  split
  · simp [ledger, mapOuts_removeBuf, bufferOut]
  · rw [ledger_sendReprocResult, ledger_send]
    simp [ledger, mapOuts_removeBuf, bufferOut, Callback.outs]

theorem ledgerReq_cacheBuffer {b : StreamBuffer} {frameNumber : ℕ} {i : PendingRequestInfo}
    (hframe : i.frameNumber = frameNumber) :
    ledgerReq { i with buffers := i.buffers.map (cacheBuffer b) } =
      cacheReq (bufferOut frameNumber b) (ledgerReq i) := by
  have hslot (j : RequestedBufferInfo) : ledgerSlot (cacheBuffer b j) =
      cacheSlot (bufferOut frameNumber b) (ledgerSlot j) := by
    rw [cacheBuffer, cacheSlot]
    simp only [ledgerSlot, bufferOut, map_eq_none_iff]
    split <;> rfl
  rw [cacheReq,  if_pos (show (ledgerReq i).frame = (bufferOut frameNumber b).frame from hframe)]
  simp only [ledgerReq, List.map_map]
  congr 1
  exact List.map_congr_left fun j _ => hslot j

/-- **`handleBufferWithLock`** is the arrival of the buffer. -/
theorem ledger_handleBuffer (hw : s.Working) (b : StreamBuffer) (frameNumber : ℕ) :
    (s.handleBufferWithLock b frameNumber).ledger (queued.erase (bufferOut frameNumber b)) entered =
      (s.ledger queued entered).arrive (bufferOut frameNumber b) := by
  have hstate : ¬ (s.mState = .error ∨ s.mState = .deinit) := by
    rcases hw.state with hst | hst <;> simp [hst]
  rw [ledger_queued _ queued, handleBufferWithLock, if_neg hstate,
    if_neg (by simp [hw.flushPerf]), arrive, findReq_ledger]
  cases hfind : s.mPendingRequestsList.find? (fun i => i.frameNumber == frameNumber) with
  | none =>
    dsimp only
    rw [show (s.mPendingRequestsList.find? fun i =>
      i.frameNumber == (bufferOut frameNumber b).frame) = none from hfind, map_none,
      ledger_sendBuffer]
    rfl
  | some i =>
    have hframe : i.frameNumber = frameNumber := by simpa using find?_some hfind
    rw [show (s.mPendingRequestsList.find? fun i =>
      i.frameNumber == (bufferOut frameNumber b).frame) = some i from hfind, map_some]
    dsimp only
    by_cases hinput : i.inputBuffer.isSome
    · rw [if_pos hinput, if_pos (show (ledgerReq i).reproc = true from hinput), ledger_handleReprocBuffer, hframe]
      by_cases holder : (s.ledger queued entered).requests.any fun r =>
          decide (r.frame < frameNumber)
      · rw [if_pos holder]
        exact (if_pos holder).symm
      · rw [if_neg holder]
        exact (if_neg holder).symm
    · rw [if_neg hinput, if_neg (show ¬ (ledgerReq i).reproc = true from hinput)]
      have hlist : (s.modifyRequest frameNumber fun i =>
            { i with buffers := i.buffers.map (cacheBuffer b) }).mPendingRequestsList.map ledgerReq =
          (s.mPendingRequestsList.map ledgerReq).map (cacheReq (bufferOut frameNumber b)) := by
        simp only [modifyRequest, List.map_map]
        refine List.map_congr_left fun k _ => ?_
        simp only [comp_apply]
        split
        · rename_i hk
          exact ledgerReq_cacheBuffer hk
        · rename_i hk
          rw [cacheReq_of_ne hk]
      simp only [ledger, hlist]
      rfl

/-- **`insertRequest`** is a new request. -/
theorem ledger_insertRequest (s : HardwareInterface) (req : CaptureRequest) :
    (insertRequest req s).ledger (queued ++ req.outs) (entered ++ req.outs) =
      (s.ledger queued entered).insert req.frameNumber req.inputBuffer.isSome req.outs := by
  simp [insertRequest, ledger, BufferLedger.insert, mapOuts, ledgerReq, CaptureRequest.outs, ledgerSlot, comp_def]

end HardwareInterface

end Marlin
