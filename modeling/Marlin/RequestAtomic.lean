import Marlin.CaptureRuns
import Marlin.LedgerCount
import Marlin.RequestEnds

/-!
# Rejected Requests and the Counter of the Live Requests

A request that `processCaptureRequest` rejects should leave the pending lists and the counter as
they were. It does so where it is rejected before the lists take it, unless the sensor was
restarted in between; what fails later leaves the request in the lists.

The counter goes up at the end of the function and down with each entry that metadata takes out,
so that such a request takes the counter below the number of the entries.

## Main results

* `rejected_iff`: exactly when a rejected request leaves everything as it was.
* `Counts`, `CountInvariant`: the counter is the number of the live requests in the list.
* `rejected_atomic`: both, for one call and over runs.
* `rejected_request_stays`: a rejected request that is in the lists.
-/

open List Ledger Transition

namespace Marlin

namespace HardwareInterface

/-! ### One call -/

/-- The pending lists, the map of the batches and the counter of the live requests. -/
def SamePending (s t : HardwareInterface) : Prop :=
  t.mPendingRequestsList = s.mPendingRequestsList ∧
    t.mPendingBuffersMap = s.mPendingBuffersMap ∧ t.mPendingBatchMap = s.mPendingBatchMap ∧
    t.mPendingLiveRequest = s.mPendingLiveRequest

/-- No live request is counted that the first request after a configuration would forget. -/
def NoneCounted (s : HardwareInterface) : Prop :=
  s.mState = .configured → s.mPendingLiveRequest = 0

/-- The condition under which a rejection leaves everything as it was. In state `ERROR` the
function returns what is pending; otherwise, once the channels are started, what fails before the
lists take the request may only find the counter of the first request at zero, a restart of the
sensor that fails may only find the map empty, and nothing fails after the lists have taken it. -/
def Atomic (calls : RequestCalls) (req : CaptureRequest) (s : HardwareInterface) : Prop :=
  (s.mState = .error → calls.deviceFlush.unlink = true → calls.deviceFlush.bundleInfo = true →
    s.mPendingBuffersMap = [] ∧ s.mPendingLiveRequest = 0) ∧
  (Entering calls req s → s.mFlushPerf = false → (¬ Prepares calls req s → s.NoneCounted) ∧
    (Prepares calls req s → Restarts calls req s → ¬ Reopens calls.restart s.channels →
      s.mPendingBuffersMap = [] ∧ s.NoneCounted) ∧
    (Takes calls req s → s.mFlush = false → Ending calls req s))

variable {calls : RequestCalls} {req : CaptureRequest} {s : HardwareInterface}

theorem opened_live : s.opened.mPendingLiveRequest = s.mPendingLiveRequest ↔ s.NoneCounted := by
  rw [opened, NoneCounted]
  split
  · rename_i hconf
    simp [hconf, eq_comm]
  · rename_i hconf
    simp [hconf]

theorem notifyError_nil (h : s.mPendingBuffersMap = []) :
    s.notifyErrorForPendingRequests.mPendingRequestsList = s.mPendingRequestsList := by
  rw [notifyErrorForPendingRequests, h]
  rfl

theorem samePending_deviceError (answers : FlushAnswers) : SamePending s (s.handleCameraDeviceError answers) ↔
      (answers.unlink = true → answers.bundleInfo = true → s.mPendingBuffersMap = [] ∧ s.mPendingLiveRequest = 0) := by
  rw [handleCameraDeviceError, flush]
  cases answers.unlink with
  | false =>
    simp only [Bool.false_eq_true, false_implies, iff_true]
    exact ⟨rfl, rfl, rfl, rfl⟩
  | true =>
    cases answers.bundleInfo with
    | false =>
      simp only [Bool.false_eq_true, false_implies, implies_true, iff_true]
      exact ⟨rfl, rfl, rfl, rfl⟩
    | true =>
      simp only [true_implies, Bool.true_eq_false, if_false, Bool.false_eq_true]
      rw [SamePending]
      constructor
      · rintro ⟨-, hmap, -, hlive⟩
        refine ⟨hmap.symm, ?_⟩
        rw [← hlive]
        simp only [send, setChannels]
        rw [notifyError_rest]
      · rintro ⟨hmap, hlive⟩
        simp only [send, setChannels]
        refine ⟨notifyError_nil hmap, hmap.symm, ?_, ?_⟩
        · rw [notifyError_rest]
        · rw [notifyError_rest, hlive]

theorem listing_map_ne (hnew : ∀ e ∈ s.mPendingBuffersMap, e.frameNumber ≠ req.frameNumber) :
    (insertRequest req (listing calls req s)).mPendingBuffersMap ≠ s.mPendingBuffersMap := by
  intro heq
  have hmem : ⟨req.frameNumber, req.outputs.map fun o =>
      { stream := o.stream, buffer := o.buffer }⟩ ∈
      (insertRequest req (listing calls req s)).mPendingBuffersMap :=
    mem_append_right _ (mem_singleton.mpr rfl)
  rw [heq] at hmem
  exact hnew _ hmem rfl

/-- **When a rejection leaves everything as it was**, for a request whose number is new. -/
theorem rejected_iff (hnew : ∀ e ∈ s.mPendingBuffersMap, e.frameNumber ≠ req.frameNumber) :
    (Rejects (processCaptureRequest calls req s).1 →
      SamePending s (processCaptureRequest calls req s).2) ↔ Atomic calls req s := by
  by_cases hopen : s.Open
  · have herror : s.mState ≠ .error := by
      rcases hopen with h | h <;> simp [h]
    have hends := processCaptureRequest_ends calls req s hopen
    simp only [Atomic, herror, false_implies, true_and]
    generalize processCaptureRequest calls req s = r at hends
    cases hends with
    | before h =>
      cases h with
      | start hnot he ht =>
        simp only [hnot, false_implies, iff_true]
        rintro -
        rw [ht]
        exact ⟨rfl, rfl, rfl, rfl⟩
      | flushPerf henter hperf =>
        simp [Rejects, hperf]
      | settings henter hperf hnot he ht =>
        have htakes : ¬ Takes calls req s := fun h => hnot h.2.2.1
        simp only [he, henter, hperf, hnot, htakes, not_false_eq_true, true_implies, false_implies, and_true]
        rw [← opened_live, SamePending, ht, opened_eq]
        simp
      | restart henter hperf hprep hrestart hnot =>
        have htakes : ¬ Takes calls req s := fun h => hnot (h.2.2.2 hrestart)
        have hrejects : Rejects (RequestExit.rejected .restart) := ⟨_, rfl⟩
        simp only [hrejects, henter, hperf, hprep, hrestart, hnot, htakes, not_true_eq_false,
          not_false_eq_true, true_implies, false_implies, true_and, and_true]
        have hready := ready_untouched calls req s
        have hlive : (ready calls req s).mPendingLiveRequest = s.opened.mPendingLiveRequest := by
          rw [ready_configures]
        rw [← opened_live, ← hlive, reopened, SamePending, notifyError_rest]
        constructor
        · rintro ⟨-, hmap, -, hcounted⟩
          exact ⟨hmap.symm, hcounted⟩
        · rintro ⟨hmap, hcounted⟩
          refine ⟨?_, hmap.symm, by rw [hready], hcounted⟩
          have hnil := notifyError_nil (s := ready calls req s) (by rw [hready, hmap])
          refine hnil.trans ?_
          rw [hready]
    | flush htakes hflush ht =>
      simp only [Rejects, reduceCtorEq, exists_false, false_implies, true_iff, hflush,
        Bool.true_eq_false, implies_true, and_true]
      refine fun _ _ => ⟨fun h => absurd htakes.2.2.1 h, fun _ hr h => ?_⟩
      exact absurd (htakes.2.2.2 hr) h
    | late htakes hflush hnot he ht =>
      refine ⟨fun h => ?_, fun h => absurd ((h htakes.1 htakes.2.1).2.2 htakes hflush) hnot⟩
      obtain ⟨-, hmap, -⟩ := h he
      rw [ht] at hmap
      exact absurd hmap (listing_map_ne hnew)
    | accepted htakes hflush hend hstate hlive ht =>
      simp only [Rejects, reduceCtorEq, exists_false, false_implies, true_iff]
      refine fun _ _ => ⟨fun h => absurd htakes.2.2.1 h, fun _ hr h => ?_, fun _ _ => hend⟩
      exact absurd (htakes.2.2.2 hr) h
  · have hnot : ¬ Entering calls req s := fun h => hopen h.1
    rw [processCaptureRequest_closed calls req s hopen, Atomic]
    simp only [hnot, false_implies, and_true]
    split
    · rename_i herror
      simp only [herror, true_implies, ← samePending_deviceError]
      exact ⟨fun h => h ⟨_, rfl⟩, fun h _ => h⟩
    · rename_i herror
      simp only [herror, false_implies, iff_true]
      exact fun _ => ⟨rfl, rfl, rfl, rfl⟩

/-! ### The counter -/

/-- The counter is the number of the live requests in the list. -/
def Counts (s : HardwareInterface) (frames : List ℕ) : Prop :=
  BufferLedger.Counted (s.ledger [] []).requests (s.ledger [] []).held frames s.mPendingLiveRequest

variable {frames : List ℕ}

theorem Counts.mono {frames' : List ℕ} (h : s.Counts frames) (hsub : frames ⊆ frames') : s.Counts frames' :=
  BufferLedger.Counted.mono h hsub

/-- The entries of the list without input buffer. -/
def liveRequests (s : HardwareInterface) : ℕ :=
  s.mPendingRequestsList.countP fun i => i.inputBuffer.isNone

/-- The counter as a count. -/
theorem Counts.live (h : s.Counts frames) : s.mPendingLiveRequest = s.liveRequests := by
  have hlive := BufferLedger.Counted.live h
  rw [hlive, liveRequests]
  simp [ledger, ledgerReq, countP_map, Function.comp_def]

theorem takeBuffers_live (frameNumber : ℕ) (bs : List StreamBuffer) (s : HardwareInterface) :
    (takeBuffers frameNumber bs s).2.mPendingLiveRequest = s.mPendingLiveRequest := by
  induction bs generalizing s with
  | nil => rfl
  | cons b bs ih => exact ih _

theorem send_live_ite (c : Callback) (p : Prop) [Decidable p] (s : HardwareInterface) :
    (if p then s.send c else s).mPendingLiveRequest = s.mPendingLiveRequest := by
  split <;> rfl

theorem handlePendingReprocResults_live (s : HardwareInterface) (frameNumber : ℕ) :
    (s.handlePendingReprocResults frameNumber).mPendingLiveRequest = s.mPendingLiveRequest := by
  rw [handlePendingReprocResults]
  split
  · dsimp only
    split <;> rfl
  · rfl

theorem metadataEntry_live (s : HardwareInterface) (m : MetadataInfo) {n : ℕ}
    {i : PendingRequestInfo} (hle : i.frameNumber ≤ n) :
    (s.metadataEntry m n i).mPendingLiveRequest =
      if (ledgerReq i).leaves n then decU32 s.mPendingLiveRequest
      else s.mPendingLiveRequest := by
  have hleaves : (ledgerReq i).leaves n = true ↔ ¬ (i.frameNumber < n ∧ i.inputBuffer.isSome) := by
    rw [BufferLedger.leaves_iff]
    simp [ledgerReq, hle]
  rw [metadataEntry]
  dsimp only
  split
  · rename_i hstay
    rw [if_neg fun h => hleaves.mp h hstay]
    rfl
  · rename_i hgo
    rw [if_pos (hleaves.mpr hgo)]
    have hsend (t : HardwareInterface) (i : PendingRequestInfo) :
        ((t.sendMetadataResult n i).erasePendingRequest i.frameNumber).mPendingLiveRequest =
          decU32 t.mPendingLiveRequest := by
      rw [sendMetadataResult]
      dsimp only [erasePendingRequest]
      rw [send_live_ite, takeBuffers_live, send_live_ite, send_live_ite]
    split
    · rw [handlePendingReprocResults_live]
      exact hsend _ { i with partialResultCnt := i.partialResultCnt + 1 }
    · exact hsend _ { i with partialResultCnt := i.partialResultCnt + 1 }

theorem counts_metadataLoop (m : MetadataInfo) (n : ℕ) {l : List PendingRequestInfo}
    (h : s.Counts frames) (hnodup : (l.map PendingRequestInfo.frameNumber).Nodup)
    (hlisted : ∀ i ∈ l, i.frameNumber ≤ n → ledgerReq i ∈ (s.ledger [] []).requests)
    (hnumber : ∀ i ∈ l, i.frameNumber = n → i.inputBuffer = none) :
    (metadataLoop m n l s).Counts frames ∧ (metadataLoop m n l s).mPendingLiveRequest ≤ s.mPendingLiveRequest := by
  induction l generalizing s with
  | nil => exact ⟨h, Nat.le_refl _⟩
  | cons i l ih =>
    obtain ⟨hi, hl⟩ := nodup_cons.mp hnodup
    rw [metadataLoop]
    split
    · exact ⟨h, Nat.le_refl _⟩
    · rename_i hgt
      have hle : i.frameNumber ≤ n := Nat.not_lt.mp hgt
      have hmem := hlisted i (by simp) hle
      have hfind : (s.ledger [] []).findReq i.frameNumber = some (ledgerReq i) :=
        BufferLedger.Counted.find h hmem
      have hunique : ∀ r ∈ (s.ledger [] []).requests, r.frame = i.frameNumber → r = ledgerReq i := fun r hr hrf =>
        inj_on_of_nodup_map (BufferLedger.Counted.nodup h) hr hmem hrf
      have hentry := ledger_metadataEntry (m := m) hfind hunique hle
      have hcounter := metadataEntry_live s m hle
      have hothers : ∀ k ∈ l, k.frameNumber ≠ i.frameNumber := fun k hk heq =>
        hi (heq ▸ mem_map.mpr ⟨k, hk, rfl⟩)
      by_cases hleaves : (ledgerReq i).leaves n = true
      · rw [if_pos hleaves] at hentry hcounter
        have hlive : (ledgerReq i).reproc = false := by
          rcases Nat.lt_or_eq_of_le hle with hlt | heq
          · exact (BufferLedger.leaves_iff.mp hleaves).2 hlt
          · simp [ledgerReq, hnumber i (by simp) heq]
        obtain ⟨hpos, hturn⟩ := BufferLedger.Counted.turn h n hfind hlive
        have hdec : (s.metadataEntry m n i).mPendingLiveRequest = s.mPendingLiveRequest - 1 := by
          rw [hcounter, decU32, if_neg (Nat.ne_of_gt hpos)]
        have hcounts : (s.metadataEntry m n i).Counts frames := by
          rw [Counts, hentry, hdec]
          exact hturn
        obtain ⟨h₁, h₂⟩ := ih hcounts hl (fun k hk hkn => by
          rw [hentry]
          exact BufferLedger.mem_turn_of_ne (hlisted k (mem_cons_of_mem _ hk) hkn)
            (hothers k hk) (show k.frameNumber ≠ n + 1 by omega))
          fun k hk => hnumber k (mem_cons_of_mem _ hk)
        exact ⟨h₁, by omega⟩
      · rw [if_neg hleaves] at hentry hcounter
        have hcounts : (s.metadataEntry m n i).Counts frames := by
          rw [Counts, hentry, hcounter]
          exact h
        obtain ⟨h₁, h₂⟩ := ih hcounts hl (fun k hk hkn => by
          rw [hentry]
          exact hlisted k (mem_cons_of_mem _ hk) hkn)
          fun k hk => hnumber k (mem_cons_of_mem _ hk)
        exact ⟨h₁, by omega⟩

theorem counts_metadata (h : s.Counts frames) (m : MetadataInfo)
    (hnumber : ∀ n, m.number = some n → ∀ i ∈ s.mPendingRequestsList, i.frameNumber = n → i.inputBuffer = none) :
    (s.handleMetadataWithLock m).Counts frames ∧
      (s.handleMetadataWithLock m).mPendingLiveRequest ≤ s.mPendingLiveRequest := by
  have hdone {t : HardwareInterface} (ht : t.Counts frames) : t.doneMetadata.Counts frames := by
    rw [Counts, ledger_doneMetadata]
    exact ht
  have hkept {t : HardwareInterface} (hledger : t.ledger [] [] = s.ledger [] [])
      (hlive : t.mPendingLiveRequest = s.mPendingLiveRequest) : t.Counts frames := by
    rw [Counts, hledger, hlive]
    exact h
  -- the urgent part changes neither the numbers nor the kinds of the requests
  have hnormal (t : HardwareInterface) {n : ℕ} (hvalid : m.valid = true) (hframe : m.frameNumber = some n)
      (hlist : t.mPendingRequestsList.map ledgerReq = s.mPendingRequestsList.map ledgerReq)
      (hledger : t.ledger [] [] = s.ledger [] [])
      (hlive : t.mPendingLiveRequest = s.mPendingLiveRequest) :
      (doneMetadata (metadataLoop m n t.mPendingRequestsList t)).Counts frames ∧
      (doneMetadata (metadataLoop m n t.mPendingRequestsList t)).mPendingLiveRequest ≤ s.mPendingLiveRequest := by
    have ht : t.Counts frames := hkept hledger hlive
    have hnodup : (t.mPendingRequestsList.map PendingRequestInfo.frameNumber).Nodup := by
      have hframes := BufferLedger.Counted.nodup ht
      rw [ledger, map_map] at hframes
      exact hframes
    obtain ⟨h₁, h₂⟩ := counts_metadataLoop m n ht hnodup (fun i hi _ => mem_map.mpr ⟨i, hi, rfl⟩) (by
        rintro i hi hin
        have hmem : ledgerReq i ∈ s.mPendingRequestsList.map ledgerReq :=
          hlist ▸ mem_map.mpr ⟨i, hi, rfl⟩
        obtain ⟨k, hk, heq⟩ := mem_map.mp hmem
        have hkf : k.frameNumber = i.frameNumber := congrArg Req.frame heq
        have hkr : k.inputBuffer.isSome = i.inputBuffer.isSome := congrArg Req.reproc heq
        have hnone := hnumber n (by simp [MetadataInfo.number, hvalid, hframe]) k hk (hkf.trans hin)
        rw [hnone] at hkr
        exact Option.isSome_eq_false_iff.mp hkr.symm |> Option.isNone_iff_eq_none.mp)
    exact ⟨hdone h₁, Nat.le_trans h₂ (Nat.le_of_eq hlive)⟩
  rw [handleMetadataWithLock]
  split
  · exact ⟨h, Nat.le_refl _⟩
  · split
    · rename_i hvalid
      cases m.urgentFrameNumber with
      | none =>
        cases hframe : m.frameNumber with
        | none => exact ⟨hdone h, Nat.le_refl _⟩
        | some n => exact hnormal s hvalid hframe rfl rfl rfl
      | some urgent =>
        obtain ⟨hlist, hledger⟩ := @ledger_urgentMetadata [] [] s urgent
        cases hframe : m.frameNumber with
        | none => exact ⟨hdone (hkept hledger rfl), Nat.le_refl _⟩
        | some n => exact hnormal _ hvalid hframe hlist hledger rfl
    · exact ⟨hdone h, Nat.le_refl _⟩

theorem counts_buffer (h : s.Counts frames) (hw : s.Working) (b : StreamBuffer) (frameNumber : ℕ) :
    (s.handleBufferWithLock b frameNumber).Counts frames ∧
      (s.handleBufferWithLock b frameNumber).mPendingLiveRequest = s.mPendingLiveRequest := by
  have hlive : (s.handleBufferWithLock b frameNumber).mPendingLiveRequest = s.mPendingLiveRequest := by
    rw [handleBufferWithLock]
    split
    · rfl
    · rw [if_neg (by simp [hw.flushPerf])]
      split
      · rfl
      · split
        · rw [handleReprocBuffer]
          dsimp only
          split <;> rfl
        · rfl
  refine ⟨?_, hlive⟩
  have hledger := @ledger_handleBuffer _ [] [] hw b frameNumber
  rw [erase_nil] at hledger
  rw [Counts, hledger, hlive]
  exact BufferLedger.Counted.arrive h _

theorem counts_inputBuffer (h : s.Counts frames) (frameNumber : ℕ) :
    (s.handleInputBufferWithLock frameNumber).Counts frames ∧
      (s.handleInputBufferWithLock frameNumber).mPendingLiveRequest = s.mPendingLiveRequest := by
  have hlive : (s.handleInputBufferWithLock frameNumber).mPendingLiveRequest = s.mPendingLiveRequest := by
    rw [handleInputBufferWithLock]
    split
    · split
      · dsimp only
        split <;> rfl
      · rfl
    · rfl
  refine ⟨?_, hlive⟩
  rw [Counts, ledger_handleInputBuffer, hlive]
  exact BufferLedger.Counted.release h frameNumber

theorem notifyErrorLoop_suffix (frameNum : ℕ) (map : List PendingBuffersInRequest)
    (input : Option StreamBuffer) (s : HardwareInterface) :
    (notifyErrorLoop frameNum map input s).mPendingRequestsList <:+ s.mPendingRequestsList := by
  induction map generalizing input s with
  | nil => exact suffix_refl _
  | cons e map ih =>
    rw [notifyErrorLoop]
    split
    · exact ih _ _
    · refine (ih _ _).trans ?_
      rw [notifyErrorRequest]
      dsimp only
      split
      · rename_i hnil
        exact hnil ▸ suffix_refl _
      · rename_i i is hcons
        rw [hcons]
        split
        · exact suffix_cons i is
        · exact suffix_refl _

theorem counts_notifyError (h : s.Counts frames) (hnone : s.liveRequests = 0) :
    s.notifyErrorForPendingRequests.Counts frames := by
  have hsub : s.notifyErrorForPendingRequests.mPendingRequestsList.Sublist s.mPendingRequestsList :=
    (notifyErrorLoop_suffix _ _ _ s).sublist
  have hlive : s.notifyErrorForPendingRequests.mPendingLiveRequest = 0 := by
    rw [notifyError_rest, ← hnone]
    exact h.live
  have hzero : s.mPendingLiveRequest = 0 := h.live.trans hnone
  rw [Counts, hzero] at h
  rw [Counts, hlive]
  exact BufferLedger.Counted.none h (hsub.map ledgerReq)

theorem counts_ready (h : s.Counts frames) (hnone : s.NoneCounted)
    (calls : RequestCalls) (req : CaptureRequest) : (ready calls req s).Counts frames := by
  have hlive : (ready calls req s).mPendingLiveRequest = s.mPendingLiveRequest := by
    rw [ready_configures]
    exact opened_live.mpr hnone
  rw [Counts, (ready_untouched calls req s).ledger, hlive]
  exact h

theorem counts_reopened (h : s.Counts frames) (hnone : s.liveRequests = 0)
    (calls : RequestCalls) : (reopened calls s).Counts frames :=
  counts_notifyError h hnone

theorem liveRequests_ready (calls : RequestCalls) (req : CaptureRequest) :
    (ready calls req s).liveRequests = s.liveRequests := by
  rw [liveRequests, ready_untouched]
  rfl

variable {req : CaptureRequest} {calls : RequestCalls}

theorem counts_listing (h : s.Counts frames) (hnone : s.NoneCounted)
    (hrestart : Restarts calls req s → s.liveRequests = 0) :
    (listing calls req s).Counts frames := by
  have hready := counts_ready h hnone calls req
  rw [listing]
  split
  · rename_i hr
    exact counts_reopened hready ((liveRequests_ready calls req).trans (hrestart hr)) calls
  · exact hready

theorem counts_submitted {t : HardwareInterface}
    (h : s.Counts frames) (hnew : req.frameNumber ∉ frames)
    (ht : Submitted (insertRequest req s) t)
    (hlive : t.mPendingLiveRequest = if req.inputBuffer = none then s.mPendingLiveRequest + 1
      else s.mPendingLiveRequest) : t.Counts (frames ++ [req.frameNumber]) := by
  have hreq : (t.ledger [] []).requests = (s.ledger [] []).requests ++
      [ledgerReq ⟨req.frameNumber, req.outputs.map fun o => { stream := o.stream },
        req.inputBuffer, false, 0, false, false, 0⟩] := by
    simp only [ledger, ht.requests, insertRequest, map_append, map_singleton]
  have hheld : (t.ledger [] []).held = (s.ledger [] []).held := by
    simp only [ledger]
    rw [ht.rest]
    rfl
  have hcount : t.mPendingLiveRequest =
      if req.inputBuffer.isSome then s.mPendingLiveRequest else s.mPendingLiveRequest + 1 := by
    rw [hlive]
    cases req.inputBuffer <;> rfl
  rw [Counts, hreq, hheld, hcount]
  exact BufferLedger.Counted.insert h hnew

theorem Counts.noneCounted (h : s.mState = .configured → s.Counts []) : s.NoneCounted := by
  intro hconf
  have hcounts := h hconf
  have hnil : (s.ledger [] []).requests = [] :=
    eq_nil_iff_forall_not_mem.mpr fun r hr =>
      absurd (BufferLedger.Counted.known hcounts r hr) (by simp)
  rw [BufferLedger.Counted.live hcounts, hnil]
  rfl

end HardwareInterface

/-! ### Runs -/

namespace CaptureState

open HardwareInterface

/-- The condition on an event under which the counter stays right. A request that gets to the
settings restarts the sensor only without live requests; if the lists take it, the calls after
succeed, and the counter does not overflow. Metadata has not the number of a reprocess request. -/
def KeepsCount (s : CaptureState) : CaptureEvent → Prop
  | .request calls req =>
    Entering calls req s.hal → Prepares calls req s.hal → (Restarts calls req s.hal → s.hal.liveRequests = 0) ∧
      ((Restarts calls req s.hal → Reopens calls.restart s.hal.channels) →
        Ending calls req s.hal ∧ (req.inputBuffer = none → s.hal.liveRequests + 1 < 2 ^ 32))
  | .metadata m => ∀ n, m.number = some n → ∀ i ∈ s.hal.mPendingRequestsList,
      i.frameNumber = n → i.inputBuffer = none
  | .flush => False
  | _ => True

/-- What every run keeps whose events meet the condition. -/
structure CountInvariant (s : CaptureState) : Prop where
  working : s.hal.Working
  flush : s.hal.mFlush = false
  counts : s.hal.Counts s.frames
  few : s.hal.mPendingLiveRequest < 2 ^ 32
  configured : s.hal.mState = .configured → s.hal.Counts []

variable {s : CaptureState}

theorem Initial.countInvariant (h : s.Initial) (hflush : s.hal.mFlush = false) : s.CountInvariant := by
  have hcounts (frames : List ℕ) : s.hal.Counts frames := by
    rw [Counts, HardwareInterface.ledger, h.requests, h.results, h.live]
    exact ⟨nodup_nil, by simp, by simp, by simp, rfl⟩
  exact ⟨⟨h.flushPerf, h.state⟩, hflush, hcounts _, by rw [h.live]; omega, fun _ => hcounts []⟩

theorem request_hal (s : CaptureState) (calls : RequestCalls) (req : CaptureRequest) :
    (s.request calls req).hal = (s.hal.processCaptureRequest calls req).2 := by
  rw [request]
  split <;> rfl

theorem request_frames (s : CaptureState) (calls : RequestCalls) (req : CaptureRequest) :
    s.frames ⊆ (s.request calls req).frames := by
  rw [request]
  split
  · simp [frames]
  · simp [frames]

theorem request_frames_takes {calls : RequestCalls} {req : CaptureRequest}
    (h : Takes calls req s.hal) : (s.request calls req).frames = s.frames ++ [req.frameNumber] := by
  rw [request, prepareRequest_of_takes calls req s.hal h]
  simp [frames]

variable {t : CaptureState}

theorem CountInvariant.keep (h : s.CountInvariant)
    (hframes : s.frames ⊆ t.frames) (hstate : t.hal.mState = s.hal.mState)
    (hperf : t.hal.mFlushPerf = s.hal.mFlushPerf) (hflush : t.hal.mFlush = s.hal.mFlush)
    (hcounts : ∀ frames, s.hal.Counts frames → t.hal.Counts frames)
    (hlive : t.hal.mPendingLiveRequest ≤ s.hal.mPendingLiveRequest) : t.CountInvariant where
  working := by
    refine ⟨hperf.trans h.working.flushPerf, ?_⟩
    rw [hstate]
    exact h.working.state
  flush := hflush.trans h.flush
  counts := (hcounts _ h.counts).mono hframes
  few := Nat.lt_of_le_of_lt hlive h.few
  configured := fun hconf => hcounts [] (h.configured (hstate ▸ hconf))

theorem CountInvariant.handled (h : s.CountInvariant) {hal : HardwareInterface} (hh : Handled s.hal hal)
    (hcounts : ∀ frames, s.hal.Counts frames → hal.Counts frames ∧
      hal.mPendingLiveRequest ≤ s.hal.mPendingLiveRequest) {queued : List Out}
    {settled : List ℕ} :
    CountInvariant { s with hal := hal, queued := queued, settled := settled } := by
  refine h.keep (List.Subset.refl _) hh.mState ?_ ?_ (fun frames hs => (hcounts frames hs).1) (hcounts _ h.counts).2
  · change hal.mFlushPerf = _
    rw [hh.rest]
  · change hal.mFlush = _
    rw [hh.rest]

theorem CountInvariant.untouched (h : s.CountInvariant) (hframes : s.frames ⊆ t.frames) (hu : Untouched s.hal t.hal)
    (hlive : t.hal.mPendingLiveRequest = s.hal.mPendingLiveRequest) : t.CountInvariant := by
  refine h.keep hframes ?_ ?_ ?_ (fun frames hs => ?_) (Nat.le_of_eq hlive)
  · rw [hu]
  · rw [hu]
  · rw [hu]
  · rw [Counts, hu.ledger, hlive]
    exact hs

/-- A request. -/
theorem CountInvariant.request (h : s.CountInvariant) {calls : RequestCalls}
    {req : CaptureRequest} (hf : s.Fresh req) (hg : s.KeepsCount (.request calls req)) :
    (s.request calls req).CountInvariant := by
  have hnone : s.hal.NoneCounted := Counts.noneCounted h.configured
  have hopened : s.hal.opened.mPendingLiveRequest = s.hal.mPendingLiveRequest :=
    opened_live.mpr hnone
  have hends := processCaptureRequest_ends calls req s.hal h.working.state
  have hframes := request_frames s calls req
  have htakes := @request_frames_takes s calls req
  have hhal := request_hal s calls req
  generalize s.request calls req = t at hframes htakes hhal ⊢
  generalize s.hal.processCaptureRequest calls req = r at hends hhal
  cases hends with
  | before hleft =>
    cases hleft with
    | start hnot he ht =>
      refine h.untouched hframes ?_ ?_
      · rw [hhal, ht]
        rfl
      · rw [hhal, ht]
        rfl
    | flushPerf henter hperf =>
      refine h.untouched hframes ?_ ?_
      · rw [hhal, opened_eq]
        rfl
      · rw [hhal]
        exact hopened
    | settings henter hperf hnot he ht =>
      refine h.untouched hframes ?_ ?_
      · rw [hhal, ht, opened_eq]
        rfl
      · rw [hhal, ht]
        exact hopened
    | restart henter hperf hprep hrestart hnot =>
      have hzero := (hg henter hprep).1 hrestart
      have hready := ready_untouched calls req s.hal
      have hlive : (ready calls req s.hal).mPendingLiveRequest = s.hal.mPendingLiveRequest := by
        rw [ready_configures]
        exact hopened
      refine h.keep hframes ?_ ?_ ?_ (fun frames hs => ?_) ?_
      · rw [hhal, reopened, notifyError_rest, hready]
      · rw [hhal, reopened, notifyError_rest, hready]
      · rw [hhal, reopened, notifyError_rest, hready]
      · rw [hhal]
        exact counts_reopened (counts_ready hs hnone calls req) ((liveRequests_ready calls req).trans hzero) calls
      · rw [hhal, reopened, notifyError_rest]
        exact Nat.le_of_eq hlive
  | flush _ hflush _ => exact absurd (h.flush.symm.trans hflush) Bool.false_ne_true
  | late htake _ hnot _ _ => exact absurd ((hg htake.1 htake.2.2.1).2 htake.2.2.2).1 hnot
  | accepted htake hflush hend hstate hlive ht =>
    obtain ⟨hrestart, hreopens⟩ := hg htake.1 htake.2.2.1
    have hbound := (hreopens htake.2.2.2).2
    have hlisting := counts_listing h.counts hnone hrestart
    have hlisted := (listing_live calls req s.hal).trans hopened
    have hnew : req.frameNumber ∉ s.frames := fun hmem => Nat.lt_irrefl _ (hf.1 _ hmem)
    rw [hopened] at hlive
    have hcounter : t.hal.mPendingLiveRequest =
        if req.inputBuffer = none then s.hal.mPendingLiveRequest + 1
        else s.hal.mPendingLiveRequest := by
      rw [hhal]
      refine hlive.trans ?_
      split
      · rename_i hreq
        rw [← h.counts.live] at hbound
        exact Nat.mod_eq_of_lt (hbound hreq)
      · rfl
    have hstarted : t.hal.mState = .started := by rw [hhal, hstate]
    constructor
    case working =>
      refine ⟨?_, .inr hstarted⟩
      rw [hhal, ht.rest]
      change (listing calls req s.hal).mFlushPerf = false
      rw [listing_untouched]
      split
      · rw [notifyError_rest]
        exact h.working.flushPerf
      · exact h.working.flushPerf
    case flush =>
      rw [hhal, ht.rest]
      exact (listing_rest calls req s.hal).2.1.trans h.flush
    case counts =>
      rw [htakes htake, hhal]
      refine counts_submitted hlisting hnew ht ?_
      rw [hlisted, ← hcounter, hhal]
    case few =>
      rw [hcounter]
      split
      · rename_i hreq
        rw [h.counts.live]
        exact hbound hreq
      · exact h.few
    case configured => exact fun hconf => by simp [hstarted] at hconf

theorem CountInvariant.step (h : s.CountInvariant) {e : CaptureEvent}
    (hg : s.KeepsCount e) (hstep : s.step e = some t) : t.CountInvariant := by
  cases e with
  | request calls req =>
    simp only [CaptureState.step, Option.ite_none_right_eq_some, Option.some.injEq] at hstep
    obtain ⟨hf, rfl⟩ := hstep
    exact h.request hf hg
  | metadata m =>
    cases hstep
    exact h.handled (handled_metadata s.hal m) fun frames hs => counts_metadata hs m hg
  | buffer o error =>
    simp only [CaptureState.step, Option.ite_none_right_eq_some, Option.some.injEq] at hstep
    obtain ⟨-, rfl⟩ := hstep
    refine h.handled (handled_buffer s.hal h.working.flushPerf _ _) fun frames hs => ?_
    obtain ⟨hcounts, hlive⟩ := counts_buffer hs h.working ⟨o.stream, o.buffer, error⟩ o.frame
    exact ⟨hcounts, Nat.le_of_eq hlive⟩
  | input frameNumber =>
    cases hstep
    refine h.handled (handled_inputBuffer s.hal frameNumber) fun frames hs => ?_
    obtain ⟨hcounts, hlive⟩ := counts_inputBuffer hs frameNumber
    exact ⟨hcounts, Nat.le_of_eq hlive⟩
  | flush => exact hg.elim

theorem CountInvariant.callback (h : s.CountInvariant) {e : CaptureEvent}
    (hg : s.KeepsCount e) (hstep : s.step e = some t)
    (he : ∀ calls req, e ≠ .request calls req) :
    t.hal.mPendingLiveRequest ≤ s.hal.mPendingLiveRequest := by
  cases e with
  | request calls req => exact absurd rfl (he calls req)
  | metadata m =>
    cases hstep
    exact (counts_metadata h.counts m hg).2
  | buffer o error =>
    simp only [CaptureState.step, Option.ite_none_right_eq_some, Option.some.injEq] at hstep
    obtain ⟨-, rfl⟩ := hstep
    exact Nat.le_of_eq (counts_buffer h.counts h.working _ _).2
  | input frameNumber =>
    cases hstep
    exact Nat.le_of_eq (counts_inputBuffer h.counts frameNumber).2
  | flush => exact hg.elim

/-- **Rejected requests and the counter.** A rejection leaves the pending lists and the counter as
they were exactly under `Atomic`, for every state of the HAL and every request whose number is
new. In every run without `flush` whose events meet `KeepsCount`, the counter is the number of the
live requests in the list, and no callback makes it wrap. -/
theorem rejected_atomic {s t : CaptureState} {es : List CaptureEvent} (hs : s.Initial)
    (hflush : s.hal.mFlush = false) (h : Run (guarded KeepsCount (fires CaptureState.step)) s es t)
    {calls : RequestCalls} {req : CaptureRequest} {hal : HardwareInterface}
    (hnew : ∀ e ∈ hal.mPendingBuffersMap, e.frameNumber ≠ req.frameNumber) :
    ((Rejects (hal.processCaptureRequest calls req).1 →
      SamePending hal (hal.processCaptureRequest calls req).2) ↔ Atomic calls req hal) ∧
    t.hal.mPendingLiveRequest = t.hal.liveRequests ∧
    ∀ e u, guarded KeepsCount (fires CaptureState.step) t e u → (∀ calls req, e ≠ .request calls req) →
        u.hal.mPendingLiveRequest ≤ t.hal.mPendingLiveRequest := by
  have hinv : t.CountInvariant :=
    h.invariant (fun _ _ _ hinv hstep => hinv.step hstep.1 hstep.2) (hs.countInvariant hflush)
  exact ⟨rejected_iff hnew, hinv.counts.live, fun e u hstep he => hinv.callback hstep.1 hstep.2 he⟩

/-- A live request is accepted, and the next one is rejected by its channel. -/
theorem rejected_atomic_live : ∃ t, Run (guarded KeepsCount (fires step)) configured [liveRequest 1 11] t ∧
    ((Rejects (t.hal.processCaptureRequest { channelRequest := fun _ => none }
        { frameNumber := 2, outputs := [{ stream := 1, buffer := 12 }] }).1 →
      SamePending t.hal (t.hal.processCaptureRequest { channelRequest := fun _ => none }
        { frameNumber := 2, outputs := [{ stream := 1, buffer := 12 }] }).2) ↔
      Atomic { channelRequest := fun _ => none }
        { frameNumber := 2, outputs := [{ stream := 1, buffer := 12 }] } t.hal) ∧
    t.hal.mPendingLiveRequest = t.hal.liveRequests ∧
    ∀ e u, guarded KeepsCount (fires step) t e u → (∀ calls req, e ≠ .request calls req) →
      u.hal.mPendingLiveRequest ≤ t.hal.mPendingLiveRequest := by
  have hguard : configured.KeepsCount (liveRequest 1 11) := by
    rintro - -
    refine ⟨fun hr => absurd hr.2 (by decide), fun _ => ⟨⟨?_, ?_, ?_, ?_⟩, fun _ => by decide⟩⟩
    · decide
    · decide
    · decide
    · exact fun _ _ => rfl
  have hex : (step configured (liveRequest 1 11)).map (fun t =>
      decide (∀ e ∈ t.hal.mPendingBuffersMap, e.frameNumber ≠ 2)) = some true := by decide
  obtain ⟨t, ht, hfacts⟩ := Option.map_eq_some_iff.mp hex
  have hrun : Run (guarded KeepsCount (fires step)) configured [liveRequest 1 11] t :=
    Run.single ⟨hguard, ht⟩
  exact ⟨t, hrun, rejected_atomic configured_initial rfl hrun (of_decide_eq_true hfacts)⟩

/-- A live request whose channel fails is rejected and stays in the lists. The metadata of its
number takes two entries out where one was counted, and the counter wraps. -/
theorem rejected_request_stays : ∃ t u v calls req m, configured.Initial ∧
    configured.hal.mFlush = false ∧ Run (fires step) configured [liveRequest 1 11] t ∧
    t.Fresh req ∧ (t.hal.processCaptureRequest calls req).1 = .rejected .channelRequest ∧
    ¬ SamePending t.hal (t.hal.processCaptureRequest calls req).2 ∧
    Run (fires step) t [.request calls req] u ∧ u.hal.mPendingLiveRequest = 1 ∧
    u.hal.liveRequests = 2 ∧ Run (fires step) u [.metadata m] v ∧
    v.hal.mPendingLiveRequest = 2 ^ 32 - 1 ∧ v.hal.liveRequests = 0 := by
  have hex : (step configured (liveRequest 1 11)).map (fun t =>
      let calls : RequestCalls := { channelRequest := fun _ => none }
      let req : CaptureRequest := { frameNumber := 2, outputs := [{ stream := 1, buffer := 12 }] }
      let u := t.request calls req
      let v := u.metadata { frameNumber := some 2 }
      decide (t.Fresh req ∧ (t.hal.processCaptureRequest calls req).1 = .rejected .channelRequest ∧
        (t.hal.processCaptureRequest calls req).2.mPendingRequestsList ≠
          t.hal.mPendingRequestsList ∧ u.hal.mPendingLiveRequest = 1 ∧
        u.hal.liveRequests = 2 ∧ v.hal.mPendingLiveRequest = 2 ^ 32 - 1 ∧
        v.hal.liveRequests = 0)) = some true := by decide
  obtain ⟨t, ht, hfacts⟩ := Option.map_eq_some_iff.mp hex
  obtain ⟨hfresh, hexit, hlist, hone, htwo, hwrap, hzero⟩ := of_decide_eq_true hfacts
  exact ⟨t, _, _, _, _, _, configured_initial, rfl, Run.single ht, hfresh, hexit,
    fun h => hlist h.1, Run.single (if_pos hfresh), hone, htwo, Run.single rfl, hwrap, hzero⟩

end CaptureState

end Marlin
