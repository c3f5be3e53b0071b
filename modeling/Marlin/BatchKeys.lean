import Marlin.BatchMetadata
import Marlin.MetadataFates
import Marlin.PendingNodes

/-!
# The Keys of `mPendingBatchMap`

`processCaptureRequest` adds the last frame of a batch to `mPendingBatchMap`, with the first one; where
there are no batches, it adds the frame of every live request. `handleBatchMetadata` removes the entry
of the metadata that it gets. Nothing else does: neither `handleMetadataWithLock` outside of batch mode,
nor a metadata buffer of a later batch, nor what returns the pending requests.

## Conventions

* A metadata callback is its first part, which looks the batches up in batch mode, and then the turns,
  one for each metadata that `handleMetadataWithLock` gets. Other events come in between.
* A batch is the interval from the value of a key to the key.

## Main results

* `KeysPending.turn`, `KeysPending.request`: the events keep the frame of every key pending.
* `keys_pending_run`: in a run in which no metadata is handled for a frame at or after a key, and
  nothing pending is returned while there are keys, every key is that of a batch with a pending frame.
-/

open List Option Ledger Transition

namespace Marlin

namespace HardwareInterface

/-- The numbers of the pending requests, and whether they are reprocess requests. -/
def pendingKinds (s : HardwareInterface) : List (ℕ × Bool) :=
  s.mPendingRequestsList.map fun i => (ledgerReq i).kind

variable {s t : HardwareInterface}

theorem pendingKinds_of_ledger (h : t.mPendingRequestsList.map ledgerReq = s.mPendingRequestsList.map ledgerReq) :
    t.pendingKinds = s.pendingKinds := by
  have hkinds := congrArg (List.map Req.kind) h
  rw [List.map_map, List.map_map] at hkinds
  exact hkinds

theorem pendingKinds_map {g : PendingRequestInfo → PendingRequestInfo}
    (h : t.mPendingRequestsList = s.mPendingRequestsList.map g)
    (hg : ∀ i, (ledgerReq (g i)).kind = (ledgerReq i).kind) : t.pendingKinds = s.pendingKinds := by
  rw [pendingKinds, h, List.map_map]
  exact List.map_congr_left fun i _ => hg i

theorem mem_pendingKinds {f : ℕ} : (f, false) ∈ s.pendingKinds ↔
      ∃ i ∈ s.mPendingRequestsList, i.frameNumber = f ∧ i.inputBuffer = none := by
  rw [pendingKinds, List.mem_map]
  refine exists_congr fun i => and_congr_right fun _ => ?_
  rw [Prod.mk.injEq]
  exact and_congr_right fun _ => Option.isSome_eq_false_iff.trans Option.isNone_iff_eq_none

/-- Only live requests are pending, and no reprocess result waits. -/
structure AllLive (s : HardwareInterface) : Prop where
  live : ∀ i ∈ s.mPendingRequestsList, i.inputBuffer = none
  results : s.mPendingReprocessResultList = []

theorem AllLive.of_kinds (h : s.AllLive) (hsub : t.pendingKinds ⊆ s.pendingKinds)
    (hresults : t.mPendingReprocessResultList ⊆ s.mPendingReprocessResultList) : t.AllLive where
  live := by
    intro i hi
    obtain ⟨k, hk, heq⟩ := mem_map.mp (hsub (mem_map_of_mem hi))
    have hinput : k.inputBuffer.isSome = i.inputBuffer.isSome := congrArg Prod.snd heq
    rw [h.live k hk, isSome_none] at hinput
    exact not_isSome_iff_eq_none.mp (by simp [← hinput])
  results := by
    rw [h.results] at hresults
    exact subset_nil.mp hresults

/-! ### Metadata -/

theorem AllLive.metadataEntry (h : s.AllLive) (m : MetadataInfo) (n : ℕ)
    {i : PendingRequestInfo} (hlive : i.inputBuffer = none) :
    (s.metadataEntry m n i).mPendingRequestsList =
        s.mPendingRequestsList.eraseP (fun k => k.frameNumber == i.frameNumber) ∧
      (s.metadataEntry m n i).AllLive := by
  have hstays : ¬ Stays n i := by
    rintro ⟨-, hinput⟩
    rw [hlive] at hinput
    cases hinput
  obtain ⟨hlist, hresults⟩ := answered_lists s m n i
  have hnone : (s.answered m n i).handlePendingReprocResults (n + 1) = s.answered m n i := by
    rw [handlePendingReprocResults, hresults, h.results]
    rfl
  rw [metadataEntry_eq, if_neg hstays, hnone]
  refine ⟨hlist, fun k hk => h.live k ?_, hresults.trans h.results⟩
  rw [hlist] at hk
  exact mem_of_mem_eraseP hk

theorem AllLive.metadataTurns (h : s.AllLive) (m : MetadataInfo) {n : ℕ}
    {l : List PendingRequestInfo} (hl : ∀ i ∈ l, i.inputBuffer = none ∧ i.frameNumber ≤ n) :
    (metadataTurns m n l s).pendingKinds ⊆ s.pendingKinds ∧ (∀ f, n < f → (f, false) ∈ s.pendingKinds →
        (f, false) ∈ (metadataTurns m n l s).pendingKinds) ∧
      (metadataTurns m n l s).AllLive := by
  induction l generalizing s with
  | nil => exact ⟨fun k hk => hk, fun f _ hf => hf, h⟩
  | cons i l ih =>
    obtain ⟨hlive, hle⟩ := hl i mem_cons_self
    obtain ⟨hlist, hnext⟩ := h.metadataEntry m n hlive
    obtain ⟨hsub, hlater, hall⟩ := ih hnext fun k hk => hl k (mem_cons_of_mem _ hk)
    refine ⟨fun k hk => ?_, fun f hf hmem => hlater f hf ?_, hall⟩
    · have hmem := hsub hk
      rw [pendingKinds, hlist] at hmem
      exact map_subset _ eraseP_subset hmem
    · obtain ⟨k, hk, hframe, hinput⟩ := mem_pendingKinds.mp hmem
      refine mem_pendingKinds.mpr ⟨k, ?_, hframe, hinput⟩
      rw [hlist]
      refine (mem_eraseP_of_neg ?_).mpr hk
      simp only [beq_iff_eq]
      omega

theorem AllLive.handleMetadata (h : s.AllLive) (m : MetadataInfo) :
    (s.handleMetadataWithLock m).pendingKinds ⊆ s.pendingKinds ∧
      (∀ f, (¬ s.GivesUp → ∀ n ∈ m.number, n < f) → (f, false) ∈ s.pendingKinds →
        (f, false) ∈ (s.handleMetadataWithLock m).pendingKinds) ∧
      (s.handleMetadataWithLock m).AllLive := by
  by_cases hup : s.GivesUp
  · have hskip : s.handleMetadataWithLock m = s := if_pos hup
    rw [hskip]
    exact ⟨fun k hk => hk, fun f _ hf => hf, h⟩
  · have hdone (u : HardwareInterface) : u.doneMetadata.pendingKinds = u.pendingKinds :=
      pendingKinds_map rfl fun _ => rfl
    have hurgent : (s.urgentPart m).pendingKinds = s.pendingKinds ∧
        (s.urgentPart m).mPendingReprocessResultList = s.mPendingReprocessResultList := by
      rw [urgentPart]
      cases m.urgentNumber with
      | none => exact ⟨rfl, rfl⟩
      | some urgent =>
        exact ⟨pendingKinds_of_ledger (@ledger_urgentMetadata [] [] s urgent).1, rfl⟩
    have hstart : (s.urgentPart m).AllLive :=
      h.of_kinds (hurgent.1 ▸ fun k hk => hk) (hurgent.2 ▸ fun k hk => hk)
    have hpart : ((s.urgentPart m).normalPart m).pendingKinds ⊆ s.pendingKinds ∧
        (∀ f, (∀ n ∈ m.number, n < f) → (f, false) ∈ s.pendingKinds →
          (f, false) ∈ ((s.urgentPart m).normalPart m).pendingKinds) ∧
        ((s.urgentPart m).normalPart m).AllLive := by
      rw [normalPart, ← hurgent.1]
      cases m.number with
      | none => exact ⟨fun k hk => hk, fun f _ hf => hf, hstart⟩
      | some n =>
        obtain ⟨hsub, hlater, hall⟩ := hstart.metadataTurns m
          (l := upTo n (s.urgentPart m).mPendingRequestsList) fun i hi =>
            ⟨hstart.live i ((takeWhile_sublist _).subset hi), by simpa using mem_takeWhile_imp hi⟩
        exact ⟨hsub, fun f hf => hlater f (hf n rfl), hall⟩
    obtain ⟨hsub, hlater, hall⟩ := hpart
    rw [handleMetadata_open hup, hdone]
    exact ⟨hsub, fun f hf => hlater f (hf hup),
      hall.of_kinds (fun k hk => hdone ((s.urgentPart m).normalPart m) ▸ hk) fun j hj => hj⟩

/-! ### The other callbacks -/

theorem AllLive.handleBuffer (h : s.AllLive) (b : StreamBuffer) (f : ℕ) :
    (s.handleBufferWithLock b f).pendingKinds = s.pendingKinds ∧
      (s.handleBufferWithLock b f).mPendingReprocessResultList = s.mPendingReprocessResultList := by
  rw [handleBufferWithLock]
  split
  · exact ⟨rfl, rfl⟩
  · split
    · rw [handleBuffersDuringFlushLock]
      split <;> exact ⟨rfl, rfl⟩
    · split
      · exact ⟨rfl, rfl⟩
      · rename_i i hfind
        rw [if_neg (by rw [h.live i (mem_of_find?_eq_some hfind)]; exact Bool.false_ne_true)]
        refine ⟨pendingKinds_map rfl fun k => ?_, rfl⟩
        split <;> rfl

theorem AllLive.handleInputBuffer (h : s.AllLive) (f : ℕ) : s.handleInputBufferWithLock f = s := by
  rw [handleInputBufferWithLock]
  split
  · rename_i i hfind
    rw [if_neg (by rw [h.live i (mem_of_find?_eq_some hfind)]; exact Bool.false_ne_true)]
  · rfl

theorem AllLive.notifyError (h : s.AllLive) : s.notifyErrorForPendingRequests.AllLive where
  live := fun i hi => h.live i ((CaptureState.sublist_notifyError s).subset hi)
  results := rfl

theorem AllLive.flush (h : s.AllLive) (restartChannels : Bool)
    (answers : FlushAnswers) : (s.flush restartChannels answers).2.AllLive ∧
      (¬ (answers.unlink = true ∧ answers.bundleInfo = true) →
        (s.flush restartChannels answers).2.pendingKinds = s.pendingKinds) := by
  rw [HardwareInterface.flush]
  dsimp only
  by_cases hunlink : answers.unlink = false
  · rw [if_pos hunlink]
    exact ⟨⟨h.live, h.results⟩, fun _ => rfl⟩
  · rw [if_neg hunlink]
    by_cases hbundle : answers.bundleInfo = false
    · rw [if_pos hbundle]
      exact ⟨⟨h.live, h.results⟩, fun _ => rfl⟩
    · rw [if_neg hbundle]
      have hall : ({ s with
          mFlush := true
          channels := { stopAllChannels s.channels with
            handle := (stopAllChannels s.channels).handle.map fun _ => false }
          mPendingLiveRequest := 0 } : HardwareInterface).notifyErrorForPendingRequests.AllLive :=
        AllLive.notifyError ⟨h.live, h.results⟩
      refine ⟨?_, fun hnot => absurd ⟨?_, ?_⟩ hnot⟩
      · split <;> split <;> exact ⟨hall.live, hall.results⟩
      · simpa using hunlink
      · simpa using hbundle

/-- **An accepted live request** is pending after what it found, if it does not restart the sensor. -/
theorem AllLive.accepted (h : s.AllLive) {calls : RequestCalls} {req : CaptureRequest} (hlive : req.inputBuffer = none)
    (haccepted : (s.processCaptureRequest calls req).1 = .accepted) :
    (s.processCaptureRequest calls req).2.AllLive ∧ (s.processCaptureRequest calls req).2.pendingKinds =
        (pendingBefore calls req s).pendingKinds ++ [(req.frameNumber, false)] := by
  rcases processCaptureRequest_cases calls req (accepted_open haccepted) with
    ⟨r, -, hproc, hnot, -⟩ | ⟨u, -, hu, hsub⟩
  · rw [hproc] at haccepted
    exact absurd haccepted hnot
  · have hbefore : (pendingBefore calls req s).AllLive := by
      rw [pendingBefore]
      split
      · exact h.notifyError
      · exact h
    have hkinds : (s.processCaptureRequest calls req).2.pendingKinds =
        (pendingBefore calls req s).pendingKinds ++ [(req.frameNumber, false)] := by
      rw [pendingKinds_of_ledger hsub.requests, pendingKinds, insertRequest, hu, map_append, hlive]
      rfl
    have hresults : (s.processCaptureRequest calls req).2.mPendingReprocessResultList = [] := by
      rw [hsub.rest, insertRequest, hu]
      exact hbefore.results
    refine ⟨⟨fun i hi => ?_, hresults⟩, hkinds⟩
    have hkind : (ledgerReq i).kind ∈ (s.processCaptureRequest calls req).2.pendingKinds :=
      mem_map_of_mem hi
    have hinput : i.inputBuffer.isSome = false := by
      rw [hkinds, mem_append] at hkind
      rcases hkind with hkind | hkind
      · obtain ⟨k, hk, heq⟩ := mem_map.mp hkind
        have hsame : k.inputBuffer.isSome = i.inputBuffer.isSome := congrArg Prod.snd heq
        rw [← hsame, hbefore.live k hk]
        rfl
      · exact congrArg Prod.snd (mem_singleton.mp hkind)
    exact not_isSome_iff_eq_none.mp (by simp [hinput])

end HardwareInterface

/-! ### The events -/

/-- The HAL with the frames of the accepted requests, and the metadata that the callback still hands
on. -/
structure CallbackState where
  hal : HardwareInterface
  accepted : List ℕ := []
  loop : List MetadataInfo := []

namespace CallbackState

open HardwareInterface

variable {s t : CallbackState}

/-- The first part of a metadata callback. Outside of batch mode the buffer is handed on as it is. -/
def metadata (s : CallbackState) (m : MetadataInfo) : CallbackState :=
  if s.hal.mBatchSize = 0 then { s with loop := [m] }
  else { s with
    hal := (s.hal.lookUpBatches m).1
    loop := (s.hal.lookUpBatches m).2.elim [] fun numbers => expand m numbers.1 numbers.2 }

/-- The events that can happen: requests are live ones that are accepted, with increasing numbers, and
the metadata callback is called again after its loop. -/
def step (s : CallbackState) : BatchEvent → Option CallbackState
  | .request calls req =>
    let r := s.hal.processCaptureRequest calls req
    if r.1 = .accepted ∧ req.inputBuffer = none ∧ ∀ f ∈ s.accepted, f < req.frameNumber then
      some { s with hal := r.2, accepted := s.accepted ++ [req.frameNumber] }
    else none
  | .metadata m => if s.loop = [] then some (s.metadata m) else none
  | .turn =>
    match s.loop with
    | [] => none
    | m :: loop => some { s with hal := s.hal.handleMetadataWithLock m, loop := loop }
  | .buffer b frameNumber => some { s with hal := s.hal.handleBufferWithLock b frameNumber }
  | .input frameNumber => some { s with hal := s.hal.handleInputBufferWithLock frameNumber }
  | .flush restartChannels answers =>
    some { s with hal := (s.hal.flush restartChannels answers).2 }

/-- Before the first request. -/
structure Initial (s : CallbackState) : Prop where
  requests : s.hal.mPendingRequestsList = []
  results : s.hal.mPendingReprocessResultList = []
  map : s.hal.mPendingBatchMap = []
  first : s.hal.mFirstFrameNumberInBatch = 0

/-- No pending frame of a key leaves: metadata is handled only for a frame before all keys, and what is
pending is returned only while there are no keys. -/
def KeepsKeys (s : CallbackState) : BatchEvent → Prop
  | .request calls req =>
    restarts calls req s.hal = true → s.hal.mPendingBatchMap = []
  | .turn => ¬ s.hal.GivesUp → ∀ m ∈ s.loop.head?, ∀ n ∈ m.number,
      ∀ e ∈ s.hal.mPendingBatchMap, n < e.1
  | .flush _ answers =>
    answers.unlink = true ∧ answers.bundleInfo = true → s.hal.mPendingBatchMap = []
  | _ => True

instance (s : CallbackState) (e : BatchEvent) : Decidable (s.KeepsKeys e) := by
  delta KeepsKeys
  cases e <;> infer_instance

/-! ### The invariant -/

/-- The frame of every key is pending, and its batch is not empty. The next batch starts at the next
request or before. -/
structure KeysPending (s : CallbackState) : Prop where
  keys : ∀ e ∈ s.hal.mPendingBatchMap, e.2 ≤ e.1 ∧ (e.1, false) ∈ s.hal.pendingKinds
  first : ∀ n, (∀ f ∈ s.accepted, f < n) → s.hal.mFirstFrameNumberInBatch ≤ n
  live : s.hal.AllLive

theorem keysPending_initial (h : s.Initial) : s.KeysPending where
  keys := by
    rw [h.map]
    exact fun e he => absurd he not_mem_nil
  first := by
    rw [h.first]
    exact fun n _ => Nat.zero_le n
  live := ⟨by rw [h.requests]; exact fun i hi => absurd hi not_mem_nil, h.results⟩

theorem KeysPending.kept (h : s.KeysPending) {hal : HardwareInterface} (loop : List MetadataInfo)
    (hmap : hal.mPendingBatchMap ⊆ s.hal.mPendingBatchMap)
    (hfirst : hal.mFirstFrameNumberInBatch = s.hal.mFirstFrameNumberInBatch)
    (hpending : ∀ e ∈ hal.mPendingBatchMap, (e.1, false) ∈ s.hal.pendingKinds → (e.1, false) ∈ hal.pendingKinds)
    (hlive : hal.AllLive) : KeysPending { s with hal := hal, loop := loop } where
  keys := fun e he => ⟨(h.keys e (hmap he)).1, hpending e he (h.keys e (hmap he)).2⟩
  first := by
    rw [hfirst]
    exact h.first
  live := hlive

/-- **The first part of a metadata callback** adds no key. -/
theorem KeysPending.metadata (h : s.KeysPending) (m : MetadataInfo) : (s.metadata m).KeysPending := by
  have hlook : (s.hal.lookUpBatches m).1.mPendingBatchMap ⊆ s.hal.mPendingBatchMap ∧
      (s.hal.lookUpBatches m).1.mFirstFrameNumberInBatch = s.hal.mFirstFrameNumberInBatch ∧
      (s.hal.lookUpBatches m).1.pendingKinds = s.hal.pendingKinds ∧
      (s.hal.lookUpBatches m).1.AllLive := by
    rw [lookUpBatches]
    split
    · exact ⟨fun e he => he, rfl, rfl, h.live.live, h.live.results⟩
    · split
      · exact ⟨fun e he => he, rfl, rfl, h.live.live, h.live.results⟩
      · refine ⟨?_, rfl, rfl, h.live.live, h.live.results⟩
        cases m.number with
        | none => exact fun e he => he
        | some n => exact filter_sublist.subset
  obtain ⟨hmap, hfirst, hkinds, hlive⟩ := hlook
  rw [CallbackState.metadata]
  split
  · exact h.kept [m] (fun e he => he) rfl (fun e _ hf => hf) h.live
  · exact h.kept _ hmap hfirst (fun e _ hf => hkinds ▸ hf) hlive

/-- **A turn** for a frame before all keys keeps their frames. -/
theorem KeysPending.turn (h : s.KeysPending) (hkeeps : s.KeepsKeys .turn) {m : MetadataInfo}
    {loop : List MetadataInfo} (hloop : s.loop = m :: loop) :
    KeysPending { s with hal := s.hal.handleMetadataWithLock m, loop := loop } := by
  obtain ⟨-, -, hfirst, hmap⟩ := BatchState.sameBatch_handled (handled_metadata s.hal m)
  obtain ⟨-, hlater, hlive⟩ := h.live.handleMetadata m
  refine h.kept loop (fun e he => hmap ▸ he) hfirst (fun e he hf => ?_) hlive
  rw [hmap] at he
  refine hlater e.1 (fun hup n hn => hkeeps hup m ?_ n hn e he) hf
  rw [hloop]
  rfl

/-- **A request** adds its frame with its key. -/
theorem KeysPending.request (h : s.KeysPending) {calls : RequestCalls} {req : CaptureRequest}
    (hkeeps : s.KeepsKeys (.request calls req)) (hlive : req.inputBuffer = none)
    (haccepted : (s.hal.processCaptureRequest calls req).1 = .accepted)
    (hnew : ∀ f ∈ s.accepted, f < req.frameNumber) :
    KeysPending { s with
      hal := (s.hal.processCaptureRequest calls req).2
      accepted := s.accepted ++ [req.frameNumber] } := by
  obtain ⟨hall, hkinds⟩ := h.live.accepted hlive haccepted
  obtain ⟨-, hfirst, hbatch⟩ := processCaptureRequest_accepted hlive haccepted rfl
  have hstart : batchStart calls req s.hal ≤ req.frameNumber := by
    rw [batchStart]
    split
    · exact Nat.le_refl _
    · exact h.first _ hnew
  have hkey : ∀ e ∈ (s.hal.processCaptureRequest calls req).2.mPendingBatchMap,
      e ∈ s.hal.mPendingBatchMap ∨ e = (req.frameNumber, batchStart calls req s.hal) := by
    intro e he
    split at hbatch
    · rw [hbatch.2, addBatch, mem_append, mem_singleton] at he
      exact he.imp_left (filter_sublist.subset ·)
    · rw [hbatch.2] at he
      exact .inl he
  refine ⟨fun e he => ?_, fun n hn => ?_, hall⟩
  · change e.2 ≤ e.1 ∧ (e.1, false) ∈ (s.hal.processCaptureRequest calls req).2.pendingKinds
    rw [hkinds, mem_append]
    rcases hkey e he with hold | rfl
    · obtain ⟨hle, hmem⟩ := h.keys e hold
      refine ⟨hle, .inl ?_⟩
      rw [pendingBefore]
      split
      · rename_i hrestarts
        rw [hkeeps hrestarts] at hold
        exact absurd hold not_mem_nil
      · exact hmem
    · exact ⟨hstart, .inr (mem_singleton_self _)⟩
  · change (s.hal.processCaptureRequest calls req).2.mFirstFrameNumberInBatch ≤ n
    have hlt := hn req.frameNumber (mem_append_right _ (mem_singleton_self _))
    rw [hfirst]
    exact Nat.le_trans hstart (Nat.le_of_lt hlt)

theorem KeysPending.step (h : s.KeysPending) {e : BatchEvent} (hkeeps : s.KeepsKeys e)
    (hstep : s.step e = some t) : t.KeysPending := by
  cases e with
  | request calls req =>
    simp only [CallbackState.step, ite_none_right_eq_some, some.injEq] at hstep
    obtain ⟨⟨haccepted, hlive, hnew⟩, rfl⟩ := hstep
    exact h.request hkeeps hlive haccepted hnew
  | metadata m =>
    simp only [CallbackState.step, ite_none_right_eq_some, some.injEq] at hstep
    obtain ⟨-, rfl⟩ := hstep
    exact h.metadata m
  | turn =>
    rw [CallbackState.step] at hstep
    split at hstep
    · cases hstep
    · rename_i m loop hloop
      cases hstep
      exact h.turn hkeeps hloop
  | buffer b frameNumber =>
    cases hstep
    obtain ⟨-, -, hfirst, hmap⟩ := BatchState.sameBatch_buffer s.hal b frameNumber
    obtain ⟨hkinds, hresults⟩ := h.live.handleBuffer b frameNumber
    exact h.kept s.loop (fun e he => hmap ▸ he) hfirst (fun e _ hf => hkinds ▸ hf)
      (h.live.of_kinds (fun k hk => hkinds ▸ hk) fun j hj => hresults ▸ hj)
  | input frameNumber =>
    cases hstep
    rw [h.live.handleInputBuffer frameNumber]
    exact h
  | flush restartChannels answers =>
    cases hstep
    obtain ⟨-, -, hfirst, hmap⟩ := BatchState.sameBatch_flush s.hal restartChannels answers
    obtain ⟨hlive, hkinds⟩ := h.live.flush restartChannels answers
    refine h.kept s.loop (fun e he => hmap ▸ he) hfirst (fun e he hf => ?_) hlive
    by_cases hreturns : answers.unlink = true ∧ answers.bundleInfo = true
    · rw [hmap, hkeeps hreturns] at he
      exact absurd he not_mem_nil
    · exact hkinds hreturns ▸ hf

/-! ### Every run -/

/-- Every key is the last frame of a batch with a pending frame. -/
def KeysOutstanding (s : CallbackState) : Prop :=
  ∀ e ∈ s.hal.mPendingBatchMap, ∃ i ∈ s.hal.mPendingRequestsList, e.2 ≤ i.frameNumber ∧ i.frameNumber ≤ e.1
deriving Decidable

theorem KeysPending.outstanding (h : s.KeysPending) : s.KeysOutstanding := by
  intro e he
  obtain ⟨hle, hmem⟩ := h.keys e he
  obtain ⟨i, hi, hframe, -⟩ := mem_pendingKinds.mp hmem
  exact ⟨i, hi, by omega, by omega⟩

/-- **The keys of `mPendingBatchMap`.** In every run, in batch mode or not, whose events keep the pending
frames of the keys, every key is the last frame of a batch with a pending frame, and is pending itself. -/
theorem keys_pending_run {es : List BatchEvent} (hs : s.Initial)
    (h : Run (guarded KeepsKeys (fires step)) s es t) : t.KeysOutstanding ∧
      ∀ e ∈ t.hal.mPendingBatchMap, ∃ i ∈ t.hal.mPendingRequestsList, i.frameNumber = e.1 := by
  have hinv : t.KeysPending :=
    h.invariant (fun _ _ _ hinv hstep => hinv.step hstep.1 hstep.2) (keysPending_initial hs)
  refine ⟨hinv.outstanding, fun e he => ?_⟩
  obtain ⟨i, hi, hframe, -⟩ := mem_pendingKinds.mp (hinv.keys e he).2
  exact ⟨i, hi, hframe⟩

/-- A HAL in batch mode. -/
def batchCallbacks : CallbackState where
  hal := BatchState.batchMode.hal

/-- A batch whose metadata comes with both numbers, and a request of the next one. -/
def batchSession : List BatchEvent :=
  [BatchState.batchRequest 5 true, BatchState.batchRequest 6 true, BatchState.batchRequest 7 false,
    BatchState.batchRequest 8 false, .metadata { urgentFrameNumber := some 7, frameNumber := some 7 },
    .turn, .turn, .turn]

/-- The batch has left the map, and the key of the next one is there. -/
theorem keys_pending_batches : batchCallbacks.Initial ∧
    ∃ t, Run (guarded KeepsKeys (fires step)) batchCallbacks batchSession t ∧ t.KeysOutstanding ∧
      t.hal.mPendingBatchMap = [(8, 8)] :=
  have hinitial : batchCallbacks.Initial := ⟨rfl, rfl, rfl, rfl⟩
  ⟨hinitial, (exists_run (by decide)).imp fun _ h => ⟨h.1, (keys_pending_run hinitial h.1).1, h.2⟩⟩

/-- A HAL without batches. -/
def singleCallbacks : CallbackState where
  hal := { mState := .started, mCurrentRequestId := 1 }

/-- Without batches, the key of a frame stays when its metadata has come. -/
theorem key_of_answered_frame : singleCallbacks.Initial ∧ ∃ t, Run (fires step) singleCallbacks
        [.request {} { frameNumber := 1, outputs := [{ stream := 0, buffer := 10 }] },
          .metadata { urgentFrameNumber := some 1, frameNumber := some 1 }, .turn] t ∧
      t.hal.mPendingBatchMap = [(1, 0)] ∧ t.hal.mPendingRequestsList = [] ∧
      ¬ t.KeysOutstanding :=
  ⟨⟨rfl, rfl, rfl, rfl⟩, exists_run_fires (by decide)⟩

end CallbackState

end Marlin
