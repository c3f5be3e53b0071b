import Marlin.CaptureDelivery

/-!
# What a Flush Returns

`notifyErrorForPendingRequests` returns everything that is pending if no reprocess result waits:
then every pending request has an entry in the map. `flushPerf` waits for as many buffers as the
map has, which are those with the channels and those cached in pending requests. While it waits,
buffers are counted and not looked at; where the wait fails they are only in the map.

## Main results

* `drained_iff`: when the walk over the map returns everything.
* `waitsExactly_iff`: when `flushPerf` waits for the buffers that are with the channels.
* `absorbed_returned_iff`: when the buffers of a failed `flushPerf` are returned.
-/

open List Option Ledger Transition

namespace Marlin

namespace CaptureState

/-! ### What is drained -/

/-- From `s` to `t` everything that was pending is returned: the lists are empty; each output
buffer of the map, of a request or of a reprocess result is returned once, as an error; each
input buffer of a pending request is returned once with its frame; and each pending request is
an error once. -/
structure DrainedBy (s t : HardwareInterface) : Prop where
  requests : t.mPendingRequestsList = []
  map : t.mPendingBuffersMap = []
  drops : t.mPendingFrameDropList = []
  results : t.mPendingReprocessResultList = []
  outputs : ∀ o, o ∈ mapOuts s.mPendingBuffersMap ∨
      (∃ i ∈ s.mPendingRequestsList, ∃ b ∈ HardwareInterface.cachedBuffers i, o = bufferOut i.frameNumber b) ∨
      (∃ j ∈ s.mPendingReprocessResultList, o = bufferOut j.frameNumber j.buffer) →
    ((HardwareInterface.newCalls s t).flatMap Callback.outs).count o = 1 ∧
      ((HardwareInterface.newCalls s t).flatMap Callback.errorOuts).count o = 1
  inputs : ∀ i ∈ s.mPendingRequestsList, ∀ b ∈ i.inputBuffer,
    ((HardwareInterface.newCalls s t).flatMap Callback.inputs).count (i.frameNumber, b) = 1
  errors : ∀ i ∈ s.mPendingRequestsList, (HardwareInterface.newCalls s t).count (.errorRequest i.frameNumber) = 1

variable {e : PendingBuffersInRequest}

theorem count_flatMap_entry {β : Type*} [BEq β] [LawfulBEq β] {map : List PendingBuffersInRequest}
    (hsorted : map.Pairwise fun e e' => e.frameNumber < e'.frameNumber)
    {f : PendingBuffersInRequest → List β} {x : β} (he : e ∈ map)
    (hother : ∀ e' ∈ map, e'.frameNumber ≠ e.frameNumber → x ∉ f e') :
    (map.flatMap f).count x = (f e).count x := by
  induction map with
  | nil => simp at he
  | cons e' map ih =>
    obtain ⟨hlt, hsorted⟩ := pairwise_cons.mp hsorted
    rw [flatMap_cons, count_append]
    rcases mem_cons.mp he with rfl | he
    · have hrest : x ∉ map.flatMap f := by
        rintro hx
        obtain ⟨e', he', hx⟩ := mem_flatMap.mp hx
        exact hother e' (mem_cons_of_mem _ he') (Nat.ne_of_gt (hlt e' he')) hx
      rw [count_eq_zero.mpr hrest, Nat.add_zero]
    · rw [ih hsorted he fun k hk => hother k (mem_cons_of_mem _ hk),
        count_eq_zero.mpr (hother e' (by simp) (Nat.ne_of_lt (hlt e he))), Nat.zero_add]

theorem errorRequest_mem_drainCalls {frameNum frameNumber : ℕ} {requests : List PendingRequestInfo}
    (h : .errorRequest frameNumber ∈ HardwareInterface.drainCalls frameNum requests e) :
    frameNumber = e.frameNumber := by
  rw [HardwareInterface.drainCalls] at h
  split at h
  · simp at h
  · simpa using h

theorem input_mem_drainCalls {frameNum : ℕ} {requests : List PendingRequestInfo} {x : ℕ × StreamBuffer}
    (h : x ∈ (HardwareInterface.drainCalls frameNum requests e).flatMap Callback.inputs) :
    x.1 = e.frameNumber := by
  rw [HardwareInterface.drainCalls] at h
  split at h
  · simp [flatMap_map, Callback.inputs] at h
  · simp only [flatMap_cons, Callback.inputs, flatMap_nil, nil_append, append_nil, mem_toList, map_eq_some_iff] at h
    obtain ⟨b, -, rfl⟩ := h
    rfl

variable {s : CaptureState}

/-- **The walk over the map returns everything** if no reprocess result waits. -/
theorem drained (h : s.Invariant) (hheld : s.hal.mPendingReprocessResultList = []) :
    DrainedBy s.hal s.hal.notifyErrorForPendingRequests := by
  have hsorted := HardwareInterface.sorted_requests h.sound
  have hcover := HardwareInterface.covered h.sound hheld
  have hold := HardwareInterface.oldestFrameNum_le hsorted
  have heq := HardwareInterface.notifyError_eq h.map hsorted hcover
  have hcalls : HardwareInterface.newCalls s.hal s.hal.notifyErrorForPendingRequests = s.hal.mPendingBuffersMap.flatMap
        (HardwareInterface.drainCalls s.hal.oldestFrameNum s.hal.mPendingRequestsList) :=
    HardwareInterface.newCalls_eq (by rw [heq])
  have hlisted : (mapOuts s.hal.mPendingBuffersMap).Nodup := h.sound.handles.of_map _
  obtain ⟨houts, herrors⟩ := HardwareInterface.notifyError_outs s.hal
  -- A request is found by the number of its entry.
  have hfind : ∀ i ∈ s.hal.mPendingRequestsList,
      s.hal.mPendingRequestsList.find? (fun k => k.frameNumber == i.frameNumber) = some i := by
    rintro i hi
    cases hk : s.hal.mPendingRequestsList.find? (fun k => k.frameNumber == i.frameNumber) with
    | none => simpa using find?_eq_none.mp hk i hi
    | some k =>
      have hframe : k.frameNumber = i.frameNumber := by simpa using find?_some hk
      have hnodup : (s.hal.mPendingRequestsList.map PendingRequestInfo.frameNumber).Nodup :=
        pairwise_map.mpr (hsorted.imp fun hlt => Nat.ne_of_lt hlt)
      rw [inj_on_of_nodup_map hnodup (mem_of_find?_eq_some hk) hi hframe]
  constructor
  case requests => rw [heq]
  case map => rw [heq]
  case drops => rw [heq]
  case results => rw [heq]
  case outputs =>
    rintro o ho
    have hmem : o ∈ mapOuts s.hal.mPendingBuffersMap := by
      rcases ho with ho | ⟨i, hi, b, hb, rfl⟩ | ⟨j, hj, rfl⟩
      · exact ho
      · refine h.sound.listed.mem_iff.mpr (mem_append_right _ ?_)
        refine mem_flatMap.mpr ⟨ledgerReq i, mem_map.mpr ⟨i, hi, rfl⟩, ?_⟩
        rw [HardwareInterface.cached_ledgerReq]
        exact mem_map.mpr ⟨b, hb, rfl⟩
      · simp [hheld] at hj
    rw [houts, herrors]
    exact ⟨count_eq_one_of_mem hlisted hmem, count_eq_one_of_mem hlisted hmem⟩
  case inputs =>
    rintro i hi b hb
    obtain ⟨e, he, hframe⟩ := hcover i hi
    rw [hcalls, flatMap_assoc, count_flatMap_entry h.map.sorted he]
    · rw [HardwareInterface.drainCalls, if_neg (by have := hold i hi; omega)]
      rw [hframe, hfind i hi]
      simp [Callback.inputs, mem_def.mp hb]
    · rintro e' he' hne hx
      exact hne ((input_mem_drainCalls hx).symm.trans hframe.symm)
  case errors =>
    rintro i hi
    obtain ⟨e, he, hframe⟩ := hcover i hi
    rw [hcalls, count_flatMap_entry h.map.sorted he]
    · rw [HardwareInterface.drainCalls, if_neg (by have := hold i hi; omega)]
      simp [hframe]
    · rintro e' he' hne hx
      exact hne ((errorRequest_mem_drainCalls hx).symm.trans hframe.symm)

/-- **When everything is returned**: in a run whose flushes have found no reprocess result, the
walk over the map returns everything if and only if no reprocess result waits. -/
theorem drained_iff {s t : CaptureState} {es : List CaptureEvent} (hs : s.Initial)
    (h : Run (guarded DrainsAll (fires step)) s es t) :
    DrainedBy t.hal t.hal.notifyErrorForPendingRequests ↔ t.hal.mPendingReprocessResultList = [] := by
  have hinv := run_invariant hs h
  refine ⟨fun hdrained => ?_, drained hinv⟩
  rw [eq_nil_iff_forall_not_mem]
  rintro j hj
  have hcount := (hdrained.outputs (bufferOut j.frameNumber j.buffer) (.inr (.inr ⟨j, hj, rfl⟩))).1
  rw [(HardwareInterface.notifyError_outs t.hal).1] at hcount
  have hlisted : bufferOut j.frameNumber j.buffer ∈ mapOuts t.hal.mPendingBuffersMap :=
    count_pos_iff.mp (by omega)
  -- What is held is not listed: no buffer is in two places.
  have hnodup := hinv.sound.all_nodup
  rw [BufferLedger.all, append_assoc, nodup_append] at hnodup
  refine hnodup.2.2 _ (hinv.sound.listed.mem_iff.mp hlisted) _ ?_ rfl
  exact mem_append_left _ (mem_map.mpr ⟨j, hj, rfl⟩)

/-- A live request with a cached buffer is drained, and `drained_iff` applies. -/
theorem drained_iff_run : ∃ t, Run (guarded DrainsAll (fires step)) configured
    [liveRequest 1 11, liveRequest 2 12, .buffer ⟨1, 1, 11⟩ false] t ∧
      (DrainedBy t.hal t.hal.notifyErrorForPendingRequests ↔ t.hal.mPendingReprocessResultList = []) :=
  (exists_run (P := fun _ => True) (by decide)).imp fun _ h => ⟨h.1, drained_iff configured_initial h.1⟩

/-- A reprocess result waits for a live request. The walk over the map does not return its
buffer, and leaves its request in the list. -/
theorem waiting_undrained : ∃ t, Run (fires step) configured
    [liveRequest 1 11, reprocRequest 2 12, .buffer ⟨2, 2, 12⟩ false] t ∧ t.waiting = [⟨2, 2, 12⟩] ∧
      t.hal.notifyErrorForPendingRequests.sent =
        [.errorRequest 1, .result { frameNumber := 1, outputBuffers := [⟨1, 11, true⟩] }] ∧
      t.hal.notifyErrorForPendingRequests.mPendingRequestsList.map PendingRequestInfo.frameNumber = [2] ∧
      ¬ DrainedBy t.hal t.hal.notifyErrorForPendingRequests := by
  refine (exists_run_fires (P := fun t => t.waiting = [⟨2, 2, 12⟩] ∧ t.hal.notifyErrorForPendingRequests.sent =
      [.errorRequest 1, .result { frameNumber := 1, outputBuffers := [⟨1, 11, true⟩] }] ∧
    t.hal.notifyErrorForPendingRequests.mPendingRequestsList.map PendingRequestInfo.frameNumber = [2])
    (by decide)).imp fun t ht => ⟨ht.1, ?_⟩
  obtain ⟨-, hwaiting, hsent, hrequests⟩ := ht
  refine ⟨hwaiting, hsent, hrequests, fun hdrained => ?_⟩
  rw [hdrained.requests] at hrequests
  simp at hrequests

/-! ### What `flushPerf` waits for -/

theorem getNumOverallBuffers_eq (map : List PendingBuffersInRequest) :
    getNumOverallBuffers map = (mapOuts map).length := by
  simp [getNumOverallBuffers, mapOuts, length_flatMap]

/-- A buffer comes back, with its status. -/
def deliver (hal : HardwareInterface) (b : Out × Bool) : HardwareInterface :=
  hal.handleBufferWithLock ⟨b.1.stream, b.1.buffer, b.2⟩ b.1.frame

theorem deliver_listed {hal : HardwareInterface} (hf : hal.mFlushPerf = true) (hopen : hal.Open)
    {b : Out × Bool} (hb : b.1 ∈ mapOuts hal.mPendingBuffersMap) :
    deliver hal b = { hal with numPendingBufsAtFlush := decU32 hal.numPendingBufsAtFlush } := by
  have hstate : ¬ (hal.mState = .error ∨ hal.mState = .deinit) := by
    rcases hopen with hst | hst <;> simp [hst]
  rw [deliver, HardwareInterface.handleBufferWithLock, if_neg hstate, if_pos hf,
    HardwareInterface.handleBuffersDuringFlushLock, if_pos]
  obtain ⟨e, he, ho⟩ := mem_flatMap.mp hb
  obtain ⟨k, hk, heq⟩ := mem_map.mp ho
  exact any_eq_true.mpr ⟨e, he, any_eq_true.mpr ⟨k, hk, by simp [← heq]⟩⟩

theorem foldl_deliver {hal : HardwareInterface} (hf : hal.mFlushPerf = true) (hopen : hal.Open)
    {bs : List (Out × Bool)} (hbs : ∀ b ∈ bs, b.1 ∈ mapOuts hal.mPendingBuffersMap)
    (hle : bs.length ≤ hal.numPendingBufsAtFlush) :
    bs.foldl deliver hal = { hal with numPendingBufsAtFlush := hal.numPendingBufsAtFlush - bs.length } := by
  induction bs generalizing hal with
  | nil => rfl
  | cons b bs ih =>
    rw [length_cons] at hle
    have hdec : decU32 hal.numPendingBufsAtFlush = hal.numPendingBufsAtFlush - 1 := by
      rw [decU32, if_neg (by omega)]
    rw [foldl_cons, deliver_listed hf hopen (hbs b (by simp)), hdec, ih]
    · congr 1
      simp only [length_cons]
      omega
    · exact hf
    · exact hopen
    · exact fun b hb => hbs b (mem_cons_of_mem _ hb)
    · simp only
      omega

/-- `flushPerf` waits if and only if buffers are with the channels; and when these come back, in
any order, its counter is zero after the last of them and not before. -/
def WaitsExactly (s : CaptureState) : Prop :=
  ((s.hal.flushPerfStart true).1 = true ↔ s.queued ≠ []) ∧
    ∀ bs : List (Out × Bool), (bs.map Prod.fst).Perm s.queued → ∀ k ≤ bs.length,
      (((bs.take k).foldl deliver (s.hal.flushPerfStart true).2).numPendingBufsAtFlush = 0 ↔ k = bs.length)

theorem flushPerfStart_eq (hal : HardwareInterface) : hal.flushPerfStart true =
      (decide (mapOuts hal.mPendingBuffersMap ≠ []), { hal with
          mFlushPerf := decide (mapOuts hal.mPendingBuffersMap ≠ [])
          numPendingBufsAtFlush := (mapOuts hal.mPendingBuffersMap).length }) := by
  rw [HardwareInterface.flushPerfStart, getNumOverallBuffers_eq]
  by_cases hnil : mapOuts hal.mPendingBuffersMap = [] <;> simp [hnil]

variable {s : CaptureState}

theorem counter_eq (h : s.Invariant) {bs : List (Out × Bool)}
    (hperm : (bs.map Prod.fst).Perm s.queued) {k : ℕ} (hk : k ≤ bs.length) :
    ((bs.take k).foldl deliver (s.hal.flushPerfStart true).2).numPendingBufsAtFlush =
      (mapOuts s.hal.mPendingBuffersMap).length - k := by
  have hlen : bs.length = s.queued.length := by simpa using hperm.length_eq
  have hlisted : (mapOuts s.hal.mPendingBuffersMap).length =
      s.queued.length + (BufferLedger.cachedOuts s.ledger.requests).length := by
    rw [← length_append]
    exact h.sound.listed.length_eq
  rw [flushPerfStart_eq]
  by_cases hnil : mapOuts s.hal.mPendingBuffersMap = []
  · have hbs : bs = [] := by
      rw [hnil, length_nil] at hlisted
      exact length_eq_zero_iff.mp (by omega)
    simp [hbs, hnil]
  · rw [foldl_deliver]
    · simp [length_take, Nat.min_eq_left hk]
    · simpa using hnil
    · exact h.working.state
    · rintro b hb
      refine h.sound.mem_listed (hperm.mem_iff.mp ?_)
      exact mem_map.mpr ⟨b, mem_of_mem_take hb, rfl⟩
    · simp only [length_take]
      omega

/-- **What `flushPerf` waits for**: it waits for the buffers that are with the channels if and
only if no pending request has a cached buffer. -/
theorem waitsExactly_iff {s t : CaptureState} {es : List CaptureEvent} (hs : s.Initial)
    (h : Run (guarded DrainsAll (fires step)) s es t) :
    t.WaitsExactly ↔ ∀ i ∈ t.hal.mPendingRequestsList, HardwareInterface.cachedBuffers i = [] := by
  have hinv := run_invariant hs h
  have hlisted : (mapOuts t.hal.mPendingBuffersMap).length =
      t.queued.length + (BufferLedger.cachedOuts t.ledger.requests).length := by
    rw [← length_append]
    exact hinv.sound.listed.length_eq
  have hcached : (∀ i ∈ t.hal.mPendingRequestsList, HardwareInterface.cachedBuffers i = []) ↔
      BufferLedger.cachedOuts t.ledger.requests = [] := by
    rw [BufferLedger.cachedOuts, flatMap_eq_nil_iff]
    constructor
    · rintro hall r hr
      obtain ⟨i, hi, rfl⟩ := mem_map.mp hr
      rw [HardwareInterface.cached_ledgerReq, hall i hi, map_nil]
    · rintro hall i hi
      have hnil := hall _ (mem_map.mpr ⟨i, hi, rfl⟩)
      rw [HardwareInterface.cached_ledgerReq] at hnil
      exact map_eq_nil_iff.mp hnil
  rw [hcached]
  constructor
  · rintro ⟨-, hcount⟩
    have hperm : ((t.queued.map fun o => (o, false)).map Prod.fst).Perm t.queued := by
      rw [List.map_map]
      exact List.Perm.of_eq (map_id' _)
    have hzero := (hcount _ hperm _ (Nat.le_refl _)).mpr rfl
    rw [counter_eq hinv hperm (Nat.le_refl _), length_map] at hzero
    exact length_eq_zero_iff.mp (by omega)
  · rintro hnil
    rw [hnil, length_nil, Nat.add_zero] at hlisted
    constructor
    · rw [flushPerfStart_eq]
      simp only [decide_eq_true_eq, ne_eq, ← length_eq_zero_iff, hlisted]
    · rintro bs hperm k hk
      have hlen : bs.length = t.queued.length := by simpa using hperm.length_eq
      rw [counter_eq hinv hperm hk]
      omega

/-- Two buffers are with the channels and none is cached: `flushPerf` waits for both. -/
theorem waitsExactly_run : ∃ t, Run (guarded DrainsAll (fires step)) configured
    [liveRequest 1 11, liveRequest 2 12] t ∧ t.queued = [⟨1, 1, 11⟩, ⟨2, 1, 12⟩] ∧ (t.WaitsExactly ↔
        ∀ i ∈ t.hal.mPendingRequestsList, HardwareInterface.cachedBuffers i = []) :=
  (exists_run (by decide)).imp fun _ h => ⟨h.1, h.2, waitsExactly_iff configured_initial h.1⟩

/-- The buffer of a live request has come back, and is cached. `flushPerf` waits for it, and no
buffer is with the channels. -/
theorem cached_waited : ∃ t, Run (fires step) configured
    [liveRequest 1 11, .buffer ⟨1, 1, 11⟩ false] t ∧ t.queued = [] ∧ (t.hal.flushPerfStart true).1 = true ∧
      (t.hal.flushPerfStart true).2.numPendingBufsAtFlush = 1 ∧ ¬ t.WaitsExactly := by
  refine (exists_run_fires (P := fun t => t.queued = [] ∧ (t.hal.flushPerfStart true).1 = true ∧
    (t.hal.flushPerfStart true).2.numPendingBufsAtFlush = 1) (by decide)).imp fun t ht => ⟨ht.1, ?_⟩
  obtain ⟨-, hqueued, hstart, hcount⟩ := ht
  exact ⟨hqueued, hstart, hcount, fun hexact => hexact.1.mp hstart hqueued⟩

/-! ### What a failed `flushPerf` leaves -/

/-- What comes while `flushPerf` waits. -/
inductive WindowEvent
  | buffer (o : Out) (error : Bool)
  | metadata (m : MetadataInfo)

/-- The handlers, while `flushPerf` waits. -/
def absorb (hal : HardwareInterface) : WindowEvent → HardwareInterface
  | .buffer o error => deliver hal (o, error)
  | .metadata m => hal.handleMetadataWithLock m

/-- The buffers that came. -/
def absorbed (ws : List WindowEvent) : List Out :=
  ws.filterMap fun w => match w with
    | .buffer o _ => some o
    | .metadata _ => none

/-- `flushPerf` begins to wait, something comes, and the wait fails. What came does not come
again. -/
def failedFlush (s : CaptureState) (ws : List WindowEvent) : CaptureState :=
  { s with hal := (ws.foldl absorb (s.hal.flushPerfStart true).2).flushPerfEnd true }

/-- The buffers that came do not come again, and what returns everything finds no reprocess
result. -/
def Later (ws : List WindowEvent) (s : CaptureState) (e : CaptureEvent) : Prop :=
  s.DrainsAll e ∧ ∀ o error, e = .buffer o error → o ∉ absorbed ws

variable {ws : List WindowEvent}

theorem foldl_absorb (hal : HardwareInterface) (hf : hal.mFlushPerf = true) (hopen : hal.Open)
    (hws : ∀ o ∈ absorbed ws, o ∈ mapOuts hal.mPendingBuffersMap) :
    ∃ n, ws.foldl absorb hal = { hal with numPendingBufsAtFlush := n } := by
  induction ws generalizing hal with
  | nil => exact ⟨_, rfl⟩
  | cons w ws ih =>
    cases w with
    | buffer o error =>
      have ho : o ∈ mapOuts hal.mPendingBuffersMap := hws o (by simp [absorbed])
      rw [foldl_cons, absorb, deliver_listed (b := (o, error)) hf hopen ho]
      obtain ⟨n, hn⟩ := ih { hal with numPendingBufsAtFlush := decU32 hal.numPendingBufsAtFlush } hf hopen
        fun o' ho' => hws o' (by
          simp only [absorbed, filterMap_cons] at ho' ⊢
          exact mem_cons_of_mem _ ho')
      exact ⟨n, hn⟩
    | metadata m =>
      have hdrop : hal.handleMetadataWithLock m = hal := by
        rw [HardwareInterface.handleMetadataWithLock, if_pos (.inl hf)]
      rw [foldl_cons, absorb, hdrop]
      exact ih hal hf hopen fun o ho => hws o (by simpa [absorbed] using ho)

theorem failedFlush_eq (h : s.Invariant)
    (hwait : (s.hal.flushPerfStart true).1 = true) (hws : ∀ o ∈ absorbed ws, o ∈ s.queued) :
    ∃ n, s.failedFlush ws = { s with hal := { s.hal with numPendingBufsAtFlush := n } } := by
  rw [failedFlush]
  rw [flushPerfStart_eq] at hwait ⊢
  obtain ⟨n, hn⟩ := foldl_absorb { s.hal with
      mFlushPerf := decide (mapOuts s.hal.mPendingBuffersMap ≠ [])
      numPendingBufsAtFlush := (mapOuts s.hal.mPendingBuffersMap).length }
    hwait h.working.state fun o ho => h.sound.mem_listed (hws o ho)
  refine ⟨n, ?_⟩
  rw [hn, HardwareInterface.flushPerfEnd, if_pos rfl, ← h.working.flushPerf]

theorem Invariant.failedFlush (h : s.Invariant)
    (hwait : (s.hal.flushPerfStart true).1 = true) (hws : ∀ o ∈ absorbed ws, o ∈ s.queued) :
    (s.failedFlush ws).Invariant := by
  obtain ⟨n, hn⟩ := failedFlush_eq h hwait hws
  rw [hn]
  exact ⟨⟨h.working.flushPerf, h.working.state⟩, h.sound, h.map, h.sorted, h.outputs, h.kinds⟩

variable {t : CaptureState} {o : Out}

theorem returned_step (h : s.Invariant) {e : CaptureEvent}
    (hstep : s.step e = some t) (ho : o ∈ s.returned) : o ∈ t.returned := by
  have hsent {hal : HardwareInterface} (hhal : ∃ calls, hal.sent = s.hal.sent ++ calls) :
      o ∈ hal.sent.flatMap Callback.outs := by
    obtain ⟨calls, hcalls⟩ := hhal
    rw [hcalls, flatMap_append]
    exact mem_append_left _ ho
  have hnotify : ∃ calls, s.hal.notifyErrorForPendingRequests.sent = s.hal.sent ++ calls := by
    obtain ⟨calls, hcalls, -⟩ := HardwareInterface.notifyErrorLoop_outs s.hal.oldestFrameNum
      s.hal.mPendingBuffersMap none s.hal
    exact ⟨calls, hcalls⟩
  cases e with
  | request calls req =>
    simp only [step, ite_none_right_eq_some, some.injEq] at hstep
    obtain ⟨-, rfl⟩ := hstep
    have hrestarted : ∃ calls', (s.restarted calls req).hal.sent = s.hal.sent ++ calls' := by
      rw [restarted]
      split
      · exact hnotify
      · exact ⟨[], (append_nil _).symm⟩
    rcases request_cases h calls req with ⟨hal, hu, heq⟩ | ⟨t, hal, hu, hsub, -, heq⟩
    · rw [heq]
      refine hsent ?_
      rw [hu]
      exact hrestarted
    · rw [heq]
      refine hsent ?_
      rw [hsub.rest, HardwareInterface.insertRequest, hu]
      exact hrestarted
  | metadata m =>
    cases hstep
    exact hsent (HardwareInterface.handled_metadata s.hal m).sent
  | buffer o' error =>
    simp only [step, ite_none_right_eq_some, some.injEq] at hstep
    obtain ⟨-, rfl⟩ := hstep
    exact hsent (HardwareInterface.handled_buffer s.hal h.working.flushPerf _ _).sent
  | input frameNumber =>
    cases hstep
    exact hsent (HardwareInterface.handled_inputBuffer s.hal frameNumber).sent
  | flush =>
    cases hstep
    exact hsent hnotify

theorem queued_step (h : s.Invariant) {e : CaptureEvent}
    (hd : s.DrainsAll e) (hstep : s.step e = some t) (ho : o ∈ s.queued)
    (hback : ∀ o' error, e = .buffer o' error → o' ≠ o) :
    (o ∈ t.queued ∧ ¬ s.Drains e) ∨ (o ∈ t.returned ∧ s.Drains e) := by
  have hdrain {u : CaptureState} (hu : u.ledger = s.ledger.flush) : o ∈ u.returned := by
    change o ∈ u.ledger.returned
    rw [hu]
    exact mem_append_right _ (h.sound.mem_listed ho)
  cases e with
  | request calls req =>
    simp only [step, ite_none_right_eq_some, some.injEq] at hstep
    obtain ⟨-, rfl⟩ := hstep
    by_cases hr : HardwareInterface.restarts calls req s.hal = true
    · refine .inr ⟨?_, hr⟩
      have hrestarted : o ∈ (s.restarted calls req).returned := by
        refine hdrain ?_
        rw [restarted, if_pos hr]
        exact ledger_drain h (hd hr) _
      rcases request_cases h calls req with ⟨hal, hu, heq⟩ | ⟨t, hal, hu, hsub, -, heq⟩
      · rw [heq, returned, hu]
        exact hrestarted
      · rw [heq, returned, hsub.rest, HardwareInterface.insertRequest, hu]
        exact hrestarted
    · refine .inl ⟨?_, hr⟩
      have hrestarted : s.restarted calls req = s := by rw [restarted, if_neg hr]
      rcases request_cases h calls req with ⟨hal, hu, heq⟩ | ⟨t, hal, hu, hsub, -, heq⟩
      · rw [heq, hrestarted]
        exact ho
      · rw [heq, hrestarted]
        exact mem_append_left _ ho
  | metadata m =>
    cases hstep
    exact .inl ⟨ho, id⟩
  | buffer o' error =>
    simp only [step, ite_none_right_eq_some, some.injEq] at hstep
    obtain ⟨-, rfl⟩ := hstep
    exact .inl ⟨(mem_erase_of_ne (hback o' error rfl).symm).mpr ho, id⟩
  | input frameNumber =>
    cases hstep
    exact .inl ⟨ho, id⟩
  | flush =>
    cases hstep
    exact .inr ⟨hdrain (ledger_flush h (hd trivial)), trivial⟩

theorem returned_nodup (h : s.Invariant) : s.returned.Nodup := by
  have hnodup := h.sound.all_nodup
  rw [BufferLedger.all, nodup_append] at hnodup
  exact hnodup.2.1

theorem not_returned_of_queued (h : s.Invariant) (ho : o ∈ s.queued) : o ∉ s.returned := by
  have hnodup := h.sound.all_nodup
  rw [BufferLedger.all, nodup_append] at hnodup
  rintro hreturned
  refine hnodup.2.2 o ?_ o hreturned rfl
  simp only [mem_append]
  exact .inl (.inl ho)

theorem run_absorbed {es : List CaptureEvent}
    (hs : s.Invariant) (h : Run (guarded (Later ws) (fires step)) s es t)
    (ho : o ∈ absorbed ws) (hqueued : o ∈ s.queued) :
    t.Invariant ∧ ((o ∈ t.queued ∧ ¬ Occurs (guarded (Later ws) (fires step)) Drains s es) ∨
        (o ∈ t.returned ∧ Occurs (guarded (Later ws) (fires step)) Drains s es)) := by
  refine h.history (P := fun es t => t.Invariant ∧
    ((o ∈ t.queued ∧ ¬ Occurs (guarded (Later ws) (fires step)) Drains s es) ∨
      (o ∈ t.returned ∧ Occurs (guarded (Later ws) (fires step)) Drains s es))) ?_ ?_
  · refine ⟨hs, .inl ⟨hqueued, ?_⟩⟩
    rintro ⟨bs, b, cs, u, heq, -⟩
    simp at heq
  · rintro as t e u hrun ⟨hinv, hplace⟩ ⟨⟨hd, hback⟩, hstep⟩
    have hunique : ∀ s e t u, guarded (Later ws) (fires step) s e t →
        guarded (Later ws) (fires step) s e u → t = u := by
      rintro s e t u ⟨-, h₁⟩ ⟨-, h₂⟩
      exact some.inj (h₁.symm.trans h₂)
    refine ⟨hinv.step hd hstep, ?_⟩
    rw [occurs_snoc hunique hrun]
    rcases hplace with ⟨hq, hnot⟩ | ⟨hr, hocc⟩
    · have hother : ∀ o' error, e = .buffer o' error → o' ≠ o := by
        rintro o' error rfl rfl
        exact hback o' error rfl ho
      rcases queued_step hinv hd hstep hq hother with ⟨hq', hnd⟩ | ⟨hr', hdr⟩
      · exact .inl ⟨hq', not_or.mpr ⟨hnot, hnd⟩⟩
      · exact .inr ⟨hr', .inr hdr⟩
    · exact .inr ⟨returned_step hinv hstep hr, .inl hocc⟩

/-- **What a failed `flushPerf` leaves**: `mFlushPerf` is false again, and in every later run the
buffers that came are each returned once if and only if there are none, or everything is drained
by a flush or a restart of the sensor. -/
theorem absorbed_returned_iff {s t u : CaptureState} {es es' : List CaptureEvent}
    {ws : List WindowEvent} (hs : s.Initial) (h : Run (guarded DrainsAll (fires step)) s es t)
    (hwait : (t.hal.flushPerfStart true).1 = true) (hws : ∀ o ∈ absorbed ws, o ∈ t.queued)
    (h' : Run (guarded (Later ws) (fires step)) (t.failedFlush ws) es' u) :
    (t.hal.flushPerfStart false).2.mFlushPerf = false ∧ (t.failedFlush ws).hal.mFlushPerf = false ∧
      ((∀ o ∈ absorbed ws, u.returned.count o = 1) ↔ absorbed ws = [] ∨
          Occurs (guarded (Later ws) (fires step)) Drains (t.failedFlush ws) es') := by
  have hinv := run_invariant hs h
  have hfailed := hinv.failedFlush hwait hws
  have hqueued : (t.failedFlush ws).queued = t.queued := rfl
  refine ⟨by simp [HardwareInterface.flushPerfStart], hfailed.working.flushPerf, ?_⟩
  constructor
  · rintro hall
    cases habs : absorbed ws with
    | nil => exact .inl rfl
    | cons o os =>
      have ho : o ∈ absorbed ws := by simp [habs]
      obtain ⟨hu, hplace⟩ := run_absorbed hfailed h' ho (hqueued ▸ hws o ho)
      rcases hplace with ⟨hq, -⟩ | ⟨-, hocc⟩
      · have hnot := not_returned_of_queued hu hq
        rw [← count_eq_zero] at hnot
        exact absurd (hall o ho) (by omega)
      · exact .inr hocc
  · rintro hocc o ho
    obtain ⟨hu, hplace⟩ := run_absorbed hfailed h' ho (hqueued ▸ hws o ho)
    rcases hocc with hnil | hocc
    · simp [hnil] at ho
    · rcases hplace with ⟨-, hnot⟩ | ⟨hr, -⟩
      · exact absurd hocc hnot
      · exact count_eq_one_of_mem (returned_nodup hu) hr

/-- The buffer of a live request comes to a `flushPerf` that fails, and a flush follows:
`absorbed_returned_iff` applies. -/
theorem absorbed_returned_run : ∃ t u, Run (guarded DrainsAll (fires step)) configured [liveRequest 1 11] t ∧
    Run (guarded (Later [.buffer ⟨1, 1, 11⟩ false]) (fires step))
      (t.failedFlush [.buffer ⟨1, 1, 11⟩ false]) [.flush] u ∧
    (t.hal.flushPerfStart false).2.mFlushPerf = false ∧
      (t.failedFlush [.buffer ⟨1, 1, 11⟩ false]).hal.mFlushPerf = false ∧
      ((∀ o ∈ absorbed [.buffer ⟨1, 1, 11⟩ false], u.returned.count o = 1) ↔ absorbed [.buffer ⟨1, 1, 11⟩ false] = [] ∨
          Occurs (guarded (Later [.buffer ⟨1, 1, 11⟩ false]) (fires step)) Drains
            (t.failedFlush [.buffer ⟨1, 1, 11⟩ false]) [.flush]) := by
  have ⟨t, hrun, hwait, hqueued, hresults⟩ : ∃ t, Run (guarded DrainsAll (fires step)) configured
      [liveRequest 1 11] t ∧ (t.hal.flushPerfStart true).1 = true ∧ t.queued = [⟨1, 1, 11⟩] ∧
      (t.failedFlush [.buffer ⟨1, 1, 11⟩ false]).hal.mPendingReprocessResultList = [] :=
    exists_run (by decide)
  have hlater : Later [.buffer ⟨1, 1, 11⟩ false] (t.failedFlush [.buffer ⟨1, 1, 11⟩ false]) .flush := by
    refine ⟨fun _ => hresults, ?_⟩
    rintro o error heq
    cases heq
  have hrun' : Run (guarded (Later [.buffer ⟨1, 1, 11⟩ false]) (fires step))
      (t.failedFlush [.buffer ⟨1, 1, 11⟩ false]) [.flush]
      (t.failedFlush [.buffer ⟨1, 1, 11⟩ false]).flush := Run.single ⟨hlater, rfl⟩
  refine ⟨t, _, hrun, hrun', absorbed_returned_iff configured_initial hrun hwait ?_ hrun'⟩
  simp [absorbed, hqueued]

/-- The buffer of a live request comes to a `flushPerf` that fails, and then the metadata of the
request. The request leaves, and its buffer is not returned. -/
theorem absorbed_lost : ∃ t u, Run (fires step) configured [liveRequest 1 11] t ∧
    t.queued = [⟨1, 1, 11⟩] ∧ (t.hal.flushPerfStart true).1 = true ∧
    Run (fires step) (t.failedFlush [.buffer ⟨1, 1, 11⟩ false]) [.metadata { frameNumber := some 1 }] u ∧
    u.hal.mPendingRequestsList = [] ∧ u.returned = [] ∧ mapOuts u.hal.mPendingBuffersMap = [⟨1, 1, 11⟩] := by
  have ⟨t, hrun, hfacts⟩ : ∃ t, Run (fires step) configured [liveRequest 1 11] t ∧
      let u := (t.failedFlush [.buffer ⟨1, 1, 11⟩ false]).metadata { frameNumber := some 1 }
      t.queued = [⟨1, 1, 11⟩] ∧ (t.hal.flushPerfStart true).1 = true ∧
        u.hal.mPendingRequestsList = [] ∧ u.returned = [] ∧
        mapOuts u.hal.mPendingBuffersMap = [⟨1, 1, 11⟩] := exists_run_fires (by decide)
  obtain ⟨hqueued, hwait, hrequests, hreturned, hmap⟩ := hfacts
  exact ⟨t, _, hrun, hqueued, hwait, Run.single rfl, hrequests, hreturned, hmap⟩

end CaptureState

end Marlin
