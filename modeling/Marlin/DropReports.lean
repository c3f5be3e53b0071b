import Marlin.FrameDrops
import Marlin.SteadyRuns

/-!
# Reports of Dropped Frames

A dropped frame is reported when metadata settles its request, and its buffer is returned with an
error: at once if it is cached, and when it comes otherwise. The note of a cached buffer is searched
by the frame number of the metadata, the note of one that comes later by its own.

## Conventions

* The error of a buffer that the channel returned with an error is its own; every other error of a
  returned buffer is that of a drop.
* A run is of requests and callbacks. A flush, or a restart of the sensor, gives up what is pending.

## Main results

* `Drops.metadata`, `Drops.buffer`: the events keep the account of the drops.
* `drops_run`: in a run whose metadata names each stream of a pending request once, and no stream with
  a cached buffer of an older one, each drop is reported once, and the error is returned.
-/

open List Option Bool Ledger Transition

namespace Marlin

namespace CaptureState

open HardwareInterface

variable {s t : CaptureState}

/-! ### Runs -/

variable {i : PendingRequestInfo}

theorem Invariant.cachedOnce (h : s.Invariant) (hi : i ∈ s.hal.mPendingRequestsList) : CachedOnce i := by
  have hmem : ledgerReq i ∈ s.ledger.requests := List.mem_map.mpr ⟨i, hi, rfl⟩
  have hentered {o : Out} (ho : o ∈ (ledgerReq i).cached) : o ∈ s.ledger.entered := by
    refine h.sound.mem_entered ?_
    simp only [BufferLedger.all, List.mem_append]
    exact .inl (.inl (.inr (List.mem_flatMap.mpr ⟨_, hmem, ho⟩)))
  have hnodup : (ledgerReq i).cached.Nodup := by
    have hall := h.sound.all_nodup
    rw [BufferLedger.all, List.append_assoc, List.append_assoc] at hall
    have hcached := (List.nodup_append.mp (List.nodup_append.mp hall).2.1).1
    exact (List.nodup_flatMap.mp hcached).1 _ hmem
  have hpairs : ((ledgerReq i).cached.map fun o => (o.frame, o.stream)).Nodup :=
    List.Nodup.map_on (fun o ho o' ho' heq =>
      h.sound.entered_eq (hentered ho) (hentered ho') (congrArg Prod.fst heq) (congrArg Prod.snd heq)) hnodup
  rw [cached_ledgerReq, List.map_map] at hpairs
  have hcomp : (fun o : Out => (o.frame, o.stream)) ∘ bufferOut i.frameNumber =
      (fun stream => (i.frameNumber, stream)) ∘ StreamBuffer.stream := rfl
  rw [hcomp, ← List.map_map] at hpairs
  exact hpairs.of_map _

/-- The buffers that the channels returned with an error. -/
def failedOuts : List CaptureEvent → List Out :=
  List.filterMap fun e => match e with
    | .buffer o true => some o
    | _ => none

/-- Metadata names each stream of a live request that it settles once, and no stream with a cached
buffer if the request is older. -/
def DropsInOrder (s : CaptureState) : CaptureEvent → Prop
  | .metadata m => ∀ n ∈ m.number, ∀ i ∈ s.hal.mPendingRequestsList, i.inputBuffer = none →
      i.frameNumber ≤ n → (s.hal.droppedStreams m.frameDrop i).Nodup ∧ (i.frameNumber < n → ∀ b ∈ cachedBuffers i,
          b.stream ∉ s.hal.droppedStreams m.frameDrop i)
  | _ => True

instance (s : CaptureState) : (e : CaptureEvent) → Decidable (s.DropsInOrder e)
  | .metadata m => inferInstanceAs (Decidable (∀ n ∈ m.number, _))
  | .request _ _ | .buffer _ _ | .input _ | .flush => isTrue trivial

/-- What a run keeps, for the buffers that the channels returned with an error: the drops of a live
request are reported when it is settled, and noted until the buffer is returned. -/
structure Drops (failed : List Out) (s : CaptureState) : Prop where
  ids : Function.Injective s.hal.streamID
  map : CleanMap s.hal.mPendingBuffersMap
  noted : ∀ f, f ∉ s.settled → ∀ stream, s.hal.notes f stream = 0
  gone : ∀ o ∈ failed, o ∈ s.entered ∧ o ∉ s.queued
  cached : ∀ i ∈ s.hal.mPendingRequestsList, i.inputBuffer = none → ∀ b ∈ cachedBuffers i,
    (b.error = true ↔ bufferOut i.frameNumber b ∈ failed)
  unreported : ∀ req ∈ s.taken, req.inputBuffer = none → req.frameNumber ∉ s.settled →
    ∀ stream, s.hal.reports req.frameNumber stream = 0
  once : ∀ req ∈ s.taken, req.inputBuffer = none → ∀ stream, s.hal.reports req.frameNumber stream ≤ 1
  waiting : ∀ req ∈ s.taken, req.inputBuffer = none → ∀ o ∈ req.outs, o ∈ s.queued →
    s.hal.notes req.frameNumber o.stream = s.hal.reports req.frameNumber o.stream
  returned : ∀ req ∈ s.taken, req.inputBuffer = none → ∀ o ∈ req.outs, ∀ error,
    (o, error) ∈ s.hal.statuses → s.hal.notes req.frameNumber o.stream = 0 ∧
      (error = true ↔ o ∈ failed ∨ s.hal.reports req.frameNumber o.stream = 1)

theorem drops_initial (h : s.Initial) (hid : Function.Injective s.hal.streamID)
    (hdrops : s.hal.mPendingFrameDropList = []) : s.Drops [] where
  ids := hid
  map := by
    rw [h.map]
    exact fun req hreq => absurd hreq not_mem_nil
  noted := by
    intro f _ stream
    rw [notes, hdrops]
    rfl
  gone := fun o ho => absurd ho not_mem_nil
  cached := by
    rw [h.requests]
    exact fun i hi => absurd hi not_mem_nil
  unreported := by
    rw [h.taken]
    exact fun req hreq => absurd hreq not_mem_nil
  once := by
    rw [h.taken]
    exact fun req hreq => absurd hreq not_mem_nil
  waiting := by
    rw [h.taken]
    exact fun req hreq => absurd hreq not_mem_nil
  returned := by
    rw [h.taken]
    exact fun req hreq => absurd hreq not_mem_nil

variable {o : Out}

theorem Invariant.not_returned (h : s.Invariant) {error : Bool} (hstatus : (o, error) ∈ s.hal.statuses) :
    o ∉ s.queued ∧ ∀ i ∈ s.hal.mPendingRequestsList, i.frameNumber ≠ o.frame := by
  have hreturned : o ∈ s.ledger.returned := by
    obtain ⟨c, hc, hx⟩ := mem_flatMap.mp hstatus
    refine mem_flatMap.mpr ⟨c, hc, ?_⟩
    rw [← c.statuses_outs]
    exact mem_map.mpr ⟨_, hx, rfl⟩
  constructor
  · intro hqueued
    have hall := h.sound.all_nodup
    rw [BufferLedger.all, append_assoc, append_assoc] at hall
    refine (nodup_append.mp hall).2.2 o hqueued o ?_ rfl
    simp [hreturned]
  · exact fun i hi => h.sound.gone o hreturned _ (mem_map.mpr ⟨i, hi, rfl⟩)

theorem Invariant.not_cached (h : s.Invariant)
    (hi : i ∈ s.hal.mPendingRequestsList) {b : StreamBuffer} (hb : b ∈ cachedBuffers i) :
    bufferOut i.frameNumber b ∈ s.entered ∧ bufferOut i.frameNumber b ∉ s.queued := by
  have hcached : bufferOut i.frameNumber b ∈ BufferLedger.cachedOuts s.ledger.requests := by
    refine mem_flatMap.mpr ⟨ledgerReq i, mem_map.mpr ⟨i, hi, rfl⟩, ?_⟩
    rw [cached_ledgerReq]
    exact mem_map.mpr ⟨b, hb, rfl⟩
  constructor
  · refine h.sound.mem_entered ?_
    simp [BufferLedger.all, hcached]
  · intro hqueued
    have hall := h.sound.all_nodup
    rw [BufferLedger.all, append_assoc, append_assoc] at hall
    refine (nodup_append.mp hall).2.2 _ hqueued _ ?_ rfl
    simp [hcached]

variable {req : CaptureRequest}

theorem Steady.pending_of_live (h : s.Steady) (hreq : req ∈ s.taken)
    (hlive : req.inputBuffer = none) (hnot : req.frameNumber ∉ s.settled) :
    ∃ i ∈ s.hal.mPendingRequestsList, i.frameNumber = req.frameNumber ∧ i.inputBuffer = none := by
  obtain ⟨_, hr, hframe, hreproc⟩ := h.marked.pending req hreq hlive hnot
  obtain ⟨i, hi, rfl⟩ := mem_map.mp hr
  exact ⟨i, hi, hframe, by simpa [ledgerReq] using hreproc⟩

theorem Steady.unsettled (h : s.Steady) (hi : i ∈ s.hal.mPendingRequestsList) (hlive : i.inputBuffer = none) :
    i.frameNumber ∉ s.settled :=
  h.marked.unsettled (ledgerReq i) (mem_map.mpr ⟨i, hi, rfl⟩) (by simp [ledgerReq, hlive])

theorem mem_entered (hreq : req ∈ s.taken) (ho : o ∈ req.outs) :
    o ∈ s.entered := mem_flatMap.mpr ⟨req, hreq, ho⟩

/-! ### Metadata -/

section Metadata

variable {failed : List Out} {m : MetadataInfo} {n : ℕ}

variable {k : PendingRequestInfo}

theorem Steady.of_upTo (h : s.Steady) (hk : k ∈ upTo n (s.hal.urgentPart m).mPendingRequestsList) :
    ∃ i ∈ s.hal.mPendingRequestsList, k = urgentEntry m i ∧ i.frameNumber ≤ n := by
  have hle : k.frameNumber ≤ n := by simpa using mem_takeWhile_imp hk
  have hmem := (takeWhile_sublist _).subset hk
  rw [urgentPart_eq m (sorted_requests h.invariant.sound)] at hmem
  obtain ⟨i, hi, rfl⟩ := mem_map.mp hmem
  exact ⟨i, hi, rfl, (urgentEntry_kept m i).1 ▸ hle⟩

theorem Steady.cachedOnce_upTo (h : s.Steady)
    (hk : k ∈ upTo n (s.hal.urgentPart m).mPendingRequestsList) : CachedOnce k := by
  obtain ⟨i, hi, rfl, -⟩ := h.of_upTo hk
  rw [CachedOnce, cachedBuffers_urgentEntry]
  exact h.invariant.cachedOnce hi

theorem Steady.urgentPart_lists (h : s.Steady) (m : MetadataInfo) : (s.hal.urgentPart m).streamID = s.hal.streamID ∧
      (s.hal.urgentPart m).mPendingBuffersMap = s.hal.mPendingBuffersMap ∧
      (s.hal.urgentPart m).mPendingReprocessResultList = s.hal.mPendingReprocessResultList ∧
      ∀ f stream, (s.hal.urgentPart m).notes f stream = s.hal.notes f stream := by
  rw [urgentPart_eq m (sorted_requests h.invariant.sound)]
  exact ⟨rfl, rfl, rfl, fun _ _ => rfl⟩

theorem Drops.clean_metadata (h : s.Drops failed) (hs : s.Steady) (m : MetadataInfo) :
    CleanMap (s.metadata m).hal.mPendingBuffersMap ∧ (s.metadata m).hal.streamID = s.hal.streamID := by
  obtain ⟨hids, hmap, -, -⟩ := hs.urgentPart_lists m
  have hhal : (s.metadata m).hal = ((s.hal.urgentPart m).normalPart m).doneMetadata :=
    handleMetadata_eq hs.invariant.working m
  rw [hhal]
  change CleanMap ((s.hal.urgentPart m).normalPart m).mPendingBuffersMap ∧
    ((s.hal.urgentPart m).normalPart m).streamID = s.hal.streamID
  rw [normalPart]
  cases m.number with
  | none => exact ⟨hmap ▸ h.map, hids⟩
  | some n =>
    have hturns := clean_metadataTurns (m := m) (n := n)
      (l := upTo n (s.hal.urgentPart m).mPendingRequestsList) (hids ▸ h.ids) (hmap ▸ h.map)
      fun k hk => hs.cachedOnce_upTo hk
    exact ⟨hturns.1, hturns.2.trans hids⟩

theorem Drops.notes_metadata_le (h : s.Drops failed) (hs : s.Steady) {f : ℕ}
    (hf : ∀ n ∈ m.number, ∀ i ∈ s.hal.mPendingRequestsList, i.frameNumber ≤ n → i.frameNumber ≠ f)
    (stream : ℕ) : (s.metadata m).hal.notes f stream ≤ s.hal.notes f stream := by
  obtain ⟨hids, hmap, -, hnotes⟩ := hs.urgentPart_lists m
  have hhal : (s.metadata m).hal = ((s.hal.urgentPart m).normalPart m).doneMetadata :=
    handleMetadata_eq hs.invariant.working m
  rw [hhal, ← hnotes]
  change ((s.hal.urgentPart m).normalPart m).notes f stream ≤ _
  rw [normalPart]
  cases hn : m.number with
  | none => exact Nat.le_refl _
  | some n =>
    refine notes_metadataTurns_le (hids ▸ h.ids) (hmap ▸ h.map) (fun k hk => ?_)
      (fun k hk => hs.cachedOnce_upTo hk) stream
    obtain ⟨i, hi, rfl, hle⟩ := hs.of_upTo hk
    rw [(urgentEntry_kept m i).1]
    exact hf n hn i hi hle

theorem Drops.metadata_other (h : s.Drops failed) (hs : s.Steady)
    (hreq : req ∈ s.taken) (hlive : req.inputBuffer = none)
    (hsettled : ∀ n ∈ m.number, req.frameNumber ≤ n → req.frameNumber ∈ s.settled) :
    (∀ stream, (s.metadata m).hal.reports req.frameNumber stream = s.hal.reports req.frameNumber stream) ∧
      (∀ stream, (s.metadata m).hal.notes req.frameNumber stream = s.hal.notes req.frameNumber stream) ∧
      ∀ x : Out × Bool, x.1.frame = req.frameNumber → (x ∈ (s.metadata m).hal.statuses ↔ x ∈ s.hal.statuses) := by
  obtain ⟨hids, hmap, hresults, hnotes⟩ := hs.urgentPart_lists m
  obtain ⟨hreports, hstatuses⟩ :=
    told_urgentPart m (sorted_requests hs.invariant.sound) req.frameNumber
  have hhal : (s.metadata m).hal = ((s.hal.urgentPart m).normalPart m).doneMetadata :=
    handleMetadata_eq hs.invariant.working m
  rw [hhal]
  change (∀ stream, ((s.hal.urgentPart m).normalPart m).reports req.frameNumber stream = _) ∧
    (∀ stream, ((s.hal.urgentPart m).normalPart m).notes req.frameNumber stream = _) ∧
    ∀ x : Out × Bool, x.1.frame = req.frameNumber →
      (x ∈ ((s.hal.urgentPart m).normalPart m).statuses ↔ x ∈ s.hal.statuses)
  rw [normalPart]
  cases hn : m.number with
  | none => exact ⟨hreports, hnotes req.frameNumber, hstatuses⟩
  | some n =>
    -- a request of the frame would not be settled
    have hother (k : PendingRequestInfo) (hk : k ∈ upTo n (s.hal.urgentPart m).mPendingRequestsList) :
        k.frameNumber ≠ req.frameNumber ∧ (req.frameNumber = n → Stays n k) := by
      obtain ⟨i, hi, rfl, hle⟩ := hs.of_upTo hk
      rw [Stays, (urgentEntry_kept m i).1, (urgentEntry_kept m i).2.1]
      have hne : i.frameNumber ≠ req.frameNumber := fun heq =>
        hs.pending_ne hreq hlive (hsettled n hn (heq ▸ hle)) i hi heq
      refine ⟨hne, fun hreqn => ⟨by omega, ?_⟩⟩
      cases hinput : i.inputBuffer with
      | some b => rfl
      | none =>
        refine absurd ?_ (hs.unsettled hi hinput)
        exact hs.marked.closed _ (hsettled n hn (Nat.le_of_eq hreqn)) _ (hs.invariant.frame_of_pending hi) (hreqn ▸ hle)
    obtain ⟨hreports', hstatuses'⟩ := told_metadataTurns_other (m := m) (n := n)
      (fun k hk => (hother k hk).1) (hresults ▸ hs.results_ne hreq hlive)
    refine ⟨fun stream => (hreports' stream).trans (hreports stream), fun stream => ?_,
      fun x hx => (hstatuses' x hx).trans (hstatuses x hx)⟩
    exact (notes_metadataTurns_eq (hids ▸ h.ids) (hmap ▸ h.map) hother
      (fun k hk => hs.cachedOnce_upTo hk) stream).trans (hnotes req.frameNumber stream)

theorem Drops.metadata_settled (h : s.Drops failed) (hs : s.Steady)
    (hin : s.DropsInOrder (.metadata m)) (hn : n ∈ m.number) {i : PendingRequestInfo}
    (hi : i ∈ s.hal.mPendingRequestsList) (hlive : i.inputBuffer = none) (hle : i.frameNumber ≤ n)
    (hresults : ∀ j ∈ s.hal.mPendingReprocessResultList, j.frameNumber ≠ i.frameNumber) :
    (∀ stream, (s.metadata m).hal.reports i.frameNumber stream =
        s.hal.reports i.frameNumber stream + (s.hal.droppedStreams m.frameDrop i).count stream) ∧
      (∀ stream, (s.metadata m).hal.notes i.frameNumber stream =
        if stream ∈ (cachedBuffers i).map StreamBuffer.stream then 0
        else (s.hal.droppedStreams m.frameDrop i).count stream) ∧
      ∀ x : Out × Bool, x.1.frame = i.frameNumber → (x ∈ (s.metadata m).hal.statuses ↔ x ∈ s.hal.statuses ∨
          ∃ b ∈ cachedBuffers i, (bufferOut i.frameNumber b, b.error ||
            decide (0 < (s.hal.droppedStreams m.frameDrop i).count b.stream)) = x) := by
  have hsorted := sorted_requests hs.invariant.sound
  obtain ⟨hids, hmap, hresult, hnotes⟩ := hs.urgentPart_lists m
  obtain ⟨hreports, hstatuses⟩ := told_urgentPart m hsorted i.frameNumber
  obtain ⟨hnodup, hcached⟩ := hin n hn i hi hlive hle
  have hhal : (s.metadata m).hal = ((s.hal.urgentPart m).normalPart m).doneMetadata :=
    handleMetadata_eq hs.invariant.working m
  have hnormal : (s.hal.urgentPart m).normalPart m =
      metadataTurns m n (upTo n (s.hal.urgentPart m).mPendingRequestsList) (s.hal.urgentPart m) := by
    rw [normalPart, mem_def.mp hn]
    rfl
  have hsorted' : (s.hal.urgentPart m).mPendingRequestsList.Pairwise fun i k => i.frameNumber < k.frameNumber := by
    rw [urgentPart_eq m hsorted, pairwise_map]
    exact hsorted.imp fun hlt => by
      rw [(urgentEntry_kept m _).1, (urgentEntry_kept m _).1]
      exact hlt
  have hmem : urgentEntry m i ∈ upTo n (s.hal.urgentPart m).mPendingRequestsList := by
    refine (mem_upTo hsorted').mpr ⟨?_, (urgentEntry_kept m i).1 ▸ hle⟩
    rw [urgentPart_eq m hsorted]
    exact mem_map.mpr ⟨i, hi, rfl⟩
  have hunsettled := hs.unsettled hi hlive
  have hnone (f : ℕ) (hf : i.frameNumber ≤ f) (hframe : f ∉ s.settled) (stream : ℕ) :
      (s.hal.urgentPart m).notes f stream = 0 := by
    rw [hnotes, h.noted f hframe]
  obtain ⟨l, l', hsplit⟩ := append_of_mem hmem
  have hupTo := hsorted'.sublist (takeWhile_sublist fun i => decide (i.frameNumber ≤ n))
  change (upTo n (s.hal.urgentPart m).mPendingRequestsList).Pairwise _ at hupTo
  have hframe := (urgentEntry_kept m i).1
  have hdropped : (s.hal.urgentPart m).droppedStreams m.frameDrop (urgentEntry m i) =
      s.hal.droppedStreams m.frameDrop i := by
    rw [droppedStreams_urgentEntry, droppedStreams, droppedStreams, hids]
  have hbuffers := cachedBuffers_urgentEntry m i
  have hback {k : PendingRequestInfo} (hk : k ∈ l ++ urgentEntry m i :: l') :
      k ∈ upTo n (s.hal.urgentPart m).mPendingRequestsList := hsplit ▸ hk
  rw [hsplit] at hupTo
  have hturns := metadataTurns_drops (s := s.hal.urgentPart m) (m := m) (n := n) (i := urgentEntry m i)
    (hids ▸ h.ids) (hmap ▸ h.map) hupTo
    (fun k hk => by simpa using mem_takeWhile_imp (hback hk))
    (fun k hk => hs.cachedOnce_upTo (hback hk))
    ((urgentEntry_kept m i).2.1.trans hlive) (by rwa [hframe, hresult])
    (by
      rw [hframe]
      exact hnone _ (Nat.le_refl _) hunsettled)
    (hnone n hle fun hset => hunsettled (hs.marked.closed n hset _ (hs.invariant.frame_of_pending hi) hle))
    (by rwa [hframe, hbuffers, hdropped]) (by rwa [hdropped])
  rw [hframe, hdropped, hbuffers] at hturns
  rw [hhal]
  change (∀ stream, ((s.hal.urgentPart m).normalPart m).reports i.frameNumber stream = _) ∧
    (∀ stream, ((s.hal.urgentPart m).normalPart m).notes i.frameNumber stream = _) ∧
    ∀ x : Out × Bool, x.1.frame = i.frameNumber → (x ∈ ((s.hal.urgentPart m).normalPart m).statuses ↔ _)
  rw [hnormal, hsplit]
  refine ⟨fun stream => (hturns.1 stream).trans (by rw [hreports]), hturns.2.1, fun x hx => ?_⟩
  rw [hturns.2.2 x hx, hstatuses x hx]

theorem Steady.live_metadata (hs : s.Steady)
    (hk : k ∈ (s.metadata m).hal.mPendingRequestsList) (hlive : k.inputBuffer = none) :
    ∃ i ∈ s.hal.mPendingRequestsList, i.frameNumber = k.frameNumber ∧ i.inputBuffer = none ∧
      cachedBuffers i = cachedBuffers k := by
  have hhal : (s.metadata m).hal = ((s.hal.urgentPart m).normalPart m).doneMetadata :=
    handleMetadata_eq hs.invariant.working m
  rw [hhal] at hk
  obtain ⟨j, hj, rfl⟩ := mem_map.mp hk
  have hmem : j ∈ (s.hal.urgentPart m).mPendingRequestsList := by
    rw [normalPart] at hj
    cases hn : m.number with
    | none =>
      rw [hn] at hj
      exact hj
    | some n =>
      rw [hn] at hj
      exact live_metadataTurns hj hlive
  rw [urgentPart_eq m (sorted_requests hs.invariant.sound)] at hmem
  obtain ⟨i, hi, rfl⟩ := mem_map.mp hmem
  exact ⟨i, hi, (urgentEntry_kept m i).1.symm, (urgentEntry_kept m i).2.1.symm.trans hlive,
    (cachedBuffers_urgentEntry m i).symm⟩

theorem settled_cases (s : CaptureState) (m : MetadataInfo) (f : ℕ) :
    (∃ n ∈ m.number, f ≤ n ∧ f ∉ s.settled) ∨ ∀ n ∈ m.number, f ≤ n → f ∈ s.settled := by
  by_cases hsettled : f ∈ s.settled
  · exact .inr fun _ _ _ => hsettled
  · by_cases hnone : ∃ n ∈ m.number, f ≤ n
    · obtain ⟨n, hn, hle⟩ := hnone
      exact .inl ⟨n, hn, hle, hsettled⟩
    · exact .inr fun n hn hle => absurd ⟨n, hn, hle⟩ hnone

/-- **Metadata keeps the account of the drops.** -/
theorem Drops.metadata (h : s.Drops failed) (hs : s.Steady) (hin : s.DropsInOrder (.metadata m)) :
    (s.metadata m).Drops failed := by
  obtain ⟨hclean, hids⟩ := h.clean_metadata hs m
  have hframe {req : CaptureRequest} (hreq : req ∈ s.taken) : req.frameNumber ∈ s.frames :=
    mem_map.mpr ⟨req, hreq, rfl⟩
  -- a live request that is settled now
  have hnow {req : CaptureRequest} (hreq : req ∈ s.taken) (hlive : req.inputBuffer = none)
      (hcase : ∃ n ∈ m.number, req.frameNumber ≤ n ∧ req.frameNumber ∉ s.settled) :
      ∃ i ∈ s.hal.mPendingRequestsList, i.frameNumber = req.frameNumber ∧
        i.inputBuffer = none ∧ (s.hal.droppedStreams m.frameDrop i).Nodup ∧
        (∀ stream, (s.metadata m).hal.reports req.frameNumber stream =
          (s.hal.droppedStreams m.frameDrop i).count stream) ∧
        (∀ stream, (s.metadata m).hal.notes req.frameNumber stream =
          if stream ∈ (cachedBuffers i).map StreamBuffer.stream then 0
          else (s.hal.droppedStreams m.frameDrop i).count stream) ∧
        ∀ x : Out × Bool, x.1.frame = req.frameNumber → x ∈ (s.metadata m).hal.statuses →
          ∃ b ∈ cachedBuffers i, (bufferOut req.frameNumber b, b.error ||
            decide (0 < (s.hal.droppedStreams m.frameDrop i).count b.stream)) = x := by
    obtain ⟨n, hn, hle, hnot⟩ := hcase
    obtain ⟨i, hi, hsame, hinput⟩ := hs.pending_of_live hreq hlive hnot
    obtain ⟨hreports, hnotes, hstatuses⟩ := h.metadata_settled hs hin hn hi hinput (hsame ▸ hle)
      (hsame ▸ hs.results_ne hreq hlive)
    rw [hsame] at hreports hnotes hstatuses
    refine ⟨i, hi, hsame, hinput, (hin n hn i hi hinput (hsame ▸ hle)).1, fun stream => ?_, hnotes, fun x hx hmem => ?_⟩
    · rw [hreports, h.unreported req hreq hlive hnot, Nat.zero_add]
    · rcases (hstatuses x hx).mp hmem with hold | hnew
      · exact absurd (hsame.trans hx.symm) ((hs.invariant.not_returned hold).2 i hi)
      · exact hnew
  constructor
  · exact hids ▸ h.ids
  · exact hclean
  · intro f hf stream
    have hf' : f ∉ s.settled := fun hmem => hf (mem_append_left _ hmem)
    refine Nat.le_zero.mp (h.noted f hf' stream ▸ h.notes_metadata_le hs (fun n hn i hi hle heq => ?_) stream)
    exact hf (settled_metadata hn (heq ▸ hs.invariant.frame_of_pending hi) (heq ▸ hle))
  · exact h.gone
  · intro k hk hlive b hb
    obtain ⟨i, hi, hsame, hinput, hcached⟩ := hs.live_metadata hk hlive
    rw [← hsame]
    exact h.cached i hi hinput b (hcached ▸ hb)
  · intro req hreq hlive hnot stream
    have hother (n : ℕ) (hn : n ∈ m.number) (hle : req.frameNumber ≤ n) : req.frameNumber ∈ s.settled :=
      absurd (settled_metadata hn (hframe hreq) hle) hnot
    rw [(h.metadata_other hs hreq hlive hother).1]
    exact h.unreported req hreq hlive (fun hmem => hnot (mem_append_left _ hmem)) stream
  · intro req hreq hlive stream
    rcases settled_cases s m req.frameNumber with hcase | hother
    · obtain ⟨i, -, -, -, hnodup, hreports, -, -⟩ := hnow hreq hlive hcase
      rw [hreports]
      exact nodup_iff_count_le_one.mp hnodup stream
    · rw [(h.metadata_other hs hreq hlive hother).1]
      exact h.once req hreq hlive stream
  · intro req hreq hlive o ho hqueued
    rcases settled_cases s m req.frameNumber with hcase | hother
    · obtain ⟨i, hi, hsame, -, -, hreports, hnotes, -⟩ := hnow hreq hlive hcase
      have hnone : o.stream ∉ (cachedBuffers i).map StreamBuffer.stream := by
        intro hmem
        obtain ⟨b, hb, hstream⟩ := mem_map.mp hmem
        obtain ⟨hentered, hgone⟩ := hs.invariant.not_cached hi hb
        have heq : bufferOut i.frameNumber b = o := hs.invariant.sound.entered_eq hentered
          (mem_entered hreq ho) (hsame.trans (CaptureRequest.frame_of_outs ho).symm) hstream
        exact hgone (heq ▸ hqueued)
      rw [hreports, hnotes, if_neg hnone]
    · obtain ⟨hreports, hnotes, -⟩ := h.metadata_other hs hreq hlive hother
      rw [hreports, hnotes]
      exact h.waiting req hreq hlive o ho hqueued
  · intro req hreq hlive o ho error hstatus
    have hoframe := CaptureRequest.frame_of_outs ho
    rcases settled_cases s m req.frameNumber with hcase | hother
    · obtain ⟨i, hi, hsame, hinput, hnodup, hreports, hnotes, hstatuses⟩ := hnow hreq hlive hcase
      obtain ⟨b, hb, heq⟩ := hstatuses (o, error) hoframe hstatus
      have hout : bufferOut req.frameNumber b = o := congrArg Prod.fst heq
      have herror : (b.error || decide (0 < (s.hal.droppedStreams m.frameDrop i).count b.stream)) =
          error := congrArg Prod.snd heq
      have hstream : b.stream = o.stream := congrArg Out.stream hout
      have hcached : o.stream ∈ (cachedBuffers i).map StreamBuffer.stream :=
        mem_map.mpr ⟨b, hb, hstream⟩
      have hle := nodup_iff_count_le_one.mp hnodup o.stream
      rw [hnotes, hreports, if_pos hcached, ← herror, or_eq_true, h.cached i hi hinput b hb,
        hsame, hout, decide_eq_true_iff, hstream]
      exact ⟨rfl, or_congr_right (by omega)⟩
    · obtain ⟨hreports, hnotes, hstatuses⟩ := h.metadata_other hs hreq hlive hother
      rw [hreports, hnotes]
      exact h.returned req hreq hlive o ho error ((hstatuses (o, error) hoframe).mp hstatus)

end Metadata

/-! ### Requests and buffers -/

section Events

variable {failed failed' : List Out}

theorem Drops.kept (h : s.Drops failed) (htaken : t.taken = s.taken)
    (hsettled : t.settled = s.settled) (hqueued : t.queued ⊆ s.queued)
    (hids : t.hal.streamID = s.hal.streamID) (hmap : CleanMap t.hal.mPendingBuffersMap)
    (hnotes : t.hal.mPendingFrameDropList = s.hal.mPendingFrameDropList)
    (htold : ∀ req ∈ s.taken, req.inputBuffer = none →
      (∀ stream, t.hal.reports req.frameNumber stream = s.hal.reports req.frameNumber stream) ∧
        ∀ x : Out × Bool, x.1.frame = req.frameNumber → (x ∈ t.hal.statuses ↔ x ∈ s.hal.statuses))
    (hgone : ∀ o ∈ failed', o ∈ s.entered ∧ o ∉ t.queued)
    (hcached : ∀ i ∈ t.hal.mPendingRequestsList, i.inputBuffer = none → ∀ b ∈ cachedBuffers i,
      (b.error = true ↔ bufferOut i.frameNumber b ∈ failed'))
    (hsame : ∀ req ∈ s.taken, req.inputBuffer = none → ∀ o ∈ req.outs, ∀ error,
      (o, error) ∈ s.hal.statuses → (o ∈ failed' ↔ o ∈ failed)) : t.Drops failed' := by
  have hnote (f stream : ℕ) : t.hal.notes f stream = s.hal.notes f stream := by
    rw [notes, notes, hnotes, hids]
  constructor
  · exact hids ▸ h.ids
  · exact hmap
  · intro f hf stream
    rw [hnote]
    exact h.noted f (hsettled ▸ hf) stream
  · intro o ho
    rw [entered, htaken]
    exact hgone o ho
  · exact hcached
  · intro req hreq hlive hnot stream
    rw [htaken] at hreq
    rw [(htold req hreq hlive).1]
    exact h.unreported req hreq hlive (hsettled ▸ hnot) stream
  · intro req hreq hlive stream
    rw [htaken] at hreq
    rw [(htold req hreq hlive).1]
    exact h.once req hreq hlive stream
  · intro req hreq hlive o ho hmem
    rw [htaken] at hreq
    rw [(htold req hreq hlive).1, hnote]
    exact h.waiting req hreq hlive o ho (hqueued hmem)
  · intro req hreq hlive o ho error hstatus
    rw [htaken] at hreq
    obtain ⟨hreports, hstatuses⟩ := htold req hreq hlive
    have hold := (hstatuses (o, error) (CaptureRequest.frame_of_outs ho)).mp hstatus
    rw [hreports, hnote, hsame req hreq hlive o ho error hold]
    exact h.returned req hreq hlive o ho error hold

theorem Steady.told_reproc (hs : s.Steady) {hal : HardwareInterface} {calls : List Callback}
    (hsent : hal.sent = s.hal.sent ++ calls)
    (hcalls : ∀ c ∈ calls, ∃ i ∈ s.hal.mPendingRequestsList, i.inputBuffer.isSome ∧
      c.frame = some i.frameNumber) (hreq : req ∈ s.taken)
    (hlive : req.inputBuffer = none) :
    (∀ stream, hal.reports req.frameNumber stream = s.hal.reports req.frameNumber stream) ∧
      ∀ x : Out × Bool, x.1.frame = req.frameNumber → (x ∈ hal.statuses ↔ x ∈ s.hal.statuses) := by
  have hother {c : Callback} (hc : c ∈ calls) : c.frame ≠ some req.frameNumber := by
    obtain ⟨i, hi, hreproc, hframe⟩ := hcalls c hc
    obtain ⟨req', hreq', hsame, hkind⟩ := hs.invariant.taken_of_pending hi
    rw [hframe, ← hsame]
    exact fun heq => hs.invariant.frame_ne hreq hreq' hlive (hkind.trans hreproc) (some.inj heq)
  refine told_append hsent (fun stream hc => hother hc rfl) fun c hc x hx heq => hother hc ?_
  rw [Callback.frame_statuses hx, heq]

theorem Drops.input (h : s.Drops failed) (hs : s.Steady) (frameNumber : ℕ) :
    (s.input frameNumber).Drops failed := by
  obtain ⟨calls, hsent, hcalls, hpending, -⟩ := handleInputBuffer_told s.hal frameNumber
  obtain ⟨hids, hmap, hdrops, hsub⟩ : (s.input frameNumber).hal.streamID = s.hal.streamID ∧
      (s.input frameNumber).hal.mPendingBuffersMap = s.hal.mPendingBuffersMap ∧
      (s.input frameNumber).hal.mPendingFrameDropList = s.hal.mPendingFrameDropList ∧
      (s.input frameNumber).hal.mPendingRequestsList ⊆ s.hal.mPendingRequestsList := by
    rw [CaptureState.input, handleInputBufferWithLock]
    split
    · split
      · dsimp only
        split <;> exact ⟨rfl, rfl, rfl, eraseP_subset⟩
      · exact ⟨rfl, rfl, rfl, fun k hk => hk⟩
    · exact ⟨rfl, rfl, rfl, fun k hk => hk⟩
  refine h.kept rfl rfl (fun o ho => ho) hids (hmap ▸ h.map) hdrops (fun req hreq hlive => ?_) h.gone
    (fun k hk => h.cached k (hsub hk)) fun req _ _ o _ error _ => Iff.rfl
  exact hs.told_reproc hsent (fun c hc => by
    obtain ⟨i, hi, hreproc, hframe, -⟩ := hcalls c hc
    exact ⟨i, hi, hreproc, hframe⟩) hreq hlive

variable {o : Out}

theorem mem_failed {error : Bool} {x : Out} :
    x ∈ failed ++ failedOuts [.buffer o error] ↔ x ∈ failed ∨ x = o ∧ error = true := by
  cases error <;> simp [failedOuts]

theorem Drops.gone_buffer (h : s.Drops failed) (hs : s.Steady) (ho : o ∈ s.queued)
    (error : Bool) : ∀ x ∈ failed ++ failedOuts [.buffer o error],
      x ∈ s.entered ∧ x ∉ s.queued.erase o := by
  intro x hx
  rcases mem_failed.mp hx with hx | ⟨rfl, -⟩
  · exact ⟨(h.gone x hx).1, fun hmem => (h.gone x hx).2 (mem_of_mem_erase hmem)⟩
  · exact ⟨hs.invariant.sound.queued_entered ho,
      fun hmem => absurd hmem (List.Nodup.not_mem_erase hs.invariant.sound.queued_nodup)⟩

theorem mem_failed_other {error : Bool} {x : Out} (hx : x ≠ o) :
    x ∈ failed ++ failedOuts [.buffer o error] ↔ x ∈ failed := by
  rw [mem_failed, or_iff_left fun h => hx h.1]

/-- **A buffer whose request is not pending** is returned, and takes its note. -/
theorem Drops.buffer_sent (h : s.Drops failed) (hs : s.Steady) (ho : o ∈ s.queued)
    (error : Bool) (hnone : ∀ i ∈ s.hal.mPendingRequestsList, i.frameNumber ≠ o.frame)
    (hhal : (s.buffer o error).hal = s.hal.sendBuffer ⟨o.stream, o.buffer, error⟩ o.frame) :
    (s.buffer o error).Drops (failed ++ failedOuts [.buffer o error]) := by
  have hnotes (f stream : ℕ) : (s.buffer o error).hal.notes f stream =
      s.hal.notes f stream - if f = o.frame ∧ stream = o.stream then 1 else 0 := by
    rw [hhal]
    exact notes_takeFrameDrop h.ids o.stream o.frame f stream
  have hsent : (s.buffer o error).hal.sent = s.hal.sent ++ [.result
      { frameNumber := o.frame
        outputBuffers := [⟨o.stream, o.buffer,
          error || decide (0 < s.hal.notes o.frame o.stream)⟩] }] := by
    rw [hhal, sendBuffer]
    dsimp only
    rw [takeBuffer]
    dsimp only
    rw [takeFrameDrop_fst, show getBufErrStatus
      (s.hal.takeFrameDrop o.stream o.frame).2.mPendingBuffersMap o.buffer = false from
        h.map.status o.buffer, Bool.or_false]
    rfl
  have hreports (f stream : ℕ) : (s.buffer o error).hal.reports f stream = s.hal.reports f stream := by
    rw [reports, hsent, count_append]
    rfl
  have hstatuses (x : Out × Bool) : x ∈ (s.buffer o error).hal.statuses ↔
      x ∈ s.hal.statuses ∨ x = (o, error || decide (0 < s.hal.notes o.frame o.stream)) := by
    rw [statuses, hsent, flatMap_append, mem_append]
    exact or_congr_right mem_singleton
  have hother {req : CaptureRequest} (hreq : req ∈ s.taken) {x : Out} (hx : x ∈ req.outs)
      (hne : x ≠ o) : (s.buffer o error).hal.notes req.frameNumber x.stream = s.hal.notes req.frameNumber x.stream := by
    rw [hnotes, if_neg, Nat.sub_zero]
    rintro ⟨hframe, hstream⟩
    exact hne (hs.invariant.sound.entered_eq (mem_entered hreq hx)
      (hs.invariant.sound.queued_entered ho) ((CaptureRequest.frame_of_outs hx).trans hframe) hstream)
  constructor
  · rw [hhal]
    exact h.ids
  · rw [hhal]
    exact h.map.removeBuf o.buffer
  · intro f hf stream
    rw [hnotes, h.noted f hf, Nat.zero_sub]
  · exact h.gone_buffer hs ho error
  · rw [hhal]
    intro i hi hlive b hb
    rw [mem_failed_other fun heq => hnone i hi (congrArg Out.frame heq)]
    exact h.cached i hi hlive b hb
  · intro req hreq hlive hnot stream
    rw [hreports]
    exact h.unreported req hreq hlive hnot stream
  · intro req hreq hlive stream
    rw [hreports]
    exact h.once req hreq hlive stream
  · intro req hreq hlive x hx hmem
    have hne : x ≠ o := fun heq => by
      rw [heq] at hmem
      exact absurd hmem (List.Nodup.not_mem_erase hs.invariant.sound.queued_nodup)
    rw [hreports, hother hreq hx hne]
    exact h.waiting req hreq hlive x hx (mem_of_mem_erase hmem)
  · intro req hreq hlive x hx e hstatus
    rw [hreports]
    rcases (hstatuses _).mp hstatus with hold | hnew
    · have hne : x ≠ o := fun heq => (hs.invariant.not_returned hold).1 (heq ▸ ho)
      rw [hother hreq hx hne, mem_failed_other hne]
      exact h.returned req hreq hlive x hx e hold
    · obtain rfl : x = o := congrArg Prod.fst hnew
      have herror : e = (error || decide (0 < s.hal.notes x.frame x.stream)) :=
        congrArg Prod.snd hnew
      have hframe := CaptureRequest.frame_of_outs hx
      have hwait := h.waiting req hreq hlive x hx ho
      have honce := h.once req hreq hlive x.stream
      have hfail : x ∉ failed := fun hmem => (h.gone x hmem).2 ho
      rw [hnotes, if_pos ⟨hframe.symm, rfl⟩, mem_failed, or_iff_right hfail, herror, or_eq_true,
        decide_eq_true_iff, hframe, hwait]
      refine ⟨by omega, or_congr ⟨fun h => ⟨rfl, h⟩, And.right⟩ (by omega)⟩

theorem mem_cached_cacheBuffer {b b' : StreamBuffer} {i : PendingRequestInfo}
    (hb : b' ∈ cachedBuffers { i with buffers := i.buffers.map (cacheBuffer b) }) :
    b' ∈ cachedBuffers i ∨ b' = b := by
  obtain ⟨j, hj, hbuffer⟩ := mem_filterMap.mp hb
  obtain ⟨j, hj', rfl⟩ := mem_map.mp hj
  rw [cacheBuffer] at hbuffer
  split at hbuffer
  · exact .inr (some.inj hbuffer).symm
  · exact .inl (mem_filterMap.mpr ⟨j, hj', hbuffer⟩)

theorem Drops.buffer_cached (h : s.Drops failed) (hs : s.Steady) (ho : o ∈ s.queued) (error : Bool)
    (hhal : (s.buffer o error).hal = s.hal.modifyRequest o.frame fun i =>
      { i with buffers := i.buffers.map (cacheBuffer ⟨o.stream, o.buffer, error⟩) }) :
    (s.buffer o error).Drops (failed ++ failedOuts [.buffer o error]) := by
  have hfail : o ∉ failed := fun hmem => (h.gone o hmem).2 ho
  refine h.kept rfl rfl erase_subset ?_ ?_ ?_ (fun req _ _ => ?_) (h.gone_buffer hs ho error)
    (fun k hk hlive b hb => ?_) fun req hreq _ x hx e hstatus => ?_
  · rw [hhal]
    rfl
  · rw [hhal]
    exact h.map
  · rw [hhal]
    rfl
  · rw [hhal]
    exact ⟨fun _ => rfl, fun _ _ => Iff.rfl⟩
  · rw [hhal] at hk
    obtain ⟨i, hi, rfl⟩ := mem_map.mp hk
    have hold {c : StreamBuffer} (hc : c ∈ cachedBuffers i) (hinput : i.inputBuffer = none) :
        (c.error = true ↔ bufferOut i.frameNumber c ∈ failed ++ failedOuts [.buffer o error]) := by
      have hne : bufferOut i.frameNumber c ≠ o := fun heq =>
        (hs.invariant.not_cached hi hc).2 (heq ▸ ho)
      rw [mem_failed_other hne]
      exact h.cached i hi hinput c hc
    split at hb
    · rename_i hframe
      rw [if_pos hframe] at hlive ⊢
      rcases mem_cached_cacheBuffer hb with hb | rfl
      · exact hold hb hlive
      · have hout : bufferOut i.frameNumber ⟨o.stream, o.buffer, error⟩ = o := by
          rw [hframe]
          rfl
        change error = true ↔ bufferOut i.frameNumber ⟨o.stream, o.buffer, error⟩ ∈ _
        rw [hout, mem_failed, or_iff_right hfail]
        exact ⟨fun h => ⟨rfl, h⟩, And.right⟩
    · rename_i hframe
      rw [if_neg hframe] at hlive ⊢
      exact hold hb hlive
  · exact mem_failed_other fun heq => (hs.invariant.not_returned hstatus).1 (heq ▸ ho)

theorem Drops.buffer_reproc (h : s.Drops failed) (hs : s.Steady) (ho : o ∈ s.queued)
    (error : Bool) {i : PendingRequestInfo} (hi : i ∈ s.hal.mPendingRequestsList)
    (hframe : i.frameNumber = o.frame) (hreproc : i.inputBuffer.isSome)
    (hhal : (s.buffer o error).hal = s.hal.handleReprocBuffer i ⟨o.stream, o.buffer, error⟩) :
    (s.buffer o error).Drops (failed ++ failedOuts [.buffer o error]) := by
  obtain ⟨hids, hmap, hdrops, hsub⟩ : (s.buffer o error).hal.streamID = s.hal.streamID ∧
      (s.buffer o error).hal.mPendingBuffersMap = removeBuf o.buffer s.hal.mPendingBuffersMap ∧
      (s.buffer o error).hal.mPendingFrameDropList = s.hal.mPendingFrameDropList ∧
      (s.buffer o error).hal.mPendingRequestsList ⊆ s.hal.mPendingRequestsList := by
    rw [hhal, handleReprocBuffer]
    dsimp only
    split
    · exact ⟨rfl, rfl, rfl, fun k hk => hk⟩
    · exact ⟨rfl, rfl, rfl, eraseP_subset⟩
  obtain ⟨calls, hsent, hcalls⟩ : ∃ calls, (s.buffer o error).hal.sent = s.hal.sent ++ calls ∧
      ∀ c ∈ calls, c.frame = some i.frameNumber := by
    rw [hhal, handleReprocBuffer]
    dsimp only
    split
    · exact ⟨[], (append_nil _).symm, fun c hc => absurd hc not_mem_nil⟩
    · refine ⟨[.shutter i.frameNumber, .result _], append_assoc _ _ _, fun c hc => ?_⟩
      rcases mem_cons.mp hc with rfl | hc
      · rfl
      · rw [mem_singleton.mp hc]
        rfl
  have hne {x : Out} {k : PendingRequestInfo} (hk : k ∈ s.hal.mPendingRequestsList)
      (hlive : k.inputBuffer = none) (hx : x.frame = k.frameNumber) : x ≠ o := by
    rintro rfl
    obtain ⟨req, hreq, hsame, hkind⟩ := hs.invariant.taken_of_pending hk
    obtain ⟨req', hreq', hsame', hkind'⟩ := hs.invariant.taken_of_pending hi
    refine hs.invariant.frame_ne hreq hreq' ?_ (hkind'.trans hreproc) ?_
    · simpa [hlive] using hkind
    · rw [hsame, hsame', hframe, hx]
  refine h.kept rfl rfl erase_subset hids (hmap ▸ h.map.removeBuf o.buffer) hdrops
    (fun req hreq hlive => ?_) (h.gone_buffer hs ho error) (fun k hk hlive b hb => ?_)
    fun req hreq _ x hx e hstatus => ?_
  · exact hs.told_reproc hsent (fun c hc => ⟨i, hi, hreproc, hcalls c hc⟩) hreq hlive
  · rw [mem_failed_other (hne (hsub hk) hlive rfl)]
    exact h.cached k (hsub hk) hlive b hb
  · exact mem_failed_other fun heq => (hs.invariant.not_returned hstatus).1 (heq ▸ ho)

/-- **A buffer keeps the account of the drops.** -/
theorem Drops.buffer (h : s.Drops failed) (hs : s.Steady) (ho : o ∈ s.queued)
    (error : Bool) : (s.buffer o error).Drops (failed ++ failedOuts [.buffer o error]) := by
  have hstate : ¬ (s.hal.mState = .error ∨ s.hal.mState = .deinit) := by
    rcases hs.invariant.working.state with hst | hst <;> simp [hst]
  have hhal : (s.buffer o error).hal = s.hal.handleBufferWithLock ⟨o.stream, o.buffer, error⟩ o.frame := rfl
  rw [handleBufferWithLock, if_neg hstate, if_neg (by simp [hs.invariant.working.flushPerf])] at hhal
  split at hhal
  · rename_i hfind
    exact h.buffer_sent hs ho error (fun i hi => by simpa using find?_eq_none.mp hfind i hi) hhal
  · rename_i i hfind
    have hi := mem_of_find?_eq_some hfind
    have hframe : i.frameNumber = o.frame := by simpa using find?_some hfind
    split at hhal
    · rename_i hreproc
      exact h.buffer_reproc hs ho error hi hframe hreproc hhal
    · exact h.buffer_cached hs ho error hhal

theorem Steady.untold (hs : s.Steady) {f : ℕ} (hf : f ∉ s.frames) :
    (∀ stream, s.hal.reports f stream = 0) ∧ ∀ x ∈ s.hal.statuses, x.1.frame ≠ f := by
  refine ⟨fun stream => count_eq_zero.mpr fun hc => hf (hs.told _ hc f rfl), ?_⟩
  rintro x hx rfl
  obtain ⟨c, hc, hxc⟩ := mem_flatMap.mp hx
  exact hf (hs.told c hc _ (Callback.frame_statuses hxc))

/-- **A request** enters with nothing reported or noted. -/
theorem Drops.request (h : s.Drops failed) (hs : s.Steady) {calls : RequestCalls}
    (hfresh : s.Fresh req) (hu : s.Undrained (.request calls req)) :
    (s.request calls req).Drops failed := by
  rcases request_undrained hs.invariant hu with ⟨hal, huntouched, heq⟩ | ⟨u, hal, huntouched, hsub, hmarks, heq⟩
  · rw [heq]
    refine h.kept rfl rfl (fun o ho => ho) ?_ ?_ ?_ (fun req _ _ => ?_) h.gone ?_ fun req _ _ o _ error _ => Iff.rfl
    · rw [huntouched]
    · rw [huntouched]
      exact h.map
    · rw [huntouched]
    · rw [huntouched]
      exact ⟨fun _ => rfl, fun _ _ => Iff.rfl⟩
    · rw [huntouched]
      exact h.cached
  · have hsent : hal.sent = s.hal.sent := by
      rw [hsub.rest, huntouched]
      rfl
    have hids : hal.streamID = s.hal.streamID := by
      rw [hsub.rest, huntouched]
      rfl
    have hdrops : hal.mPendingFrameDropList = s.hal.mPendingFrameDropList := by
      rw [hsub.rest, huntouched]
      rfl
    have hmap : hal.mPendingBuffersMap = s.hal.mPendingBuffersMap ++
        [⟨req.frameNumber, req.outputs.map fun o => { stream := o.stream, buffer := o.buffer }⟩] := by
      rw [hsub.rest, huntouched]
      rfl
    have hnote (f stream : ℕ) : hal.notes f stream = s.hal.notes f stream := by
      rw [notes, notes, hdrops, hids]
    have hreport (f stream : ℕ) : hal.reports f stream = s.hal.reports f stream := by
      rw [reports, reports, hsent]
    have hstatus : hal.statuses = s.hal.statuses := by rw [statuses, statuses, hsent]
    have hnew : req.frameNumber ∉ s.frames := fun hmem => absurd (hfresh.1 _ hmem) (Nat.lt_irrefl _)
    have hunsettled : req.frameNumber ∉ s.settled := fun hmem => hnew (hs.marked.frames _ hmem)
    obtain ⟨huntold, hunreturned⟩ := hs.untold hnew
    have holder {o : Out} (ho : o ∈ s.entered) : o ∉ req.outs := fun hmem =>
      hnew (CaptureRequest.frame_of_outs hmem ▸ frame_of_entered ho)
    rw [heq]
    constructor
    · exact hids ▸ h.ids
    · change CleanMap hal.mPendingBuffersMap
      rw [hmap]
      intro e he k hk
      rcases mem_append.mp he with he | he
      · exact h.map e he k hk
      · rw [mem_singleton.mp he] at hk
        obtain ⟨o, -, rfl⟩ := mem_map.mp hk
        rfl
    · exact fun f hf stream => (hnote f stream).trans (h.noted f hf stream)
    · intro o ho
      obtain ⟨hentered, hgone⟩ := h.gone o ho
      refine ⟨?_, fun hmem => (mem_append.mp hmem).elim hgone (holder hentered)⟩
      obtain ⟨req', hreq', ho'⟩ := mem_flatMap.mp hentered
      exact mem_flatMap.mpr ⟨req', mem_append_left _ hreq', ho'⟩
    · intro k hk hlive b hb
      obtain ⟨i, hi, hbare, hcached⟩ := hmarks.origin hk
      have hframe : i.frameNumber = k.frameNumber := congrArg (·.frameNumber) hbare
      have hinput : i.inputBuffer = k.inputBuffer := congrArg (·.inputBuffer) hbare
      rw [insertRequest, huntouched] at hi
      rw [← hcached] at hb
      rcases mem_append.mp hi with hi | hi
      · rw [← hframe]
        exact h.cached i hi (hinput.trans hlive) b hb
      · rw [mem_singleton.mp hi, cachedBuffers, filterMap_map] at hb
        simp at hb
    · intro req' hreq' hlive hnot stream
      refine (hreport _ _).trans ?_
      rcases mem_append.mp hreq' with hreq' | hreq'
      · exact h.unreported req' hreq' hlive hnot stream
      · rw [mem_singleton.mp hreq', huntold]
    · intro req' hreq' hlive stream
      refine (hreport _ _).trans_le ?_
      rcases mem_append.mp hreq' with hreq' | hreq'
      · exact h.once req' hreq' hlive stream
      · rw [mem_singleton.mp hreq', huntold]
        exact Nat.zero_le _
    · intro req' hreq' hlive o ho hqueued
      refine (hnote _ _).trans (Eq.trans ?_ (hreport _ _).symm)
      rcases mem_append.mp hreq' with hreq' | hreq'
      · refine h.waiting req' hreq' hlive o ho ?_
        exact (mem_append.mp hqueued).resolve_right (holder (mem_entered hreq' ho))
      · rw [mem_singleton.mp hreq', huntold, h.noted _ hunsettled]
    · intro req' hreq' hlive o ho error hold
      change (o, error) ∈ hal.statuses at hold
      change hal.notes _ _ = 0 ∧ (error = true ↔ o ∈ failed ∨ hal.reports _ _ = 1)
      rw [hstatus] at hold
      rw [hnote, hreport]
      rcases mem_append.mp hreq' with hreq' | hreq'
      · exact h.returned req' hreq' hlive o ho error hold
      · rw [mem_singleton.mp hreq'] at ho
        exact absurd (CaptureRequest.frame_of_outs ho) (hunreturned _ hold)

/-- **One event keeps the account of the drops**, if its metadata is in order. -/
theorem Drops.step (h : s.Drops failed) (hs : s.Steady) {e : CaptureEvent} (hu : s.Undrained e)
    (hin : s.DropsInOrder e) (hstep : s.step e = some t) : t.Drops (failed ++ failedOuts [e]) := by
  cases e with
  | request calls req =>
    simp only [CaptureState.step, ite_none_right_eq_some, some.injEq] at hstep
    obtain ⟨hfresh, rfl⟩ := hstep
    exact (append_nil failed).symm ▸ h.request hs hfresh hu
  | metadata m =>
    cases hstep
    exact (append_nil failed).symm ▸ h.metadata hs hin
  | buffer o error =>
    simp only [CaptureState.step, ite_none_right_eq_some, some.injEq] at hstep
    obtain ⟨ho, rfl⟩ := hstep
    exact h.buffer hs ho error
  | input frameNumber =>
    cases hstep
    exact (append_nil failed).symm ▸ h.input hs frameNumber
  | flush => exact absurd trivial hu

end Events

/-- **The dropped frames are accounted for.** For every output buffer of a live request its drop is
reported at most once; while it is with the channel it is noted if it was reported; and when it was
returned no note refers to it, and its status is an error if and only if the channel returned it with
one or its drop was reported. -/
def DropsReported (es : List CaptureEvent) (s : CaptureState) : Prop :=
  ∀ req ∈ s.taken, req.inputBuffer = none → ∀ o ∈ req.outs, s.hal.reports req.frameNumber o.stream ≤ 1 ∧ (o ∈ s.queued →
        s.hal.notes req.frameNumber o.stream = s.hal.reports req.frameNumber o.stream) ∧
      ∀ error, (o, error) ∈ s.hal.statuses → (∀ e ∈ s.hal.mPendingFrameDropList,
          ¬ (e.frameNumber = req.frameNumber ∧ e.streamID = s.hal.streamID o.stream)) ∧
        (error = true ↔ .buffer o true ∈ es ∨ s.hal.reports req.frameNumber o.stream = 1)

theorem mem_failedOuts {es : List CaptureEvent} : o ∈ failedOuts es ↔ CaptureEvent.buffer o true ∈ es := by
  rw [failedOuts, mem_filterMap]
  constructor
  · rintro ⟨e, he, heq⟩
    split at heq
    · rwa [some.inj heq] at he
    · cases heq
  · exact fun he => ⟨_, he, rfl⟩

/-- **The drops are reported once, and their buffers returned with an error**, in a run of requests
and callbacks whose metadata is in order. -/
theorem drops_run {s t : CaptureState} {es : List CaptureEvent} (hs : s.Initial)
    (hid : Function.Injective s.hal.streamID) (hdrops : s.hal.mPendingFrameDropList = [])
    (h : Run (guarded (fun s e => s.Undrained e ∧ s.DropsInOrder e) (fires step)) s es t) :
    t.DropsReported es := by
  obtain ⟨-, hdrops⟩ : t.Steady ∧ t.Drops (failedOuts es) := by
    refine h.history (P := fun es t => t.Steady ∧ t.Drops (failedOuts es))
      ⟨steady_initial hs, drops_initial hs hid hdrops⟩ fun es u e v _ hu hstep => ?_
    obtain ⟨⟨hundrained, hin⟩, hstep⟩ := hstep
    refine ⟨hu.1.step hundrained hstep, ?_⟩
    rw [failedOuts, filterMap_append]
    exact hu.2.step hu.1 hundrained hin hstep
  intro req hreq hlive o ho
  refine ⟨hdrops.once req hreq hlive o.stream, hdrops.waiting req hreq hlive o ho, fun error hstatus => ?_⟩
  obtain ⟨hnone, herror⟩ := hdrops.returned req hreq hlive o ho error hstatus
  refine ⟨fun e he hsame => ?_, herror.trans (or_congr_left mem_failedOuts)⟩
  have hnot := countP_eq_zero.mp hnone e he
  exact hnot (by simp [hsame])

/-- Two live requests. The frame of the first is dropped after its buffer has come, and that of the
second before. -/
def droppedTwice : List CaptureEvent :=
  [liveRequest 1 11, liveRequest 2 12, .buffer ⟨1, 1, 11⟩ false, .metadata { frameNumber := some 1, frameDrop := [1] },
    .metadata { frameNumber := some 2, frameDrop := [1] }, .buffer ⟨2, 1, 12⟩ false]

/-- Both are reported and returned with an error, and `drops_run` applies. -/
theorem drops_run_two : ∃ t,
    Run (guarded (fun s e => s.Undrained e ∧ s.DropsInOrder e) (fires step)) configured droppedTwice t ∧
      t.hal.statuses = [(⟨1, 1, 11⟩, true), (⟨2, 1, 12⟩, true)] ∧
      t.hal.mPendingFrameDropList = [] ∧ t.DropsReported droppedTwice :=
  (exists_run (P := fun t => t.hal.statuses = [(⟨1, 1, 11⟩, true), (⟨2, 1, 12⟩, true)] ∧
    t.hal.mPendingFrameDropList = []) (by decide)).imp fun _ h =>
    ⟨h.1, h.2.1, h.2.2, drops_run configured_initial Function.injective_id rfl h.1⟩

/-- The buffer of a live request comes, its own metadata is missed, and the next metadata says that
the frame was dropped. -/
def droppedLate : List CaptureEvent :=
  [liveRequest 1 11, liveRequest 2 12, .buffer ⟨1, 1, 11⟩ false, .metadata { frameNumber := some 2, frameDrop := [1] }]

/-- The drop of the first frame is reported, its buffer is returned without an error, and its note
stays. -/
theorem drop_unreturned : ∃ t, Run (fires step) configured droppedLate t ∧
    t.hal.reports 1 1 = 1 ∧ t.hal.statuses = [(⟨1, 1, 11⟩, false)] ∧ t.hal.notes 1 1 = 1 ∧
      ¬ t.DropsReported droppedLate := by
  refine (exists_run_fires (P := fun t => t.hal.reports 1 1 = 1 ∧ t.hal.statuses = [(⟨1, 1, 11⟩, false)] ∧
    t.hal.notes 1 1 = 1 ∧ ∃ req ∈ t.taken, req.inputBuffer = none ∧ req.frameNumber = 1 ∧
      ⟨1, 1, 11⟩ ∈ req.outs) (by decide)).imp fun t ht => ⟨ht.1, ?_⟩
  obtain ⟨-, hreports, hstatuses, hnotes, req, hreq, hlive, hframe, ho⟩ := ht
  refine ⟨hreports, hstatuses, hnotes, fun hin => ?_⟩
  obtain ⟨-, -, hreturned⟩ := hin req hreq hlive _ ho
  obtain ⟨-, herror⟩ := hreturned false (by rw [hstatuses]; exact mem_singleton_self _)
  exact absurd (herror.mpr (.inr (hframe ▸ hreports))) (by decide)

end CaptureState

end Marlin
