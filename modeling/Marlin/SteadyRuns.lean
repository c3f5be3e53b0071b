import Marlin.CaptureDelivery
import Marlin.MetadataParts

/-!
# Runs of Requests and Callbacks

A flush, or a restart of the sensor, gives up what is pending. Between two of them there are requests
and callbacks only, and the framework is told of frames that it requested. A live frame is not told
of as the frame of a reprocess result.

## Main results

* `request_undrained`: the lists take a request, or they do not.
* `Steady.step`: what every run of requests and callbacks keeps.
-/

open List Option Ledger Outcome Transition

namespace Marlin

namespace CaptureState

open HardwareInterface

variable {s t : CaptureState}

/-- The event is a request that does not restart the sensor, or a callback. -/
def Undrained (s : CaptureState) (e : CaptureEvent) : Prop := ¬ s.Drains e
deriving Decidable

/-- What the framework is told is of frames that it requested, and what waits is the result of a
reprocess request. -/
structure Steady (s : CaptureState) : Prop where
  invariant : s.Invariant
  marked : s.Marked
  told : ∀ c ∈ s.hal.sent, ∀ f ∈ c.frame, f ∈ s.frames
  held : ∀ j ∈ s.hal.mPendingReprocessResultList,
    ∃ req ∈ s.taken, req.frameNumber = j.frameNumber ∧ req.inputBuffer.isSome

theorem steady_initial (h : s.Initial) : s.Steady where
  invariant := h.invariant
  marked := marked_initial h
  told := by
    rw [h.sent]
    nofun
  held := by
    rw [h.results]
    nofun

theorem Invariant.taken_of_pending (h : s.Invariant) {i : PendingRequestInfo} (hi : i ∈ s.hal.mPendingRequestsList) :
    ∃ req ∈ s.taken, req.frameNumber = i.frameNumber ∧ req.inputBuffer.isSome = i.inputBuffer.isSome :=
  h.kinds _ (mem_map.mpr ⟨i, hi, rfl⟩)

theorem Invariant.taken_unique (h : s.Invariant) {req req' : CaptureRequest} (hreq : req ∈ s.taken)
    (hreq' : req' ∈ s.taken) (hframe : req.frameNumber = req'.frameNumber) : req = req' :=
  inj_on_of_nodup_map (pairwise_map.mpr (h.sorted.imp fun hlt => Nat.ne_of_lt hlt)) hreq hreq' hframe

theorem Invariant.frame_ne (h : s.Invariant) {req req' : CaptureRequest} (hreq : req ∈ s.taken)
    (hreq' : req' ∈ s.taken) (hlive : req.inputBuffer = none) (hreproc : req'.inputBuffer.isSome) :
    req'.frameNumber ≠ req.frameNumber := by
  intro hframe
  rw [h.taken_unique hreq' hreq hframe, hlive] at hreproc
  cases hreproc

theorem Invariant.frame_of_pending (h : s.Invariant) {i : PendingRequestInfo}
    (hi : i ∈ s.hal.mPendingRequestsList) : i.frameNumber ∈ s.frames := by
  obtain ⟨req, hreq, hframe, -⟩ := h.taken_of_pending hi
  exact mem_map.mpr ⟨req, hreq, hframe⟩

/-- **A request**: the lists take it, or they do not. -/
theorem request_undrained (h : s.Invariant) {calls : RequestCalls} {req : CaptureRequest}
    (hu : s.Undrained (.request calls req)) :
    (∃ hal, Untouched s.hal hal ∧ s.request calls req = { s with hal := hal }) ∨
    ∃ u hal, Untouched s.hal u ∧ Submitted (insertRequest req u) hal ∧ Remarked (insertRequest req u) hal ∧
      s.request calls req = { s with
        hal := hal
        queued := s.queued ++ req.outs
        taken := s.taken ++ [req] } := by
  have hrestarts : ¬ restarts calls req s.hal = true := hu
  have hbefore : pendingBefore calls req s.hal = s.hal := if_neg hrestarts
  have hsame : s.restarted calls req = s := if_neg hrestarts
  rcases processCaptureRequest_cases calls req h.working.state with
    ⟨r, hprep, hproc, -, huntouched⟩ | ⟨u, hprep, huntouched, hsub⟩
  · refine .inl ⟨r.2, hbefore ▸ huntouched, ?_⟩
    rw [request, hprep, hproc, hsame]
  · refine .inr ⟨u, _, hbefore ▸ huntouched, hsub, remarked_processCaptureRequest hprep, ?_⟩
    rw [request, hprep, hsame]

theorem Steady.kept (h : s.Steady) (hinv : t.Invariant) (hmarked : t.Marked)
    (htaken : t.taken = s.taken) {calls : List Callback} (hsent : t.hal.sent = s.hal.sent ++ calls)
    (htold : ∀ c ∈ calls, ∀ f ∈ c.frame, f ∈ s.frames)
    (hheld : ∀ j ∈ t.hal.mPendingReprocessResultList, j ∈ s.hal.mPendingReprocessResultList ∨
      ∃ i ∈ s.hal.mPendingRequestsList, i.inputBuffer.isSome ∧ i.frameNumber = j.frameNumber) :
    t.Steady where
  invariant := hinv
  marked := hmarked
  told := by
    intro c hc
    rw [frames, htaken]
    rw [hsent] at hc
    rcases mem_append.mp hc with hc | hc
    · exact h.told c hc
    · exact htold c hc
  held := by
    intro j hj
    rw [htaken]
    rcases hheld j hj with hj | ⟨i, hi, hreproc, hframe⟩
    · exact h.held j hj
    · obtain ⟨req, hreq, hsame, hkind⟩ := h.invariant.taken_of_pending hi
      exact ⟨req, hreq, hsame.trans hframe, hkind.trans hreproc⟩

theorem settled_metadata {f n : ℕ} {m : MetadataInfo} (hn : m.number = some n)
    (hf : f ∈ s.frames) (hle : f ≤ n) : f ∈ (s.metadata m).settled := by
  refine mem_append_right _ ?_
  rw [hn]
  exact mem_filter.mpr ⟨hf, decide_eq_true hle⟩

theorem Steady.metadata (h : s.Steady) (m : MetadataInfo) : (s.metadata m).Steady := by
  have hstep : s.step (.metadata m) = some (s.metadata m) := rfl
  have hsorted := sorted_requests h.invariant.sound
  have hhal : (s.metadata m).hal = ((s.hal.urgentPart m).normalPart m).doneMetadata :=
    handleMetadata_eq h.invariant.working m
  have hurgent := urgentPart_eq m hsorted
  have htold : ∀ c ∈ (s.hal.urgentPart m).sent, ∀ f ∈ c.frame, f ∈ s.frames := by
    rw [hurgent]
    intro c hc f hf
    rcases mem_append.mp hc with hc | hc
    · exact h.told c hc f hf
    · obtain ⟨i, hi, hc⟩ := mem_flatMap.mp hc
      rw [(mem_urgentResult hc).1, mem_some] at hf
      exact hf ▸ h.invariant.frame_of_pending hi
  have hpending (i : PendingRequestInfo) (hi : i ∈ (s.hal.urgentPart m).mPendingRequestsList) :
      i.frameNumber ∈ s.frames := by
    rw [hurgent] at hi
    obtain ⟨k, hk, rfl⟩ := mem_map.mp hi
    rw [(urgentEntry_kept m k).1]
    exact h.invariant.frame_of_pending hk
  constructor
  · exact h.invariant.step (e := .metadata m) False.elim hstep
  · exact marked_step h.invariant h.marked (e := .metadata m) False.elim hstep
  · rw [hhal]
    change ∀ c ∈ ((s.hal.urgentPart m).normalPart m).sent, ∀ f ∈ c.frame, f ∈ s.frames
    rw [normalPart]
    cases m.number with
    | none => exact htold
    | some n =>
      have hmem {i : PendingRequestInfo} (hi : i ∈ upTo n (s.hal.urgentPart m).mPendingRequestsList) :=
        hpending i ((takeWhile_sublist _).subset hi)
      refine metadataTurns_told (fun i hi stream f hf => ?_) (fun i hi _ bs _ c hc f hf => ?_)
        (fun c hheld _ f hf => ?_) htold
      · exact mem_some.mp hf ▸ hmem hi
      · rw [frame_resultCalls hc] at hf
        have hframe : i.frameNumber = f := mem_some.mp hf
        exact hframe ▸ hmem hi
      · obtain ⟨j, hj, hc⟩ := hheld
        rw [hurgent] at hj
        obtain ⟨req, hreq, hframe, -⟩ := h.held j hj
        rw [hc, mem_some] at hf
        exact mem_map.mpr ⟨req, hreq, hframe.trans hf⟩
  · rw [hhal]
    intro j hj
    refine h.held j ?_
    change j ∈ ((s.hal.urgentPart m).normalPart m).mPendingReprocessResultList at hj
    rw [normalPart] at hj
    have hback : (s.hal.urgentPart m).mPendingReprocessResultList = s.hal.mPendingReprocessResultList := by rw [hurgent]
    cases hn : m.number with
    | none =>
      rw [hn] at hj
      exact hback ▸ hj
    | some n =>
      rw [hn] at hj
      exact hback ▸ results_metadataTurns _ _ _ _ hj

/-- **One event keeps the order of what is told**, if it does not return what is pending. -/
theorem Steady.step (h : s.Steady) {e : CaptureEvent} (hu : s.Undrained e) (hstep : s.step e = some t) : t.Steady := by
  have hdrains : s.DrainsAll e := fun hd => absurd hd hu
  have hinv := h.invariant.step hdrains hstep
  have hmarked := marked_step h.invariant h.marked hdrains hstep
  have htold {i : PendingRequestInfo} (hi : i ∈ s.hal.mPendingRequestsList) {c : Callback}
      (hc : c.frame = some i.frameNumber) : ∀ f ∈ c.frame, f ∈ s.frames := by
    intro f hf
    rw [hc, mem_some] at hf
    exact hf ▸ h.invariant.frame_of_pending hi
  cases e with
  | request calls req =>
    simp only [CaptureState.step, ite_none_right_eq_some, some.injEq] at hstep
    obtain ⟨-, rfl⟩ := hstep
    rcases request_undrained h.invariant hu with ⟨hal, huntouched, heq⟩ | ⟨u, hal, huntouched, hsub, -, heq⟩
    · rw [heq] at hinv hmarked ⊢
      have hsent : hal.sent = s.hal.sent ++ [] := by rw [append_nil, huntouched]
      refine h.kept hinv hmarked rfl hsent (fun c hc => by cases hc) fun j hj => .inl ?_
      rw [huntouched] at hj
      exact hj
    · rw [heq] at hinv hmarked ⊢
      have hsent : hal.sent = s.hal.sent := by
        rw [hsub.rest, huntouched]
        rfl
      have hresults : hal.mPendingReprocessResultList = s.hal.mPendingReprocessResultList := by
        rw [hsub.rest, huntouched]
        rfl
      refine ⟨hinv, hmarked, ?_, ?_⟩
      · rw [hsent]
        intro c hc f hf
        rw [CaptureState.frames, map_append]
        exact mem_append_left _ (h.told c hc f hf)
      · rw [hresults]
        intro j hj
        obtain ⟨req', hreq', hheld⟩ := h.held j hj
        exact ⟨req', mem_append_left _ hreq', hheld⟩
  | metadata m =>
    cases hstep
    exact h.metadata m
  | buffer o error =>
    simp only [CaptureState.step, ite_none_right_eq_some, some.injEq] at hstep
    obtain ⟨ho, rfl⟩ := hstep
    obtain ⟨calls, hsent, hcalls, -, hresults⟩ :=
      handleBuffer_told h.invariant.working ⟨o.stream, o.buffer, error⟩ o.frame
    refine h.kept hinv hmarked rfl hsent (fun c hc => ?_) hresults
    rcases hcalls c hc with ⟨b, e, rfl⟩ | ⟨i, hi, -, hframe, -⟩
    · intro f hf
      obtain rfl := mem_some.mp hf
      exact frame_of_entered (h.invariant.sound.listed_entered (h.invariant.sound.mem_listed ho))
    · exact htold hi hframe
  | input frameNumber =>
    cases hstep
    obtain ⟨calls, hsent, hcalls, -, hresults⟩ := handleInputBuffer_told s.hal frameNumber
    refine h.kept hinv hmarked rfl hsent (fun c hc => ?_) fun j hj => .inl (hresults ▸ hj)
    obtain ⟨i, hi, -, hframe, -⟩ := hcalls c hc
    exact htold hi hframe
  | flush => exact absurd trivial hu

theorem Steady.results_ne (h : s.Steady) {req : CaptureRequest} (hreq : req ∈ s.taken)
    (hlive : req.inputBuffer = none) :
    ∀ j ∈ s.hal.mPendingReprocessResultList, j.frameNumber ≠ req.frameNumber := by
  intro j hj
  obtain ⟨req', hreq', hframe, hreproc⟩ := h.held j hj
  exact hframe ▸ h.invariant.frame_ne hreq hreq' hlive hreproc

theorem Steady.pending_ne (h : s.Steady) {req : CaptureRequest} (hreq : req ∈ s.taken)
    (hlive : req.inputBuffer = none) (hsettled : req.frameNumber ∈ s.settled) :
    ∀ i ∈ s.hal.mPendingRequestsList, i.frameNumber ≠ req.frameNumber := by
  intro i hi hframe
  cases hinput : i.inputBuffer with
  | none =>
    refine h.marked.unsettled (ledgerReq i) (mem_map.mpr ⟨i, hi, rfl⟩) ?_ ?_
    · simp [ledgerReq, hinput]
    · exact (congrArg (· ∈ s.settled) hframe).mpr hsettled
  | some b =>
    obtain ⟨req', hreq', hsame, hkind⟩ := h.invariant.taken_of_pending hi
    rw [hinput] at hkind
    exact h.invariant.frame_ne hreq hreq' hlive hkind (hsame.trans hframe)

end CaptureState

end Marlin
