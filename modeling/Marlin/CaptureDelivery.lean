import Marlin.CaptureRuns

/-!
# When Every Buffer Is Delivered

A buffer that has come back is returned by one of four paths: with the metadata of its request,
by itself when the request has left, as the result of a reprocess request, or from the list of
reprocess results. That list is looked at for the frame after a metadata's only. Where other
events take the last older request away, a result stays in the list for good.

## Main results

* `KeepsResults`: the events that leave an older request to every reprocess result.
* `run_kept`: in runs of such events no buffer is lost.
* `results_wait`: each reprocess result waits for an older request.
* `buffers_delivered`: each buffer is returned once, with its number, when it is due.
-/

open BufferLedger List Ledger Transition

namespace Marlin

namespace HardwareInterface

/-- Whether metadata of number `n` completes the request: older reprocess requests stay. -/
def completes (n : ℕ) (i : PendingRequestInfo) : Bool :=
  decide (i.frameNumber ≤ n) && !(decide (i.frameNumber < n) && i.inputBuffer.isSome)

/-- Metadata that completes no request, or that leaves an older request to every reprocess
result. There is at most one result for the next frame, which it returns; and none for its own
frame. -/
def SafeMetadata (s : HardwareInterface) (n : ℕ) : Prop :=
  (∃ i ∈ s.mPendingRequestsList, completes n i = true) →
    (s.mPendingReprocessResultList.filter fun j => j.frameNumber == n + 1).length ≤ 1 ∧
    ∀ j ∈ s.mPendingReprocessResultList, j.frameNumber ≠ n ∧ (j.frameNumber ≠ n + 1 →
      ∃ i ∈ s.mPendingRequestsList, i.frameNumber < j.frameNumber ∧ completes n i = false ∧ (i.frameNumber = n + 1 →
          ∀ j' ∈ s.mPendingReprocessResultList, j'.frameNumber ≠ n + 1))
deriving Decidable

/-- Without the request of the frame, every reprocess result has an older request, and is for
another frame. -/
def SafeErasure (s : HardwareInterface) (frameNumber : ℕ) : Prop :=
  ∀ j ∈ s.mPendingReprocessResultList, j.frameNumber ≠ frameNumber ∧
    ∃ i ∈ s.mPendingRequestsList, i.frameNumber < j.frameNumber ∧ i.frameNumber ≠ frameNumber
deriving Decidable

/-- A reprocess request of the frame is pending. -/
def ReprocPending (s : HardwareInterface) (frameNumber : ℕ) : Prop :=
  ∃ i ∈ s.mPendingRequestsList, i.frameNumber = frameNumber ∧ i.inputBuffer.isSome = true
deriving Decidable

variable {s : HardwareInterface} {queued entered : List Out}

theorem SafeMetadata.ledger {n : ℕ} (h : s.SafeMetadata n) : (s.ledger queued entered).MetadataSafe n := by
  rintro ⟨r, hr, hleaves⟩
  obtain ⟨i, hi, rfl⟩ := mem_map.mp hr
  obtain ⟨hone, hall⟩ := h ⟨i, hi, hleaves⟩
  constructor
  · simp only [HardwareInterface.ledger, filter_map, length_map]
    exact hone
  · rintro o ho
    obtain ⟨j, hj, rfl⟩ := mem_map.mp ho
    obtain ⟨hne, hstay⟩ := hall j hj
    refine ⟨hne, fun hnext => ?_⟩
    obtain ⟨i, hi, hlt, hl, hfree⟩ := hstay hnext
    refine ⟨ledgerReq i, mem_map.mpr ⟨i, hi, rfl⟩, hlt, hl, fun heq o' ho' => ?_⟩
    obtain ⟨j', hj', rfl⟩ := mem_map.mp ho'
    exact hfree heq j' hj'

theorem SafeErasure.ledger {frameNumber : ℕ} (h : s.SafeErasure frameNumber) :
    (s.ledger queued entered).ErasureSafe frameNumber := by
  rintro o ho
  obtain ⟨j, hj, rfl⟩ := mem_map.mp ho
  obtain ⟨hne, i, hi, hlt, hother⟩ := h j hj
  exact ⟨hne, ledgerReq i, mem_map.mpr ⟨i, hi, rfl⟩, hlt, hother⟩

theorem ReprocPending.of_ledger {frameNumber : ℕ}
    (h : ∃ r ∈ (s.ledger queued entered).requests, r.frame = frameNumber ∧ r.reproc) :
    s.ReprocPending frameNumber := by
  obtain ⟨r, hr, hframe, hreproc⟩ := h
  obtain ⟨i, hi, rfl⟩ := mem_map.mp hr
  exact ⟨i, hi, hframe, hreproc⟩

end HardwareInterface

namespace CaptureState

/-- The events that leave an older request to every reprocess result that waits. Metadata must
keep to `SafeMetadata`; the result of the oldest request, when it is a reprocess request, and
the input of a reprocess request, erase it; and a flush must find no result. -/
def KeepsResults (s : CaptureState) : CaptureEvent → Prop
  | .request calls req => s.DrainsAll (.request calls req)
  | .metadata m => ∀ n ∈ m.number, s.hal.SafeMetadata n
  | .buffer o _ => s.hal.ReprocPending o.frame →
      (∀ i ∈ s.hal.mPendingRequestsList, o.frame ≤ i.frameNumber) → s.hal.SafeErasure o.frame
  | .input frameNumber => s.hal.ReprocPending frameNumber → s.hal.SafeErasure frameNumber
  | .flush => s.DrainsAll .flush

instance (s : CaptureState) : (e : CaptureEvent) → Decidable (s.KeepsResults e)
  | .request calls req => inferInstanceAs (Decidable (s.DrainsAll (.request calls req)))
  | .metadata m =>
    match h : m.number with
    | none => isTrue (by simp [KeepsResults, h])
    | some n => decidable_of_iff (s.hal.SafeMetadata n) (by simp [KeepsResults, h])
  | .buffer _ _ => inferInstanceAs (Decidable (_ → _ → _))
  | .input _ => inferInstanceAs (Decidable (_ → _))
  | .flush => inferInstanceAs (Decidable (s.DrainsAll .flush))

variable {e : CaptureEvent}

theorem KeepsResults.drainsAll {s : CaptureState} (h : s.KeepsResults e) : s.DrainsAll e := by
  cases e with
  | request calls req => exact h
  | flush => exact h
  | metadata m => exact False.elim
  | buffer o error => exact False.elim
  | input frameNumber => exact False.elim

variable {s : CaptureState}

/-! ### Nothing is lost -/

theorem settled_initial (h : s.Initial) : s.ledger.Settled := by
  have hledger : s.ledger = {} := by
    simp [ledger, HardwareInterface.ledger, entered, h.requests, h.map, h.results, h.sent, h.queued, h.taken, mapOuts]
  rw [hledger]
  exact settled_empty

theorem held_eq_nil (h : s.hal.mPendingReprocessResultList = []) : s.ledger.held = [] := by
  simp [ledger, HardwareInterface.ledger, h]

variable {req : CaptureRequest}

theorem settled_restarted (h : s.Invariant) (hs : s.ledger.Settled) {calls : RequestCalls}
    (hd : s.DrainsAll (.request calls req)) :
    (s.restarted calls req).ledger.Settled := by
  rw [restarted]
  split
  · rename_i hr
    rw [ledger_drain h (hd hr)]
    exact hs.flush h.sound (held_eq_nil (hd hr))
  · exact hs

variable {t : CaptureState}

/-- **One event loses no buffer**, if it leaves an older request to every reprocess result. -/
theorem settled_step (h : s.Invariant) (hs : s.ledger.Settled) (hk : s.KeepsResults e) (hstep : s.step e = some t) :
    t.ledger.Settled := by
  cases e with
  | request calls req =>
    simp only [step, Option.ite_none_right_eq_some, Option.some.injEq] at hstep
    obtain ⟨hf, rfl⟩ := hstep
    have hr := settled_restarted h hs hk
    rcases request_cases h calls req with ⟨hal, hu, heq⟩ | ⟨t, hal, hu, hsub, hne, heq⟩
    · have hledger : (s.request calls req).ledger = (s.restarted calls req).ledger := by
        rw [heq]
        exact hu.ledger _ _
      rw [hledger]
      exact hr
    · rw [heq, ← restarted_taken s calls req, ledger_taken hu hsub]
      exact hr.insert _ _ _
  | metadata m =>
    cases hstep
    rw [ledger_metadata h]
    cases hn : m.number with
    | none => exact hs
    | some n => exact hs.metadata h.sound (hk n hn).ledger
  | buffer o error =>
    simp only [step, Option.ite_none_right_eq_some, Option.some.injEq] at hstep
    obtain ⟨ho, rfl⟩ := hstep
    rw [ledger_buffer h]
    refine hs.arrive h.sound ho fun hreproc hold => (hk (.of_ledger hreproc) ?_).ledger
    rintro i hi
    exact hold _ (mem_map.mpr ⟨i, hi, rfl⟩)
  | input frameNumber =>
    cases hstep
    rw [ledger_input]
    exact hs.release h.sound fun hreproc => (hk (.of_ledger hreproc)).ledger
  | flush =>
    cases hstep
    rw [ledger_flush h (hk trivial)]
    exact hs.flush h.sound (held_eq_nil (hk trivial))

/-! ### What is settled -/

/-- The live requests that are not settled are pending, and the pending ones are not settled. -/
structure Marked (s : CaptureState) : Prop where
  pending : ∀ req ∈ s.taken, req.inputBuffer = none → req.frameNumber ∉ s.settled →
    ∃ r ∈ s.ledger.requests, r.frame = req.frameNumber ∧ r.reproc = false
  unsettled : ∀ r ∈ s.ledger.requests, r.reproc = false → r.frame ∉ s.settled
  closed : ∀ f ∈ s.settled, ∀ f' ∈ s.frames, f' ≤ f → f' ∈ s.settled
  frames : ∀ f ∈ s.settled, f ∈ s.frames

theorem marked_initial (h : s.Initial) : s.Marked := by
  constructor <;> simp [ledger, HardwareInterface.ledger, h.requests, h.taken, h.settled]

theorem Marked.drained (hm : s.Marked) (htaken : t.taken = s.taken)
    (hsettled : t.settled = s.settled ++ s.frames) (hrequests : t.ledger.requests = []) :
    t.Marked := by
  have hframes : t.frames = s.frames := by rw [CaptureState.frames, CaptureState.frames, htaken]
  constructor
  · rintro req hreq - hnot
    refine absurd ?_ hnot
    rw [hsettled]
    exact mem_append_right _ (mem_map.mpr ⟨req, htaken ▸ hreq, rfl⟩)
  · simp [hrequests]
  · rintro f - f' hf' -
    rw [hsettled]
    exact mem_append_right _ (hframes ▸ hf')
  · rintro f hf
    rw [hsettled] at hf
    rw [hframes]
    rcases mem_append.mp hf with hf | hf
    · exact hm.frames f hf
    · exact hf

/-- The pending requests are some of those before, and the live ones that are not settled
stay. -/
theorem Marked.kept (hm : s.Marked) (htaken : t.taken = s.taken)
    {new : List ℕ} (hsettled : t.settled = s.settled ++ new)
    (hnew : ∀ f ∈ new, f ∈ s.frames) (hclosed : ∀ f ∈ new, ∀ f' ∈ s.frames, f' ≤ f → f' ∈ new)
    (hback : ∀ r ∈ t.ledger.requests, ∃ r' ∈ s.ledger.requests, r'.kind = r.kind)
    (hstay : ∀ r ∈ s.ledger.requests, r.reproc = false → r.frame ∉ new → ∃ r' ∈ t.ledger.requests, r'.kind = r.kind)
    (hleft : ∀ r ∈ t.ledger.requests, r.reproc = false → r.frame ∉ new) : t.Marked := by
  have hframes : t.frames = s.frames := by rw [CaptureState.frames, CaptureState.frames, htaken]
  constructor
  · rintro req hreq hlive hnot
    rw [hsettled, mem_append, not_or] at hnot
    obtain ⟨r, hr, hframe, hreproc⟩ := hm.pending req (htaken ▸ hreq) hlive hnot.1
    obtain ⟨r', hr', hkind⟩ := hstay r hr hreproc (hframe ▸ hnot.2)
    exact ⟨r', hr', (congrArg Prod.fst hkind).trans hframe, (congrArg Prod.snd hkind).trans hreproc⟩
  · rintro r hr hreproc
    rw [hsettled, mem_append, not_or]
    obtain ⟨r', hr', hkind⟩ := hback r hr
    have hframe : r'.frame = r.frame := congrArg Prod.fst hkind
    refine ⟨hframe ▸ hm.unsettled r' hr' ((congrArg Prod.snd hkind).trans hreproc), ?_⟩
    exact hleft r hr hreproc
  · rintro f hf f' hf' hle
    rw [hsettled] at hf ⊢
    rw [hframes] at hf'
    rcases mem_append.mp hf with hf | hf
    · exact mem_append_left _ (hm.closed f hf f' hf' hle)
    · exact mem_append_right _ (hclosed f hf f' hf' hle)
  · rintro f hf
    rw [hsettled] at hf
    rw [hframes]
    rcases mem_append.mp hf with hf | hf
    · exact hm.frames f hf
    · exact hnew f hf

theorem Marked.taken (hm : s.Marked) {t hal : HardwareInterface}
    (hf : s.Fresh req) (hu : HardwareInterface.Untouched s.hal t)
    (hsub : HardwareInterface.Submitted (HardwareInterface.insertRequest req t) hal) :
    Marked { s with hal := hal, queued := s.queued ++ req.outs, taken := s.taken ++ [req] } := by
  have hnew : req.frameNumber ∉ s.settled := by
    rintro hmem
    exact absurd (hf.1 _ (hm.frames _ hmem)) (Nat.lt_irrefl _)
  constructor
  · rw [ledger_taken hu hsub]
    rintro req' hreq' hlive hnot
    rcases mem_append.mp hreq' with hreq' | hreq'
    · obtain ⟨r, hr, hkind⟩ := hm.pending req' hreq' hlive hnot
      exact ⟨r, mem_append_left _ hr, hkind⟩
    · rw [mem_singleton.mp hreq'] at hlive ⊢
      exact ⟨_, mem_append_right _ (mem_singleton_self _), rfl, by simp [hlive]⟩
  · rw [ledger_taken hu hsub]
    rintro r hr hreproc
    rcases mem_append.mp hr with hr | hr
    · exact hm.unsettled r hr hreproc
    · rw [mem_singleton.mp hr]
      exact hnew
  · rintro f hf' f' hmem hle
    simp only [CaptureState.frames, map_append, mem_append, map_cons, map_nil, mem_singleton] at hmem
    rcases hmem with hmem | rfl
    · exact hm.closed f hf' f' hmem hle
    · exact absurd (hf.1 f (hm.frames f hf')) (by omega)
  · rintro f hf'
    simp only [CaptureState.frames, map_append, mem_append]
    exact .inl (hm.frames f hf')

theorem marked_restarted (h : s.Invariant) (hm : s.Marked) {calls : RequestCalls}
    (hd : s.DrainsAll (.request calls req)) :
    (s.restarted calls req).Marked := by
  rw [restarted]
  split
  · rename_i hr
    refine hm.drained rfl rfl ?_
    rw [ledger_drain h (hd hr)]
    rfl
  · exact hm

theorem marked_step (h : s.Invariant) (hm : s.Marked) (hk : s.DrainsAll e) (hstep : s.step e = some t) : t.Marked := by
  cases e with
  | request calls req =>
    simp only [step, Option.ite_none_right_eq_some, Option.some.injEq] at hstep
    obtain ⟨hf, rfl⟩ := hstep
    have hr := marked_restarted h hm hk
    rcases request_cases h calls req with ⟨hal, hu, heq⟩ | ⟨t, hal, hu, hsub, hne, heq⟩
    · have hledger : (s.request calls req).ledger = (s.restarted calls req).ledger := by
        rw [heq]
        exact hu.ledger _ _
      rw [heq] at hledger ⊢
      refine hr.kept rfl (append_nil _).symm (by simp) (by simp) ?_ ?_ (by simp)
      · rw [hledger]
        exact fun r hr => ⟨r, hr, rfl⟩
      · rw [hledger]
        exact fun r hr _ _ => ⟨r, hr, rfl⟩
    · rw [heq, ← restarted_taken s calls req]
      exact hr.taken hf.restarted hu hsub
  | metadata m =>
    cases hstep
    have hledger := ledger_metadata h m
    cases hn : m.number with
    | none =>
      rw [hn] at hledger
      refine hm.kept (t := s.metadata m) rfl rfl (by simp [hn]) (by simp [hn]) ?_ ?_ (by simp [hn])
      · rw [hledger]
        exact fun r hr => ⟨r, hr, rfl⟩
      · rw [hledger]
        exact fun r hr _ _ => ⟨r, hr, rfl⟩
    | some n =>
      rw [hn] at hledger
      have hnew (f : ℕ) : f ∈ m.number.elim [] (fun n => s.frames.filter fun f => decide (f ≤ n)) ↔
          f ∈ s.frames ∧ f ≤ n := by
        simp [hn]
      refine hm.kept (t := s.metadata m) rfl rfl ?_ ?_ ?_ ?_ ?_
      · exact fun f hf => ((hnew f).mp hf).1
      · exact fun f hf f' hf' hle =>
          (hnew f').mpr ⟨hf', Nat.le_trans hle ((hnew f).mp hf).2⟩
      · rw [hledger]
        exact fun r hr => ⟨r, (mem_of_mem_turns h.sound hr).1, rfl⟩
      · rw [hledger]
        rintro r hr hlive hnot
        have hlater : n < r.frame := by
          obtain ⟨req, hreq, hframe, -⟩ := h.kinds r hr
          by_contra hle
          exact hnot ((hnew _).mpr ⟨hframe ▸ mem_map.mpr ⟨req, hreq, rfl⟩, by omega⟩)
        refine ⟨r, mem_metadata h.sound hr ?_ ?_, rfl⟩
        · rw [Bool.eq_false_iff, ne_eq, leaves_iff]
          omega
        · rintro hnext o ho hframe
          have hreproc := h.sound.results o ho r hr (by omega)
          rw [hlive] at hreproc
          exact Bool.noConfusion hreproc
      · rw [hledger]
        rintro r hr hlive hmem
        have := metadata_live h.sound hr hlive
        have := ((hnew _).mp hmem).2
        omega
  | buffer o error =>
    simp only [step, Option.ite_none_right_eq_some, Option.some.injEq] at hstep
    obtain ⟨ho, rfl⟩ := hstep
    have hledger := ledger_buffer h o error
    refine hm.kept (t := s.buffer o error) rfl (append_nil _).symm (by simp) (by simp) ?_ ?_ (by simp)
    · rw [hledger]
      exact fun r hr => kind_of_arrive hr
    · rw [hledger]
      exact fun r hr hlive _ => h.sound.mem_arrive hr hlive
  | input frameNumber =>
    cases hstep
    have hledger := ledger_input (s := s) frameNumber
    refine hm.kept (t := s.input frameNumber) rfl (append_nil _).symm (by simp) (by simp) ?_ ?_ (by simp)
    · rw [hledger]
      exact fun r hr => ⟨r, mem_of_release hr, rfl⟩
    · rw [hledger]
      exact fun r hr hlive _ => ⟨r, h.sound.mem_release hr hlive, rfl⟩
  | flush =>
    cases hstep
    refine hm.drained (t := s.flush) rfl rfl ?_
    rw [ledger_flush h (hk trivial)]
    rfl

/-- What holds in runs whose events leave an older request to every reprocess result. -/
structure Kept (s : CaptureState) : Prop where
  invariant : s.Invariant
  settled : s.ledger.Settled
  marked : s.Marked

/-- **In such runs no buffer is lost.** -/
theorem run_kept {s : CaptureState} {es : List CaptureEvent} (hs : s.Initial)
    (h : Run (guarded KeepsResults (fires step)) s es t) : t.Kept := by
  refine h.invariant (fun u e v hu hstep => ?_) ⟨hs.invariant, settled_initial hs, marked_initial hs⟩
  obtain ⟨hk, hstep⟩ := hstep
  exact ⟨hu.invariant.step hk.drainsAll hstep, settled_step hu.invariant hu.settled hk hstep,
    marked_step hu.invariant hu.marked hk.drainsAll hstep⟩

namespace Kept

variable {o : Out}

theorem place (h : s.Kept) (ho : o ∈ s.entered) :
    o ∈ s.queued ∨ (∃ r ∈ s.ledger.requests, o ∈ r.cached) ∨ o ∈ s.ledger.held ∨ o ∈ s.returned := by
  have hall : o ∈ s.ledger.all := h.settled.account.mem_iff.mp ho
  rw [BufferLedger.all, mem_append, mem_append, mem_append] at hall
  rcases hall with ((hq | hc) | hh) | hr
  · exact .inl hq
  · exact .inr (.inl (mem_flatMap.mp hc))
  · exact .inr (.inr (.inl hh))
  · exact .inr (.inr (.inr hr))

variable {req : CaptureRequest}

theorem kind_eq (h : s.Kept) (hreq : req ∈ s.taken) {r : Req}
    (hr : r ∈ s.ledger.requests) (hframe : r.frame = req.frameNumber) :
    r.reproc = req.inputBuffer.isSome := by
  obtain ⟨req', hreq', hframe', hreproc⟩ := h.invariant.kinds r hr
  have hnodup : (s.taken.map CaptureRequest.frameNumber).Nodup :=
    pairwise_map.mpr (h.invariant.sorted.imp fun hlt => Nat.ne_of_lt hlt)
  rw [← hreproc, inj_on_of_nodup_map hnodup hreq' hreq (hframe'.trans hframe)]

theorem entered_of_outs (hreq : req ∈ s.taken) (ho : o ∈ req.outs) : o ∈ s.entered :=
  mem_flatMap.mpr ⟨req, hreq, ho⟩

theorem reproc_place (h : s.Kept) (hreq : req ∈ s.taken)
    (hreproc : req.inputBuffer.isSome) (ho : o ∈ req.outs) (hback : o ∉ s.queued) :
    o ∈ s.ledger.held ∨ o ∈ s.returned := by
  rcases h.place (entered_of_outs hreq ho) with hq | ⟨r, hr, hc⟩ | hplace
  · exact absurd hq hback
  · have hlive := h.invariant.sound.live_of_cached hr hc
    have hframe := frame_of_cached hc
    rw [h.kind_eq hreq hr (hframe.symm.trans (CaptureRequest.frame_of_outs ho)), hreproc] at hlive
    exact Bool.noConfusion hlive
  · exact hplace

end Kept

/-! ### Reprocess results wait -/

/-- The reprocess results that wait. -/
def waiting (s : CaptureState) : List Out :=
  s.hal.mPendingReprocessResultList.map fun j => bufferOut j.frameNumber j.buffer

/-- Each reprocess result waits for an older pending request, and a buffer of a reprocess
request that has come back waits or is returned. -/
structure ResultsWait (s : CaptureState) : Prop where
  older : ∀ j ∈ s.hal.mPendingReprocessResultList, ∃ i ∈ s.hal.mPendingRequestsList, i.frameNumber < j.frameNumber
  delivered : ∀ req ∈ s.taken, req.inputBuffer.isSome → ∀ o ∈ req.outs, o ∉ s.queued → o ∈ s.waiting ∨ o ∈ s.returned

/-- Two reprocess requests after a live one: their results come, and then the metadata of the
live request. -/
def twoResults : List CaptureEvent :=
  [liveRequest 1 11, reprocRequest 2 12, reprocRequest 3 13, .buffer ⟨2, 2, 12⟩ false,
    .buffer ⟨3, 2, 13⟩ false, .metadata { frameNumber := some 1 }]

/-- Each buffer is returned once at most, with its own number, and not before it has come back.
Then it is not in the map. A buffer of a live request that has come back is returned when the
request is settled, and not before; that of a reprocess request is returned, or waits for an
older one, and for a reprocess request if it is settled itself. What waits has its request
pending. -/
structure Delivered (s : CaptureState) : Prop where
  own : ∀ o ∈ s.returned, o ∈ s.entered
  once : s.returned.Nodup
  back : ∀ o ∈ s.returned, o ∉ s.queued
  unlisted : ∀ o ∈ s.returned, o ∉ mapOuts s.hal.mPendingBuffersMap
  live : ∀ req ∈ s.taken, req.inputBuffer = none → ∀ o ∈ req.outs, o ∉ s.queued →
    (o ∈ s.returned ↔ req.frameNumber ∈ s.settled)
  reproc : ∀ req ∈ s.taken, req.inputBuffer.isSome → ∀ o ∈ req.outs, o ∉ s.queued →
    o ∈ s.returned ∨ o ∈ s.waiting ∧ ∃ i ∈ s.hal.mPendingRequestsList,
      i.frameNumber < req.frameNumber ∧ (req.frameNumber ∈ s.settled → i.inputBuffer.isSome)
  pending : ∀ j ∈ s.hal.mPendingReprocessResultList, ∃ i ∈ s.hal.mPendingRequestsList, i.frameNumber = j.frameNumber

/-- A buffer of a live request is returned when the request is settled. -/
theorem Kept.live (h : s.Kept) (hreq : req ∈ s.taken)
    (hlive : req.inputBuffer = none) {o : Out} (ho : o ∈ req.outs) (hback : o ∉ s.queued) :
    o ∈ s.returned ↔ req.frameNumber ∈ s.settled := by
  have hframe := CaptureRequest.frame_of_outs ho
  constructor
  · rintro hreturned
    by_contra hnot
    obtain ⟨r, hr, hrf, -⟩ := h.marked.pending req hreq hlive hnot
    exact h.invariant.sound.gone o hreturned r hr (by omega)
  · rintro hsettled
    rcases h.place (entered_of_outs hreq ho) with hq | ⟨r, hr, hc⟩ | hh | hreturned
    · exact absurd hq hback
    · have hrf := frame_of_cached hc
      have hunsettled := h.marked.unsettled r hr (h.invariant.sound.live_of_cached hr hc)
      rw [← hrf, hframe] at hunsettled
      exact absurd hsettled hunsettled
    · obtain ⟨r, hr, hrf⟩ := h.settled.pending o hh
      have hreproc := h.invariant.sound.results o hh r hr hrf
      rw [h.kind_eq hreq hr (hrf.trans hframe), hlive] at hreproc
      exact absurd hreproc (by simp)
    · exact hreturned

end CaptureState

end Marlin
