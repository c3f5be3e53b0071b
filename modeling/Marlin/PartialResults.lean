import Marlin.SteadyRuns

/-!
# Partial Results

The result of a live request may come in parts: `PARTIAL_RESULT_COUNT` of them, of which the last
one has the metadata of the frame. `handleMetadataWithLock` counts the parts of each pending request:
when urgent metadata of a later frame shows that its own was missed, when its urgent metadata comes,
and when its normal metadata does. Only the first and the second are guarded, by two different
flags, and what a request without any urgent metadata gets is no last part.

## Conventions

* The log of a frame is what the framework was told of it. The shutter of a live frame is sent with
  its normal metadata, so that the result after it is the one with the final metadata.
* A run is of requests and callbacks. A flush, or a restart of the sensor, gives the requests up with
  errors of its own.

## Main results

* `Counted.urgentEntry`, `Counted.answered`: what the two parts of `handleMetadataWithLock` say of a
  request.
* `partials_run`: in a run of metadata that keeps to the protocol, every frame whose metadata has
  come is answered once, and the parts of its result are counted up.
-/

open Option List Ledger Transition

namespace Marlin

/-! ### What the framework is told of a frame -/

/-- What the framework was told of a frame: whether of its shutter, the counters of its results with
metadata, how many of them are the last part with the final metadata, and how many errors of the
result there are. -/
structure FrameLog where
  shutter : Bool := false
  values : List ℕ := []
  finals : ℕ := 0
  errors : ℕ := 0
  deriving DecidableEq

/-- A call to the framework. -/
def FrameLog.add (f : ℕ) (log : FrameLog) : Callback → FrameLog
  | .shutter n => if n = f then { log with shutter := true } else log
  | .errorResult n => if n = f then { log with errors := log.errors + 1 } else log
  | .result r =>
    if r.frameNumber = f ∧ r.metadata then
      { log with
        values := log.values ++ [r.partialResult]
        finals := if log.shutter ∧ r.partialResult = partialResultCount then log.finals + 1
          else log.finals }
    else log
  | _ => log

/-- What the framework was told of a frame. -/
def frameLog (f : ℕ) (sent : List Callback) : FrameLog := sent.foldl (FrameLog.add f) {}

theorem frameLog_append (f : ℕ) (sent calls : List Callback) :
    frameLog f (sent ++ calls) = calls.foldl (FrameLog.add f) (frameLog f sent) :=
  foldl_append

variable {f : ℕ}

theorem FrameLog.add_other {c : Callback} (h : c.frame ≠ some f) (log : FrameLog) : log.add f c = log := by
  cases c with
  | result r => exact if_neg fun hr => h (congrArg some hr.1)
  | shutter n => exact if_neg fun hn => h (congrArg some hn)
  | errorResult n => exact if_neg fun hn => h (congrArg some hn)
  | errorDevice => rfl
  | errorRequest n => rfl
  | errorBuffer n stream => rfl

theorem FrameLog.foldl_quiet {calls : List Callback}
    (h : ∀ c ∈ calls, ∀ log : FrameLog, log.add f c = log) (log : FrameLog) :
    calls.foldl (FrameLog.add f) log = log := by
  induction calls generalizing log with
  | nil => rfl
  | cons c calls ih =>
    rw [foldl_cons, h c mem_cons_self]
    exact ih (fun c hc => h c (mem_cons_of_mem _ hc)) log

theorem FrameLog.foldl_other {calls : List Callback} (h : ∀ c ∈ calls, c.frame ≠ some f)
    (log : FrameLog) : calls.foldl (FrameLog.add f) log = log :=
  foldl_quiet (fun c hc => add_other (h c hc)) log

theorem FrameLog.foldl_errorBuffer (f n : ℕ) (streams : List ℕ) (log : FrameLog) :
    (streams.map (Callback.errorBuffer n)).foldl (FrameLog.add f) log = log := by
  refine foldl_quiet (fun c hc log => ?_) log
  obtain ⟨stream, -, rfl⟩ := mem_map.mp hc
  rfl

/-- A frame whose metadata has come got one answer: the last part of its result, with the final
metadata, or an error. The counters of the parts go up. -/
structure FrameLog.Answered (log : FrameLog) : Prop where
  once : log.finals + log.errors = 1
  increasing : log.values.Pairwise (· < ·)
  bound : ∀ v ∈ log.values, v ≤ partialResultCount

namespace HardwareInterface

/-! ### What the parts say of a request -/

section Log

variable {s : HardwareInterface} {m : MetadataInfo} {n f : ℕ}

theorem log_metadataEntry (i : PendingRequestInfo) (hf : ∀ j ∈ s.mPendingReprocessResultList, j.frameNumber ≠ f) :
    frameLog f (s.metadataEntry m n i).sent =
      (if Stays n i then [] else resultCalls n (counted i) (s.takenBuffers m n i)).foldl
        (FrameLog.add f) (frameLog f s.sent) := by
  obtain ⟨calls, hsent, hcalls⟩ := sent_metadataEntry s m n i
  rw [hsent, frameLog_append, frameLog_append, frameLog_append, FrameLog.foldl_errorBuffer]
  refine FrameLog.foldl_other (fun c hc => ?_) _
  obtain ⟨j, hj, hframe⟩ := (hcalls c hc).1
  rw [hframe]
  exact fun heq => hf j hj (some.inj heq)

theorem log_metadataEntry_other {i : PendingRequestInfo} (hi : i.frameNumber ≠ f)
    (hf : ∀ j ∈ s.mPendingReprocessResultList, j.frameNumber ≠ f) :
    frameLog f (s.metadataEntry m n i).sent = frameLog f s.sent := by
  rw [log_metadataEntry i hf]
  refine FrameLog.foldl_other (fun c hc => ?_) _
  split at hc
  · cases hc
  · rw [frame_resultCalls hc]
    exact fun heq => hi (some.inj heq)

theorem log_metadataTurns_other {l : List PendingRequestInfo} (hl : ∀ i ∈ l, i.frameNumber ≠ f)
    (hf : ∀ j ∈ s.mPendingReprocessResultList, j.frameNumber ≠ f) :
    frameLog f (metadataTurns m n l s).sent = frameLog f s.sent := by
  induction l generalizing s with
  | nil => rfl
  | cons i l ih =>
    have hrest := ih (s := s.metadataEntry m n i) (fun k hk => hl k (mem_cons_of_mem _ hk))
      fun j hj => hf j (results_metadataEntry s m n i hj)
    exact hrest.trans (log_metadataEntry_other (hl i mem_cons_self) hf)

theorem log_metadataTurns {l : List PendingRequestInfo} {i : PendingRequestInfo}
    (hl : l.Pairwise fun i k => i.frameNumber < k.frameNumber) (hi : i ∈ l) (hstays : ¬ Stays n i)
    (hf : ∀ j ∈ s.mPendingReprocessResultList, j.frameNumber ≠ i.frameNumber) :
    ∃ bs, (bs = [] ↔ cachedBuffers i = []) ∧ frameLog i.frameNumber (metadataTurns m n l s).sent =
        (resultCalls n (counted i) bs).foldl (FrameLog.add i.frameNumber) (frameLog i.frameNumber s.sent) := by
  obtain ⟨front, back, rfl⟩ := append_of_mem hi
  obtain ⟨-, hback, hfront⟩ := pairwise_append.mp hl
  let t := metadataTurns m n front s
  have hturns : metadataTurns m n (front ++ i :: back) s =
      metadataTurns m n back (t.metadataEntry m n i) := foldl_append
  have ht (j : PendingReprocessResult) (hj : j ∈ t.mPendingReprocessResultList) :
      j.frameNumber ≠ i.frameNumber := hf j (results_metadataTurns s m n front hj)
  refine ⟨t.takenBuffers m n i, takenBuffers_eq_nil, ?_⟩
  rw [hturns, log_metadataTurns_other, log_metadataEntry i ht, if_neg hstays]
  · have hbefore : frameLog i.frameNumber t.sent = frameLog i.frameNumber s.sent := by
      refine log_metadataTurns_other (fun k hk => ?_) hf
      have := hfront k hk i mem_cons_self
      omega
    rw [hbefore]
  · intro k hk
    have := (pairwise_cons.mp hback).1 k hk
    omega
  · exact fun j hj => ht j (results_metadataEntry t m n i hj)

end Log

variable {m : MetadataInfo} {i : PendingRequestInfo}

theorem log_urgentPart {s : HardwareInterface}
    (hs : s.mPendingRequestsList.Pairwise fun i k => i.frameNumber < k.frameNumber)
    (hi : i ∈ s.mPendingRequestsList) :
    frameLog i.frameNumber (s.urgentPart m).sent =
      (urgentResult m i).foldl (FrameLog.add i.frameNumber) (frameLog i.frameNumber s.sent) := by
  have hother {l : List PendingRequestInfo} (hl : ∀ k ∈ l, k.frameNumber ≠ i.frameNumber) :
      ∀ c ∈ l.flatMap (urgentResult m), c.frame ≠ some i.frameNumber := by
    intro c hc
    obtain ⟨k, hk, hc⟩ := mem_flatMap.mp hc
    rw [(mem_urgentResult hc).1]
    exact fun heq => hl k hk (some.inj heq)
  rw [urgentPart_eq m hs]
  obtain ⟨front, back, heq⟩ := append_of_mem hi
  rw [heq] at hs ⊢
  obtain ⟨-, hback, hfront⟩ := pairwise_append.mp hs
  rw [flatMap_append, flatMap_cons, ← append_assoc, ← append_assoc, frameLog_append, frameLog_append, frameLog_append,
    FrameLog.foldl_other (hother fun k hk => ?_), FrameLog.foldl_other (hother fun k hk => ?_)]
  · have := hfront k hk i mem_cons_self
    omega
  · have := (pairwise_cons.mp hback).1 k hk
    omega

theorem log_urgentPart_other {s : HardwareInterface} {f : ℕ}
    (hs : s.mPendingRequestsList.Pairwise fun i k => i.frameNumber < k.frameNumber)
    (hf : ∀ i ∈ s.mPendingRequestsList, i.frameNumber ≠ f) :
    frameLog f (s.urgentPart m).sent = frameLog f s.sent := by
  rw [urgentPart_eq m hs, frameLog_append]
  refine FrameLog.foldl_other (fun c hc => ?_) _
  obtain ⟨i, hi, hc⟩ := mem_flatMap.mp hc
  rw [(mem_urgentResult hc).1]
  exact fun heq => hf i hi (some.inj heq)

/-! ### The counter of a request -/

/-- The counter of a pending request, and what the framework was told of its frame: the partial
result with the urgent metadata, if that has come. -/
structure Counted (i : PendingRequestInfo) (log : FrameLog) : Prop where
  count : i.partialResultCnt = i.partialResultDropped.toNat + i.bUrgentReceived.toNat
  log : log = { values := if i.bUrgentReceived then [i.partialResultDropped.toNat + 1] else [] }

variable {log : FrameLog}

theorem Counted.congr {k : PendingRequestInfo} (h : Counted i log) (hcnt : k.partialResultCnt = i.partialResultCnt)
    (hdropped : k.partialResultDropped = i.partialResultDropped)
    (hurgent : k.bUrgentReceived = i.bUrgentReceived) : Counted k log := by
  constructor
  · rw [hcnt, hdropped, hurgent]
    exact h.count
  · rw [hdropped, hurgent]
    exact h.log

theorem counted_empty (hcount : i.partialResultCnt = 0)
    (hdropped : i.partialResultDropped = false) (hurgent : i.bUrgentReceived = false) :
    Counted i {} := by
  constructor <;> simp [hcount, hdropped, hurgent]

/-- **Urgent metadata** is counted. -/
theorem Counted.urgent (h : Counted i log) (urgent : ℕ) : Counted (afterUrgent urgent i)
      ((urgentCalls urgent i).foldl (FrameLog.add i.frameNumber) log) := by
  obtain ⟨hcount, hlog⟩ := h
  by_cases hmiss : Misses urgent i
  · have hother : ¬ (i.frameNumber = urgent ∧ i.bUrgentReceived = false) := fun ho => by
      have := hmiss.2.1
      omega
    have hnone : i.bUrgentReceived = false := by
      have := hmiss.2.2
      cases hurgent : i.bUrgentReceived with
      | false => rfl
      | true =>
        rw [hurgent, Bool.toNat_true] at hcount
        omega
    rw [afterUrgent, if_pos hmiss, urgentCalls, if_neg hother]
    exact ⟨by simp [hnone], by simp [hlog, hnone]⟩
  · rw [afterUrgent, if_neg hmiss, urgentCalls]
    split
    · rename_i hown
      refine ⟨by simp [hcount, hown.2], ?_⟩
      simp [FrameLog.add, hlog, hown, hcount]
    · exact ⟨hcount, hlog⟩

/-- **The normal metadata** answers a request: its own after the urgent metadata, which was not
missed; otherwise with an error, if no buffer is cached. -/
theorem Counted.answered (h : Counted i log) {n : ℕ} {bs : List StreamBuffer}
    (hown : i.frameNumber = n → i.partialResultDropped = false → i.bUrgentReceived = true)
    (hother : i.frameNumber ≠ n ∨ i.partialResultDropped = true → bs = []) :
    ((resultCalls n (counted i) bs).foldl (FrameLog.add i.frameNumber) log).Answered := by
  obtain ⟨hcount, hlog⟩ := h
  by_cases herror : i.frameNumber ≠ n ∨ i.partialResultDropped = true
  · obtain rfl := hother herror
    have hcalls : resultCalls n (counted i) [] =
        (if i.frameNumber = n then [.shutter i.frameNumber] else []) ++
          [.errorResult i.frameNumber] := resultCalls_error (i := counted i) herror
    have hend : (resultCalls n (counted i) []).foldl (FrameLog.add i.frameNumber) log =
        { log with shutter := decide (i.frameNumber = n), errors := 1 } := by
      rw [hcalls, hlog]
      by_cases hown : i.frameNumber = n <;> simp [hown, FrameLog.add]
    rw [hend, hlog]
    constructor
    · rfl
    · dsimp only
      split
      · exact pairwise_singleton _ _
      · exact List.Pairwise.nil
    · dsimp only
      split
      · intro v hv
        rw [mem_singleton.mp hv]
        exact Nat.succ_le_succ (Bool.toNat_le _)
      · nofun
  · obtain ⟨hframe, hdropped⟩ := not_or.mp herror
    rw [not_not] at hframe
    rw [Bool.not_eq_true] at hdropped
    have hurgent := hown hframe hdropped
    have hcalls : resultCalls n (counted i) bs = [.shutter i.frameNumber, .result
        { frameNumber := i.frameNumber
          outputBuffers := bs
          inputBuffer := i.inputBuffer
          partialResult := partialResultCount
          metadata := true }] := by
      simp [resultCalls, counted, hframe, hdropped, hcount, hurgent, partialResultCount]
    have hend : (resultCalls n (counted i) bs).foldl (FrameLog.add i.frameNumber) log =
        { shutter := true, values := [1, partialResultCount], finals := 1 } := by
      rw [hcalls, hlog, hurgent, hdropped]
      simp [FrameLog.add]
    rw [hend]
    exact ⟨rfl, by decide, by decide⟩

theorem Counted.increasing (h : Counted i log) :
    log.values.Pairwise (· < ·) ∧ ∀ v ∈ log.values, v ≤ partialResultCount := by
  rw [h.log]
  dsimp only
  split
  · refine ⟨pairwise_singleton _ _, fun v hv => ?_⟩
    rw [mem_singleton.mp hv]
    exact Nat.succ_le_succ (Bool.toNat_le _)
  · exact ⟨List.Pairwise.nil, nofun⟩

theorem Counted.of_bare {k : PendingRequestInfo} (h : Counted i log) (hbare : bare k = bare i) : Counted k log :=
  h.congr (congrArg (·.partialResultCnt) hbare) (congrArg (·.partialResultDropped) hbare)
    (congrArg (·.bUrgentReceived) hbare)

/-! ### The protocol -/

/-- The urgent metadata of the request has come, earlier or with the metadata buffer. -/
def UrgentCame (m : MetadataInfo) (i : PendingRequestInfo) : Prop :=
  i.bUrgentReceived = true ∨ m.urgentNumber = some i.frameNumber
deriving Decidable

/-- The urgent metadata of the request was missed, earlier or with the metadata buffer. -/
def UrgentMissed (m : MetadataInfo) (i : PendingRequestInfo) : Prop :=
  i.partialResultDropped = true ∨ ∃ urgent ∈ m.urgentNumber, Misses urgent i
deriving Decidable

/-- The metadata of a frame finds a live request in the protocol: its own one after the urgent
metadata; one whose urgent metadata was missed, or that misses its normal metadata, without a cached
buffer. -/
def InOrder (m : MetadataInfo) (n : ℕ) (i : PendingRequestInfo) : Prop :=
  (i.frameNumber = n → UrgentMissed m i ∨ UrgentCame m i) ∧
    (i.frameNumber ≠ n ∨ UrgentMissed m i → cachedBuffers i = [])
deriving Decidable

/-- **The urgent part** is counted. -/
theorem Counted.urgentEntry (h : Counted i log) (m : MetadataInfo) : Counted (urgentEntry m i)
      ((urgentResult m i).foldl (FrameLog.add i.frameNumber) log) := by
  rw [HardwareInterface.urgentEntry, urgentResult]
  cases m.urgentNumber with
  | none => exact h
  | some urgent => exact h.urgent urgent

/-- A live request that the metadata finds in the protocol, after the urgent part. -/
theorem InOrder.urgentEntry {n : ℕ} (h : InOrder m n i) :
    (i.frameNumber = n → (urgentEntry m i).partialResultDropped = false → (urgentEntry m i).bUrgentReceived = true) ∧
    (i.frameNumber ≠ n ∨ (urgentEntry m i).partialResultDropped = true → cachedBuffers i = []) := by
  obtain ⟨hcame, hcached⟩ := h
  simp only [UrgentMissed, UrgentCame] at hcame hcached
  rw [HardwareInterface.urgentEntry]
  cases hurgent : m.urgentNumber with
  | none =>
    simp only [hurgent, elim_none, reduceCtorEq, or_false, mem_def, false_and,
      exists_false] at hcame hcached ⊢
    refine ⟨fun hown hdropped => ?_, hcached⟩
    simpa [hdropped] using hcame hown
  | some urgent =>
    simp only [hurgent, elim_some, some.injEq, mem_def,
      exists_eq_left'] at hcame hcached ⊢
    rw [afterUrgent]
    by_cases hmiss : Misses urgent i
    · rw [if_pos hmiss]
      exact ⟨fun _ hdropped => (by cases hdropped), fun _ => hcached (.inr (.inr hmiss))⟩
    · rw [if_neg hmiss]
      simp only [hmiss, or_false] at hcame hcached
      split
      · exact ⟨fun _ _ => rfl, hcached⟩
      · rename_i hother
        refine ⟨fun hown hdropped => ?_, hcached⟩
        rcases hcame hown with hd | hr | hu
        · rw [hdropped] at hd
          cases hd
        · exact hr
        · rw [not_and, Bool.not_eq_false] at hother
          exact hother hu.symm

end HardwareInterface

namespace CaptureState

open HardwareInterface

variable {s t : CaptureState}

/-! ### The protocol of the partial results -/

/-- Metadata of a frame finds the live requests that it settles in the protocol. -/
def InProtocol (s : CaptureState) : CaptureEvent → Prop
  | .metadata m => ∀ n ∈ m.number, ∀ i ∈ s.hal.mPendingRequestsList,
      i.inputBuffer = none → i.frameNumber ≤ n → InOrder m n i
  | _ => True

instance (s : CaptureState) : (e : CaptureEvent) → Decidable (s.InProtocol e)
  | .metadata _ => inferInstanceAs (Decidable (∀ n ∈ _, ∀ i ∈ _, _))
  | .request _ _ | .buffer _ _ | .input _ | .flush => isTrue trivial

/-- What the framework was told of live requests: the pending ones are counted, those whose metadata
has come are answered, and the results without metadata have no counter. -/
structure Partials (s : CaptureState) : Prop where
  pending : ∀ i ∈ s.hal.mPendingRequestsList, i.inputBuffer = none → Counted i (frameLog i.frameNumber s.hal.sent)
  answered : ∀ req ∈ s.taken, req.inputBuffer = none → req.frameNumber ∈ s.settled →
    (frameLog req.frameNumber s.hal.sent).Answered
  blank : ∀ r, .result r ∈ s.hal.sent → r.metadata = false → r.partialResult = 0

theorem partials_initial (h : s.Initial) : s.Partials where
  pending := by
    rw [h.requests]
    nofun
  answered := by
    rw [h.taken]
    nofun
  blank := by
    rw [h.sent]
    nofun

/-- A call that says nothing of the live requests, and has no counter without metadata. -/
structure Quiet (s : CaptureState) (c : Callback) : Prop where
  quiet : ∀ req ∈ s.taken, req.inputBuffer = none → ∀ log : FrameLog, log.add req.frameNumber c = log
  blank : ∀ r, c = .result r → r.metadata = false → r.partialResult = 0

theorem Steady.quiet_reproc (h : s.Steady) {i : PendingRequestInfo}
    (hi : i ∈ s.hal.mPendingRequestsList) (hreproc : i.inputBuffer.isSome) {c : Callback}
    (hc : c.frame = some i.frameNumber) (hmeta : ∀ r, c = .result r → r.metadata = true) :
    s.Quiet c where
  quiet := by
    intro req hreq hlive log
    refine FrameLog.add_other ?_ log
    obtain ⟨req', hreq', hframe, hkind⟩ := h.invariant.taken_of_pending hi
    rw [hc, ← hframe]
    exact fun heq => h.invariant.frame_ne hreq hreq' hlive (hkind.trans hreproc) (some.inj heq)
  blank := by
    intro r hr hblank
    rw [hmeta r hr] at hblank
    cases hblank

theorem Partials.kept (h : s.Partials) (hs : s.Steady) (htaken : t.taken = s.taken)
    (hsettled : t.settled = s.settled) {calls : List Callback}
    (hsent : t.hal.sent = s.hal.sent ++ calls) (hquiet : ∀ c ∈ calls, s.Quiet c)
    (hpending : ∀ k ∈ t.hal.mPendingRequestsList, ∃ i ∈ s.hal.mPendingRequestsList, bare k = bare i) : t.Partials := by
  have hlog {req : CaptureRequest} (hreq : req ∈ s.taken) (hlive : req.inputBuffer = none) :
      frameLog req.frameNumber t.hal.sent = frameLog req.frameNumber s.hal.sent := by
    rw [hsent, frameLog_append]
    exact FrameLog.foldl_quiet (fun c hc => (hquiet c hc).quiet req hreq hlive) _
  constructor
  · intro k hk hlive
    obtain ⟨i, hi, hbare⟩ := hpending k hk
    have hframe : k.frameNumber = i.frameNumber := congrArg (·.frameNumber) hbare
    have hinput : k.inputBuffer = i.inputBuffer := congrArg (·.inputBuffer) hbare
    obtain ⟨req, hreq, hsame, hkind⟩ := hs.invariant.taken_of_pending hi
    rw [← hinput, hlive, isSome_none, isSome_eq_false_iff, isNone_iff_eq_none] at hkind
    rw [hframe, ← hsame, hlog hreq hkind, hsame]
    exact (h.pending i hi (hinput.symm.trans hlive)).of_bare hbare
  · rw [htaken, hsettled]
    intro req hreq hlive hmem
    rw [hlog hreq hlive]
    exact h.answered req hreq hlive hmem
  · rw [hsent]
    intro r hr hblank
    rcases mem_append.mp hr with hr | hr
    · exact h.blank r hr hblank
    · exact (hquiet _ hr).blank r rfl hblank

variable {m : MetadataInfo} {req : CaptureRequest}

theorem Steady.log_normalPart (h : s.Steady) (hreq : req ∈ s.taken) (hlive : req.inputBuffer = none)
    (hpending : ∀ n ∈ m.number, ∀ i ∈ s.hal.mPendingRequestsList, i.frameNumber ≤ n → i.frameNumber ≠ req.frameNumber) :
    frameLog req.frameNumber ((s.hal.urgentPart m).normalPart m).sent =
      frameLog req.frameNumber (s.hal.urgentPart m).sent := by
  have hsorted := sorted_requests h.invariant.sound
  rw [normalPart]
  cases hn : m.number with
  | none => rfl
  | some n =>
    refine log_metadataTurns_other (fun i hi => ?_) ?_
    · rw [urgentPart_eq m hsorted] at hi
      have hle : i.frameNumber ≤ n := by simpa using mem_takeWhile_imp hi
      obtain ⟨k, hk, rfl⟩ := mem_map.mp ((takeWhile_sublist _).subset hi)
      rw [(urgentEntry_kept m k).1] at hle ⊢
      exact hpending n hn k hk hle
    · rw [urgentPart_eq m hsorted]
      exact h.results_ne hreq hlive

theorem Partials.settle (h : s.Partials) (hs : s.Steady) {n : ℕ} (hn : m.number = some n) (hreq : req ∈ s.taken)
    (hlive : req.inputBuffer = none) (hnot : req.frameNumber ∉ s.settled)
    (hle : req.frameNumber ≤ n)
    (hp : ∀ i ∈ s.hal.mPendingRequestsList, i.inputBuffer = none → i.frameNumber ≤ n → InOrder m n i) :
    (frameLog req.frameNumber ((s.hal.urgentPart m).normalPart m).sent).Answered := by
  have hsorted := sorted_requests hs.invariant.sound
  obtain ⟨_, hr, hframe, hreproc⟩ := hs.marked.pending req hreq hlive hnot
  obtain ⟨i, hi, rfl⟩ := mem_map.mp hr
  have hframe : i.frameNumber = req.frameNumber := hframe
  have hinput : i.inputBuffer = none := by simpa [ledgerReq] using hreproc
  obtain ⟨hkept, hkinput, hbuffers⟩ := urgentEntry_kept m i
  have hkframe : (urgentEntry m i).frameNumber = req.frameNumber := hkept.trans hframe
  obtain ⟨hown, hother⟩ := (hp i hi hinput (by omega)).urgentEntry
  have hcounted := (h.pending i hi hinput).urgentEntry m
  rw [hframe] at hcounted
  have hurgent := urgentPart_eq m hsorted
  have hsorted' : (s.hal.urgentPart m).mPendingRequestsList.Pairwise fun i k => i.frameNumber < k.frameNumber := by
    rw [hurgent]
    refine pairwise_map.mpr (hsorted.imp fun {a b} hlt => ?_)
    rw [(urgentEntry_kept m a).1, (urgentEntry_kept m b).1]
    exact hlt
  have hmem : urgentEntry m i ∈ upTo n (s.hal.urgentPart m).mPendingRequestsList := by
    rw [mem_upTo hsorted', hkframe]
    rw [hurgent]
    exact ⟨mem_map.mpr ⟨i, hi, rfl⟩, hle⟩
  have hstays : ¬ Stays n (urgentEntry m i) := by
    rw [Stays, hkinput, hinput]
    exact fun hstay => by simp at hstay
  have hresults : ∀ j ∈ (s.hal.urgentPart m).mPendingReprocessResultList,
      j.frameNumber ≠ (urgentEntry m i).frameNumber := by
    rw [hkframe, hurgent]
    exact hs.results_ne hreq hlive
  have hupTo : (upTo n (s.hal.urgentPart m).mPendingRequestsList).Pairwise
      fun i k => i.frameNumber < k.frameNumber := hsorted'.sublist (takeWhile_sublist _)
  obtain ⟨bs, hbs, hlog⟩ := log_metadataTurns (m := m) hupTo hmem hstays hresults
  have hbefore := log_urgentPart (m := m) hsorted hi
  rw [hframe] at hbefore
  rw [hkframe, hbefore] at hlog
  rw [normalPart, hn, elim_some, hlog, ← hkframe]
  rw [← hkframe] at hcounted
  refine hcounted.answered ?_ ?_
  · rw [hkept]
    exact hown
  · rw [hkept]
    intro herror
    have hnil := hother herror
    rw [hbs, cachedBuffers, hbuffers]
    exact hnil

theorem Partials.blank_metadata (h : s.Partials) (hs : s.Steady) (hp : s.InProtocol (.metadata m)) (r : CaptureResult)
    (hr : .result r ∈ ((s.hal.urgentPart m).normalPart m).sent) (hblank : r.metadata = false) :
    r.partialResult = 0 := by
  have hsorted := sorted_requests hs.invariant.sound
  have hurgent := urgentPart_eq m hsorted
  have hbefore : ∀ c ∈ (s.hal.urgentPart m).sent, ∀ r, c = .result r → r.metadata = false → r.partialResult = 0 := by
    rw [hurgent]
    rintro c hc r rfl hblank
    rcases mem_append.mp hc with hc | hc
    · exact h.blank r hc hblank
    · obtain ⟨i, -, hc⟩ := mem_flatMap.mp hc
      rw [(mem_urgentResult hc).2 r rfl] at hblank
      cases hblank
  rw [normalPart] at hr
  cases hn : m.number with
  | none =>
    rw [hn] at hr
    exact hbefore _ hr r rfl hblank
  | some n =>
    rw [hn] at hr
    refine metadataTurns_told (P := fun c => ∀ r, c = .result r → r.metadata = false →
      r.partialResult = 0) (fun i _ stream r hr => by cases hr) (fun i hi hstays bs hbs c hc r heq hblank => ?_)
      (fun c _ hmeta r hr hblank => ?_) hbefore _ hr r rfl hblank
    · have hle : i.frameNumber ≤ n := by simpa using mem_takeWhile_imp hi
      have hmem := (takeWhile_sublist _).subset hi
      rw [hurgent] at hmem
      obtain ⟨k, hk, rfl⟩ := mem_map.mp hmem
      obtain ⟨hkept, hkinput, hbuffers⟩ := urgentEntry_kept m k
      rw [heq] at hc
      have hother : (counted (urgentEntry m k)).frameNumber ≠ n := by
        rw [metadata_resultCalls hc] at hblank
        simpa using hblank
      have hother' : k.frameNumber ≠ n := fun hown => hother (hkept.trans hown)
      have hlive : k.inputBuffer = none := by
        rw [← hkinput]
        by_contra hreproc
        refine hstays ⟨?_, isSome_iff_ne_none.mpr hreproc⟩
        omega
      have hnil := (hp n hn k hk hlive (hkept ▸ hle)).2 (.inl hother')
      rw [cachedBuffers, hbuffers] at hbs
      obtain rfl := hbs.mpr hnil
      rw [resultCalls_error (.inl hother), if_neg hother, nil_append] at hc
      cases mem_singleton.mp hc
    · rw [hmeta r hr] at hblank
      cases hblank

/-- **Metadata in the protocol keeps the count.** -/
theorem Partials.metadata (h : s.Partials) (hs : s.Steady)
    (hp : s.InProtocol (.metadata m)) : (s.metadata m).Partials := by
  have hsorted := sorted_requests hs.invariant.sound
  have hhal : (s.metadata m).hal = ((s.hal.urgentPart m).normalPart m).doneMetadata :=
    handleMetadata_eq hs.invariant.working m
  have hsent : (s.metadata m).hal.sent = ((s.hal.urgentPart m).normalPart m).sent := by
    rw [hhal]
    rfl
  have hsteady := hs.metadata m
  constructor
  · intro k hk hlive
    rw [hsent]
    obtain ⟨req, hreq, hframe, hkind⟩ := hsteady.invariant.taken_of_pending hk
    have hreqlive : req.inputBuffer = none := by simpa [hlive] using hkind
    have hunsettled : req.frameNumber ∉ (s.metadata m).settled := fun hsettled =>
      hsteady.pending_ne hreq hreqlive hsettled k hk hframe.symm
    rw [← hframe, hs.log_normalPart hreq hreqlive]
    · rw [hhal] at hk
      obtain ⟨k', hk', rfl⟩ := mem_map.mp hk
      have hk' : k' ∈ (s.hal.urgentPart m).mPendingRequestsList := by
        rw [normalPart] at hk'
        cases hn : m.number with
        | none =>
          rw [hn] at hk'
          exact hk'
        | some n =>
          rw [hn] at hk'
          exact live_metadataTurns hk' hlive
      rw [urgentPart_eq m hsorted] at hk'
      obtain ⟨i, hi, rfl⟩ := mem_map.mp hk'
      obtain ⟨hkept, hkinput, -⟩ := urgentEntry_kept m i
      have hcounted := (h.pending i hi (hkinput.symm.trans hlive)).urgentEntry m
      rw [← log_urgentPart hsorted hi, ← hkept] at hcounted
      rw [hframe]
      exact hcounted.congr rfl rfl rfl
    · rintro n hn i - hle heq
      refine hunsettled (settled_metadata hn (mem_map.mpr ⟨req, hreq, rfl⟩) ?_)
      omega
  · intro req hreq hlive hsettled
    rw [hsent]
    by_cases hbefore : req.frameNumber ∈ s.settled
    · have hne := hs.pending_ne hreq hlive hbefore
      rw [hs.log_normalPart hreq hlive fun n _ i hi _ => hne i hi, log_urgentPart_other hsorted hne]
      exact h.answered req hreq hlive hbefore
    · have hmem := (mem_append.mp hsettled).resolve_left hbefore
      cases hn : m.number with
      | none =>
        rw [hn] at hmem
        cases hmem
      | some n =>
        rw [hn] at hmem
        exact h.settle hs hn hreq hlive hbefore (of_decide_eq_true (mem_filter.mp hmem).2) (hp n hn)
  · rw [hsent]
    exact h.blank_metadata hs hp

/-- **A request** enters with nothing told of it. -/
theorem Partials.request (h : s.Partials) (hs : s.Steady) {calls : RequestCalls}
    (hfresh : s.Fresh req) (hu : s.Undrained (.request calls req)) :
    (s.request calls req).Partials := by
  rcases request_undrained hs.invariant hu with ⟨hal, huntouched, heq⟩ | ⟨u, hal, huntouched, hsub, hmarks, heq⟩
  · rw [heq]
    have hsent : hal.sent = s.hal.sent ++ [] := by rw [append_nil, huntouched]
    refine h.kept hs rfl rfl hsent nofun fun k hk => ⟨k, ?_, rfl⟩
    rw [huntouched] at hk
    exact hk
  · have hsent : hal.sent = s.hal.sent := by
      rw [hsub.rest, huntouched]
      rfl
    have hnew : frameLog req.frameNumber s.hal.sent = {} := by
      refine FrameLog.foldl_other (fun c hc heq => ?_) _
      exact absurd (hfresh.1 _ (hs.told c hc _ heq)) (Nat.lt_irrefl _)
    rw [heq]
    constructor
    · change ∀ k ∈ hal.mPendingRequestsList, k.inputBuffer = none → Counted k (frameLog k.frameNumber hal.sent)
      rw [hsent]
      intro k hk hlive
      obtain ⟨i, hi, hsame, -⟩ := hmarks.origin hk
      have hframe : i.frameNumber = k.frameNumber := congrArg (·.frameNumber) hsame
      have hinput : i.inputBuffer = k.inputBuffer := congrArg (·.inputBuffer) hsame
      refine Counted.of_bare ?_ hsame.symm
      rw [← hframe]
      rw [insertRequest, huntouched] at hi
      rcases mem_append.mp hi with hi | hi
      · exact h.pending i hi (hinput.trans hlive)
      · rw [mem_singleton.mp hi]
        change Counted _ (frameLog req.frameNumber s.hal.sent)
        rw [hnew]
        exact counted_empty rfl rfl rfl
    · change ∀ req' ∈ s.taken ++ [req], req'.inputBuffer = none → req'.frameNumber ∈ s.settled →
        (frameLog req'.frameNumber hal.sent).Answered
      rw [hsent]
      intro req' hreq' hlive hsettled
      rcases mem_append.mp hreq' with hreq' | hreq'
      · exact h.answered req' hreq' hlive hsettled
      · rw [mem_singleton.mp hreq'] at hsettled
        exact absurd (hfresh.1 _ (hs.marked.frames _ hsettled)) (Nat.lt_irrefl _)
    · change ∀ r, .result r ∈ hal.sent → _
      rw [hsent]
      exact h.blank

theorem Partials.step (h : s.Partials) (hs : s.Steady) {e : CaptureEvent} (hu : s.Undrained e)
    (hp : s.InProtocol e) (hstep : s.step e = some t) : t.Partials := by
  cases e with
  | request calls req =>
    simp only [CaptureState.step, ite_none_right_eq_some, some.injEq] at hstep
    obtain ⟨hfresh, rfl⟩ := hstep
    exact h.request hs hfresh hu
  | metadata m =>
    cases hstep
    exact h.metadata hs hp
  | buffer o error =>
    simp only [CaptureState.step, ite_none_right_eq_some, some.injEq] at hstep
    obtain ⟨-, rfl⟩ := hstep
    obtain ⟨calls, hsent, hcalls, hpending, -⟩ :=
      handleBuffer_told hs.invariant.working ⟨o.stream, o.buffer, error⟩ o.frame
    refine h.kept hs rfl rfl hsent (fun c hc => ?_) hpending
    rcases hcalls c hc with ⟨b, e, rfl⟩ | ⟨i, hi, hreproc, hframe, hmeta⟩
    · refine ⟨fun req _ _ log => by simp [FrameLog.add], fun r hr _ => ?_⟩
      obtain rfl := Callback.result.inj hr
      rfl
    · exact hs.quiet_reproc hi hreproc hframe hmeta
  | input frameNumber =>
    cases hstep
    obtain ⟨calls, hsent, hcalls, hpending, -⟩ := handleInputBuffer_told s.hal frameNumber
    refine h.kept hs rfl rfl hsent (fun c hc => ?_) hpending
    obtain ⟨i, hi, hreproc, hframe, hmeta⟩ := hcalls c hc
    exact hs.quiet_reproc hi hreproc hframe hmeta
  | flush => exact absurd trivial hu

/-- **The protocol of the partial results**: a live frame whose normal metadata has come, its own or
later one, is answered; for every live frame the counters go up, and not beyond the last part; and a
result without metadata has no counter. -/
structure PartialsInOrder (s : CaptureState) : Prop where
  answered : ∀ req ∈ s.taken, req.inputBuffer = none → req.frameNumber ∈ s.settled →
    (frameLog req.frameNumber s.hal.sent).Answered
  increasing : ∀ req ∈ s.taken, req.inputBuffer = none → (frameLog req.frameNumber s.hal.sent).values.Pairwise (· < ·) ∧
      ∀ v ∈ (frameLog req.frameNumber s.hal.sent).values, v ≤ partialResultCount
  blank : ∀ r, .result r ∈ s.hal.sent → r.metadata = false → r.partialResult = 0

/-- **Every live frame is answered once, by parts that are counted up**, in a run of requests and
callbacks whose metadata keeps to the protocol. -/
theorem partials_run {s t : CaptureState} {es : List CaptureEvent} (hs : s.Initial)
    (h : Run (guarded (fun s e => s.Undrained e ∧ s.InProtocol e) (fires step)) s es t) :
    t.PartialsInOrder := by
  obtain ⟨hsteady, hpartials⟩ : t.Steady ∧ t.Partials := by
    refine h.invariant (I := fun s => s.Steady ∧ s.Partials) (fun u e v hu hstep => ?_)
      ⟨steady_initial hs, partials_initial hs⟩
    obtain ⟨⟨hundrained, hin⟩, hstep⟩ := hstep
    exact ⟨hu.1.step hundrained hstep, hu.2.step hu.1 hundrained hin hstep⟩
  refine ⟨hpartials.answered, fun req hreq hlive => ?_, hpartials.blank⟩
  by_cases hsettled : req.frameNumber ∈ t.settled
  · have hanswered := hpartials.answered req hreq hlive hsettled
    exact ⟨hanswered.increasing, hanswered.bound⟩
  · obtain ⟨_, hr, hframe, hreproc⟩ := hsteady.marked.pending req hreq hlive hsettled
    obtain ⟨i, hi, rfl⟩ := mem_map.mp hr
    have hframe : i.frameNumber = req.frameNumber := hframe
    rw [← hframe]
    exact (hpartials.pending i hi (by simpa [ledgerReq] using hreproc)).increasing

/-- Two live requests. The urgent metadata of the first is missed, and both get their normal
metadata. -/
def missedUrgent : List CaptureEvent :=
  [liveRequest 1 11, liveRequest 2 12, .metadata { urgentFrameNumber := some 2 },
    .metadata { frameNumber := some 1 }, .buffer ⟨1, 1, 11⟩ false, .buffer ⟨2, 1, 12⟩ false,
    .metadata { frameNumber := some 2 }]

/-- The first gets an error, the second its two parts, and `partials_run` applies. -/
theorem partials_run_two : ∃ t,
    Run (guarded (fun s e => s.Undrained e ∧ s.InProtocol e) (fires step)) configured missedUrgent t ∧
      frameLog 1 t.hal.sent = { shutter := true, errors := 1 } ∧
      frameLog 2 t.hal.sent = { shutter := true, values := [1, 2], finals := 1 } ∧
      t.PartialsInOrder :=
  (exists_run (P := fun t => frameLog 1 t.hal.sent = { shutter := true, errors := 1 } ∧
    frameLog 2 t.hal.sent = { shutter := true, values := [1, 2], finals := 1 }) (by decide)).imp
    fun _ h => ⟨h.1, h.2.1, h.2.2, partials_run configured_initial h.1⟩

/-- The normal metadata of a live request comes without urgent metadata: its result with the
metadata says that it is the first part, and there is no error. -/
theorem partial_unfinished : ∃ t, Run (fires step) configured
    [liveRequest 1 11, .metadata { frameNumber := some 1 }] t ∧
      (∃ req ∈ t.taken, req.inputBuffer = none ∧ req.frameNumber = 1 ∧ 1 ∈ t.settled) ∧
      frameLog 1 t.hal.sent = { shutter := true, values := [1] } ∧ ¬ t.PartialsInOrder := by
  refine (exists_run_fires (P := fun t =>
    (∃ req ∈ t.taken, req.inputBuffer = none ∧ req.frameNumber = 1 ∧ 1 ∈ t.settled) ∧
      frameLog 1 t.hal.sent = { shutter := true, values := [1] }) (by decide)).imp fun t ht => ⟨ht.1, ?_⟩
  obtain ⟨-, ⟨req, hreq, hlive, hframe, hsettled⟩, hlog⟩ := ht
  refine ⟨⟨req, hreq, hlive, hframe, hsettled⟩, hlog, fun hin => ?_⟩
  have honce := (hin.answered req hreq hlive (hframe ▸ hsettled)).once
  rw [hframe, hlog] at honce
  exact absurd honce (by decide)

end CaptureState

end Marlin
