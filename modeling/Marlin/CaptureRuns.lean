import Marlin.CaptureSections
import Marlin.Transition

/-!
# Runs of the HAL

The framework sends capture requests, the channels send metadata, buffers and the inputs of
reprocess requests back, and a flush returns what is pending. A run is any interleaving of these.
Beside the HAL, its states have the buffers that are with the channels and the requests that the
lists took.

## Main definitions

* `CaptureEvent`, `CaptureState.step`: the events.
* `Drains`: the events that return what is pending as errors.
* `Invariant`: what every run keeps in which such events find no reprocess result; `run_invariant`.
-/

open List Option Ledger Transition

namespace Marlin

/-! ### Events -/

/-- The events: a request, with the answers to its calls; metadata; a buffer; the input of a
reprocess request; and a flush. -/
inductive CaptureEvent
  | request (calls : RequestCalls) (req : CaptureRequest)
  | metadata (m : MetadataInfo)
  | buffer (o : Out) (error : Bool)
  | input (frameNumber : ℕ)
  | flush

/-- The HAL, the buffers that are with the channels, the requests that the lists took, and the
frames that metadata, their own or later one, or a flush has settled. -/
structure CaptureState where
  hal : HardwareInterface
  queued : List Out := []
  taken : List CaptureRequest := []
  settled : List ℕ := []

namespace CaptureState

/-- The output buffers of the requests. -/
def entered (s : CaptureState) : List Out := s.taken.flatMap CaptureRequest.outs

/-- The ledger of the buffers. -/
def ledger (s : CaptureState) : BufferLedger := s.hal.ledger s.queued s.entered

/-- The buffers that were returned. -/
def returned (s : CaptureState) : List Out := s.hal.sent.flatMap Callback.outs

/-- The frames of the requests. -/
def frames (s : CaptureState) : List ℕ := s.taken.map CaptureRequest.frameNumber

/-- A request of the framework: its number is the highest, it has one buffer for a stream, and
its buffers are not with the HAL. -/
def Fresh (s : CaptureState) (req : CaptureRequest) : Prop :=
  (∀ frameNumber ∈ s.frames, frameNumber < req.frameNumber) ∧
    (req.outputs.map CaptureOutput.stream).Nodup ∧ (req.outputs.map CaptureOutput.buffer).Nodup ∧
    ∀ o ∈ req.outputs, o.buffer ∉ (mapOuts s.hal.mPendingBuffersMap).map Out.buffer
deriving Decidable

/-- The state when the lists take a request: a restart of the sensor has returned what was
pending. -/
def restarted (s : CaptureState) (calls : RequestCalls) (req : CaptureRequest) : CaptureState :=
  if HardwareInterface.restarts calls req s.hal then
    { s with
      hal := s.hal.notifyErrorForPendingRequests
      queued := []
      settled := s.settled ++ s.frames }
  else s

/-- A request. -/
def request (s : CaptureState) (calls : RequestCalls) (req : CaptureRequest) : CaptureState :=
  let t := s.restarted calls req
  let hal := (s.hal.processCaptureRequest calls req).2
  match HardwareInterface.prepareRequest calls req s.hal with
  | .ok _ => { t with hal := hal, queued := t.queued ++ req.outs, taken := t.taken ++ [req] }
  | .error _ => { t with hal := hal }

/-- Metadata settles the requests up to its number. -/
def metadata (s : CaptureState) (m : MetadataInfo) : CaptureState :=
  { s with
    hal := s.hal.handleMetadataWithLock m
    settled := s.settled ++ m.number.elim [] fun n => s.frames.filter fun f => decide (f ≤ n) }

/-- A buffer comes back. -/
def buffer (s : CaptureState) (o : Out) (error : Bool) : CaptureState :=
  { s with
    hal := s.hal.handleBufferWithLock ⟨o.stream, o.buffer, error⟩ o.frame
    queued := s.queued.erase o }

/-- The input of a reprocess request comes back. -/
def input (s : CaptureState) (frameNumber : ℕ) : CaptureState :=
  { s with hal := s.hal.handleInputBufferWithLock frameNumber }

/-- A flush returns what is pending. -/
def flush (s : CaptureState) : CaptureState :=
  { s with
    hal := { s.hal.notifyErrorForPendingRequests with mPendingLiveRequest := 0 }
    queued := []
    settled := s.settled ++ s.frames }

/-- The events that can happen: requests are fresh, and a buffer comes back once. -/
def step (s : CaptureState) : CaptureEvent → Option CaptureState
  | .request calls req => if s.Fresh req then some (s.request calls req) else none
  | .metadata m => some (s.metadata m)
  | .buffer o error => if o ∈ s.queued then some (s.buffer o error) else none
  | .input frameNumber => some (s.input frameNumber)
  | .flush => some s.flush

/-- The HAL after its configuration. -/
structure Initial (s : CaptureState) : Prop where
  state : s.hal.Open
  flushPerf : s.hal.mFlushPerf = false
  requests : s.hal.mPendingRequestsList = []
  map : s.hal.mPendingBuffersMap = []
  results : s.hal.mPendingReprocessResultList = []
  live : s.hal.mPendingLiveRequest = 0
  sent : s.hal.sent = []
  queued : s.queued = []
  taken : s.taken = []
  settled : s.settled = []

/-- Whether the event returns what is pending as errors. -/
def Drains (s : CaptureState) : CaptureEvent → Prop
  | .request calls req => HardwareInterface.restarts calls req s.hal = true
  | .flush => True
  | _ => False

instance (s : CaptureState) (e : CaptureEvent) : Decidable (s.Drains e) := by
  delta Drains
  cases e <;> infer_instance

/-- The event finds no reprocess result that waits, if it returns what is pending. -/
def DrainsAll (s : CaptureState) (e : CaptureEvent) : Prop :=
  s.Drains e → s.hal.mPendingReprocessResultList = []
deriving Decidable

/-! ### What every run keeps -/

/-- What holds in every run: the handlers work, the ledger is sound, the map is in order, and
the pending requests are ones that the framework sent, with increasing numbers. -/
structure Invariant (s : CaptureState) : Prop where
  working : s.hal.Working
  sound : s.ledger.Sound
  map : HardwareInterface.MapOrdered s.hal.mPendingBuffersMap
  sorted : s.taken.Pairwise fun req req' => req.frameNumber < req'.frameNumber
  outputs : ∀ req ∈ s.taken, req.outs ≠ []
  kinds : ∀ r ∈ s.ledger.requests, ∃ req ∈ s.taken, req.frameNumber = r.frame ∧ req.inputBuffer.isSome = r.reproc

/-- The configured HAL. -/
theorem Initial.invariant {s : CaptureState} (h : s.Initial) : s.Invariant := by
  have hledger : s.ledger = {} := by
    simp [ledger, HardwareInterface.ledger, entered, h.requests, h.map, h.results, h.sent, h.queued, h.taken, mapOuts]
  constructor
  · exact ⟨h.flushPerf, h.state⟩
  · rw [hledger]
    exact BufferLedger.sound_empty
  · rw [h.map]
    exact ⟨List.Pairwise.nil, by simp⟩
  · rw [h.taken]
    exact List.Pairwise.nil
  · simp [h.taken]
  · simp [hledger]

/-! ### The steps keep it -/

variable {s : CaptureState}

variable {hal : HardwareInterface}

theorem Invariant.untouched (h : s.Invariant) (hu : HardwareInterface.Untouched s.hal hal) (settled : List ℕ) :
    Invariant { s with hal := hal, settled := settled } where
  working := hu.working h.working
  sound := by
    have hledger : (ledger { s with hal := hal, settled := settled }) = s.ledger := hu.ledger _ _
    rw [hledger]
    exact h.sound
  map := hu.map ▸ h.map
  sorted := h.sorted
  outputs := h.outputs
  kinds := by
    have hledger : (ledger { s with hal := hal, settled := settled }) = s.ledger := hu.ledger _ _
    rw [hledger]
    exact h.kinds

theorem ledger_drain (h : s.Invariant) (hheld : s.hal.mPendingReprocessResultList = []) (settled : List ℕ) :
    ledger { s with
        hal := s.hal.notifyErrorForPendingRequests, queued := [], settled := settled } =
      s.ledger.flush :=
  HardwareInterface.ledger_notifyError h.sound h.map hheld

theorem ledger_flush (h : s.Invariant) (hheld : s.hal.mPendingReprocessResultList = []) :
    s.flush.ledger = s.ledger.flush :=
  ledger_drain h hheld (s.settled ++ s.frames)

theorem Invariant.drain (h : s.Invariant) (hheld : s.hal.mPendingReprocessResultList = []) (settled : List ℕ) :
    Invariant { s with
      hal := s.hal.notifyErrorForPendingRequests, queued := [], settled := settled } := by
  have heq := HardwareInterface.notifyError_eq h.map
    (HardwareInterface.sorted_requests h.sound) (HardwareInterface.covered h.sound hheld)
  constructor
  case working =>
    rw [heq]
    exact ⟨h.working.flushPerf, h.working.state⟩
  case sound =>
    rw [ledger_drain h hheld]
    exact h.sound.flush
  case map =>
    rw [heq]
    exact ⟨List.Pairwise.nil, by simp⟩
  case sorted => exact h.sorted
  case outputs => exact h.outputs
  case kinds =>
    rw [ledger_drain h hheld]
    simp [BufferLedger.flush]

variable {req : CaptureRequest}

theorem Invariant.restarted (h : s.Invariant) {calls : RequestCalls}
    (hd : s.DrainsAll (.request calls req)) : (s.restarted calls req).Invariant := by
  rw [CaptureState.restarted]
  split
  · rename_i hr
    exact h.drain (hd hr) _
  · exact h

@[simp] theorem restarted_taken (s : CaptureState) (calls : RequestCalls) (req : CaptureRequest) :
    (s.restarted calls req).taken = s.taken := by
  rw [restarted]
  split <;> rfl

theorem request_cases (h : s.Invariant) (calls : RequestCalls) (req : CaptureRequest) :
    (∃ hal, HardwareInterface.Untouched (s.restarted calls req).hal hal ∧
      s.request calls req = { s.restarted calls req with hal := hal }) ∨
    ∃ t hal, HardwareInterface.Untouched (s.restarted calls req).hal t ∧
      HardwareInterface.Submitted (HardwareInterface.insertRequest req t) hal ∧ req.outs ≠ [] ∧
      s.request calls req = { s.restarted calls req with
        hal := hal
        queued := (s.restarted calls req).queued ++ req.outs
        taken := s.taken ++ [req] } := by
  have hhal : (s.restarted calls req).hal = HardwareInterface.pendingBefore calls req s.hal := by
    rw [restarted, HardwareInterface.pendingBefore]
    split <;> rfl
  rcases HardwareInterface.processCaptureRequest_cases calls req h.working.state with
    ⟨r, hprep, hproc, -, hu⟩ | ⟨t, hprep, hu, hsub⟩
  · refine .inl ⟨r.2, hhal ▸ hu, ?_⟩
    rw [request, hprep, hproc]
  · refine .inr ⟨t, _, hhal ▸ hu, hsub, ?_, ?_⟩
    · have hlen := HardwareInterface.outputs_of_prepared calls req hprep
      simp only [CaptureRequest.outs, ne_eq, map_eq_nil_iff]
      rintro hnil
      simp [hnil] at hlen
    · rw [request, hprep, restarted_taken]

theorem frame_of_entered {o : Out} (ho : o ∈ s.entered) : o.frame ∈ s.frames := by
  obtain ⟨req, hreq, ho⟩ := mem_flatMap.mp ho
  obtain ⟨k, -, rfl⟩ := mem_map.mp ho
  exact mem_map.mpr ⟨req, hreq, rfl⟩

theorem ledger_taken {t : HardwareInterface} (hu : HardwareInterface.Untouched s.hal t)
    (hsub : HardwareInterface.Submitted (HardwareInterface.insertRequest req t) hal) :
    ledger { s with hal := hal, queued := s.queued ++ req.outs, taken := s.taken ++ [req] } =
      s.ledger.insert req.frameNumber req.inputBuffer.isSome req.outs := by
  have hentered : entered { s with
      hal := hal, queued := s.queued ++ req.outs, taken := s.taken ++ [req] } =
      s.entered ++ req.outs := by
    simp [entered]
  rw [ledger, hentered, hsub.ledger, HardwareInterface.ledger_insertRequest, hu.ledger]
  rfl

theorem fresh_ledger (hf : s.Fresh req) (hne : req.outs ≠ []) : s.ledger.Fresh req.frameNumber req.outs where
  entered := fun o ho => hf.1 _ (frame_of_entered ho)
  frame := by
    rintro o ho
    obtain ⟨k, -, rfl⟩ := List.mem_map.mp ho
    rfl
  nonempty := hne
  streams := by
    rw [CaptureRequest.outs, List.map_map]
    exact hf.2.1
  handles := by
    rw [CaptureRequest.outs, List.map_map]
    exact hf.2.2.1
  unlisted := by
    rintro o ho
    obtain ⟨k, hk, rfl⟩ := List.mem_map.mp ho
    exact hf.2.2.2 k hk

theorem Fresh.restarted {calls : RequestCalls} (hf : s.Fresh req) : (s.restarted calls req).Fresh req := by
  rw [CaptureState.restarted]
  split
  · exact ⟨hf.1, hf.2.1, hf.2.2.1, by
      simp [HardwareInterface.notifyErrorForPendingRequests, mapOuts]⟩
  · exact hf

theorem Invariant.taken (h : s.Invariant) {t : HardwareInterface}
    (hf : s.Fresh req) (hne : req.outs ≠ []) (hu : HardwareInterface.Untouched s.hal t)
    (hsub : HardwareInterface.Submitted (HardwareInterface.insertRequest req t) hal) :
    Invariant { s with hal := hal, queued := s.queued ++ req.outs, taken := s.taken ++ [req] } where
  working := by
    have hw := hu.working h.working
    exact hsub.working ⟨hw.flushPerf, hw.state⟩
  sound := by
    rw [ledger_taken hu hsub]
    exact h.sound.insert (fresh_ledger hf hne)
  map := by
    have hmap : hal.mPendingBuffersMap = s.hal.mPendingBuffersMap ++ [⟨req.frameNumber,
        req.outputs.map fun o => { stream := o.stream, buffer := o.buffer }⟩] := by
      rw [hsub.map, HardwareInterface.insertRequest, hu.map]
    rw [hmap]
    constructor
    · refine pairwise_append.mpr ⟨h.map.sorted, pairwise_singleton _ _, ?_⟩
      rintro e he e' he'
      rw [mem_singleton.mp he']
      obtain ⟨k, hk⟩ := exists_mem_of_ne_nil _ (h.map.nonempty e he)
      have hlisted : (⟨e.frameNumber, k.stream, k.buffer⟩ : Out) ∈ s.ledger.listed :=
        mem_flatMap.mpr ⟨e, he, mem_map.mpr ⟨k, hk, rfl⟩⟩
      exact hf.1 _ (frame_of_entered (h.sound.listed_entered hlisted))
    · rintro e he
      rcases mem_append.mp he with he | he
      · exact h.map.nonempty e he
      · rw [mem_singleton.mp he]
        simpa [CaptureRequest.outs] using hne
  sorted := by
    refine pairwise_append.mpr ⟨h.sorted, pairwise_singleton _ _, ?_⟩
    rintro r hr r' hr'
    rw [mem_singleton.mp hr']
    exact hf.1 _ (mem_map.mpr ⟨r, hr, rfl⟩)
  outputs := by
    rintro r hr
    rcases mem_append.mp hr with hr | hr
    · exact h.outputs r hr
    · rw [mem_singleton.mp hr]
      exact hne
  kinds := by
    rw [ledger_taken hu hsub]
    rintro r hr
    rcases mem_append.mp hr with hr | hr
    · obtain ⟨req', hreq', hkind⟩ := h.kinds r hr
      exact ⟨req', mem_append_left _ hreq', hkind⟩
    · rw [mem_singleton.mp hr]
      exact ⟨req, by simp, rfl, rfl⟩

theorem Invariant.handled (h : s.Invariant) {queued : List Out}
    {settled : List ℕ} (hh : HardwareInterface.Handled s.hal hal)
    (hsound : (hal.ledger queued s.entered).Sound)
    (hkinds : ∀ r ∈ (hal.ledger queued s.entered).requests, ∃ r' ∈ s.ledger.requests, r'.kind = r.kind) :
    Invariant { s with hal := hal, queued := queued, settled := settled } where
  working := hh.working h.working
  sound := hsound
  map := hh.mapOrdered h.map
  sorted := h.sorted
  outputs := h.outputs
  kinds := by
    rintro r hr
    obtain ⟨r', hr', hkind⟩ := hkinds r hr
    obtain ⟨req, hreq, hframe, hreproc⟩ := h.kinds r' hr'
    exact ⟨req, hreq, hframe.trans (congrArg Prod.fst hkind), hreproc.trans (congrArg Prod.snd hkind)⟩

theorem ledger_metadata (h : s.Invariant) (m : MetadataInfo) :
    (s.metadata m).ledger = m.number.elim s.ledger s.ledger.metadata :=
  HardwareInterface.ledger_handleMetadata h.sound h.working m

theorem ledger_buffer (h : s.Invariant) (o : Out) (error : Bool) : (s.buffer o error).ledger = s.ledger.arrive o :=
  HardwareInterface.ledger_handleBuffer h.working ⟨o.stream, o.buffer, error⟩ o.frame

theorem ledger_input (frameNumber : ℕ) : (s.input frameNumber).ledger = s.ledger.release frameNumber :=
  HardwareInterface.ledger_handleInputBuffer s.hal frameNumber

variable {t : CaptureState}

/-- **One event keeps the invariant**, if it finds no reprocess result where it returns what is
pending. -/
theorem Invariant.step (h : s.Invariant) {e : CaptureEvent}
    (hd : s.DrainsAll e) (hstep : s.step e = some t) : t.Invariant := by
  cases e with
  | request calls req =>
    simp only [CaptureState.step, ite_none_right_eq_some, some.injEq] at hstep
    obtain ⟨hf, rfl⟩ := hstep
    have hr := h.restarted hd
    rcases request_cases h calls req with ⟨hal, hu, heq⟩ | ⟨t, hal, hu, hsub, hne, heq⟩
    · rw [heq]
      exact hr.untouched hu _
    · rw [heq, ← restarted_taken s calls req]
      exact hr.taken hf.restarted hne hu hsub
  | metadata m =>
    cases hstep
    have hledger := ledger_metadata h m
    refine h.handled (HardwareInterface.handled_metadata s.hal m) ?_ ?_
    · change (s.metadata m).ledger.Sound
      rw [hledger]
      cases m.number with
      | none => exact h.sound
      | some n => exact h.sound.metadata n
    · change ∀ r ∈ (s.metadata m).ledger.requests, _
      rw [hledger]
      cases m.number with
      | none => exact fun r hr => ⟨r, hr, rfl⟩
      | some n => exact fun r hr => ⟨r, (BufferLedger.mem_of_mem_turns h.sound hr).1, rfl⟩
  | buffer o error =>
    simp only [CaptureState.step, ite_none_right_eq_some, some.injEq] at hstep
    obtain ⟨ho, rfl⟩ := hstep
    have hledger := ledger_buffer h o error
    refine h.handled (HardwareInterface.handled_buffer s.hal h.working.flushPerf _ _) ?_ ?_
    · change (s.buffer o error).ledger.Sound
      rw [hledger]
      exact h.sound.arrive ho
    · change ∀ r ∈ (s.buffer o error).ledger.requests, _
      rw [hledger]
      exact fun r hr => BufferLedger.kind_of_arrive hr
  | input frameNumber =>
    cases hstep
    have hledger := ledger_input (s := s) frameNumber
    refine h.handled (HardwareInterface.handled_inputBuffer s.hal frameNumber) ?_ ?_
    · change (s.input frameNumber).ledger.Sound
      rw [hledger]
      exact h.sound.release frameNumber
    · change ∀ r ∈ (s.input frameNumber).ledger.requests, _
      rw [hledger]
      exact fun r hr => ⟨r, BufferLedger.mem_of_release hr, rfl⟩
  | flush =>
    cases hstep
    have hlive : HardwareInterface.Untouched s.hal.notifyErrorForPendingRequests
        { s.hal.notifyErrorForPendingRequests with mPendingLiveRequest := 0 } := rfl
    exact (h.drain (hd trivial) (s.settled ++ s.frames)).untouched hlive _

/-- **Every run keeps the invariant** in which what is pending is returned only while no
reprocess result waits. -/
theorem run_invariant {s : CaptureState} {es : List CaptureEvent} (hs : s.Initial)
    (h : Run (guarded DrainsAll (fires CaptureState.step)) s es t) : t.Invariant :=
  h.invariant (fun _ _ _ hinv hstep => hinv.step hstep.1 hstep.2) hs.invariant

/-! ### Runs that are computed -/

/-- The HAL after its configuration. -/
def configured : CaptureState where
  hal := {}

theorem configured_initial : configured.Initial := by
  constructor <;> first | rfl | exact .inl rfl

/-- A live request with one buffer, and all calls that it makes succeed. -/
def liveRequest (frameNumber buffer : ℕ) : CaptureEvent :=
  .request {}
    { frameNumber := frameNumber
      outputs := [{ stream := 1, buffer := buffer }]
      requestId := some 1 }

/-- A reprocess request with one buffer, and all calls that it makes succeed. -/
def reprocRequest (frameNumber buffer : ℕ) : CaptureEvent :=
  .request {}
    { frameNumber := frameNumber
      outputs := [{ stream := 2, buffer := buffer }]
      inputBuffer := some ⟨3, 100 + buffer, false⟩ }

end CaptureState

end Marlin
