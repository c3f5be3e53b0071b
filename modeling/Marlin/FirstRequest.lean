import Marlin.CaptureKeeps
import Marlin.RequestEnds
import Marlin.Transition

/-!
# The Start of the Channels by the First Request

The first request after a configuration starts the channels, and the state becomes `STARTED` when
its call ends. A call that ends otherwise should have stopped what it started. It does so only
where the failing start has a clean-up list: the failure of a stream channel or of the bundle
has none, and neither have the exits after the channels are started.

## Main results

* `stopped_iff`: exactly when a call that does not end in `STARTED` leaves all channels stopped.
* `KeepsStarted`, `StartInvariant.step`: the events that keep the channels started if and only
  if the state is `STARTED`.
* `first_request`: both, for one call and over runs.
* `first_request_halfway`: a stream channel fails, and the metadata channel stays started.
-/

open Option Bool Outcome Transition

namespace Marlin

/-! ### Channels -/

/-- Every channel is active, or none is. -/
structure HalChannels.AllAre (active : Bool) (c : HalChannels) : Prop where
  metadata : c.metadata = active
  analysis : ∀ a ∈ c.analysis, a = active
  support : ∀ a ∈ c.support, a = active
  streams : ∀ a ∈ c.streams, a = active
  rawDump : ∀ a ∈ c.rawDump, a = active
  handle : ∀ a ∈ c.handle, a = active

namespace HardwareInterface

/-- All channels are started. -/
abbrev AllStarted (c : HalChannels) : Prop := c.AllAre true

/-- All channels are stopped. -/
abbrev AllStopped (c : HalChannels) : Prop := c.AllAre false

theorem map_const_active {active : Bool} {o : Option Bool} {a : Bool} (h : a ∈ o.map fun _ => active) : a = active := by
  cases o with
  | none => simp at h
  | some b => simpa [eq_comm] using h

theorem allStarted_startedChannels (c : HalChannels) : AllStarted (startedChannels c) where
  metadata := rfl
  analysis := fun _ => map_const_active
  support := fun _ => map_const_active
  streams := by simp [startedChannels]
  rawDump := fun _ => map_const_active
  handle := fun _ => map_const_active

theorem not_allStopped {c : HalChannels} (h : c.metadata = true) : ¬ AllStopped c := fun hstop =>
  false_ne_true (hstop.metadata.symm.trans h)

theorem startAllChannels_started {start : StartAnswers} {c : HalChannels}
    (h : Reopens start c) : (startAllChannels start c).2 = { c with
        metadata := true
        analysis := c.analysis.map fun active => active || start.analysis
        support := c.support.map fun _ => true
        streams := c.streams.map fun _ => true
        rawDump := c.rawDump.map fun _ => true } := by
  have hall := (startAllChannels_all start c).mpr h
  have hstreams : (startStreams start.stream 0 c.streams).1 = true :=
    (startStreams_all start.stream 0 c.streams).mpr (by simpa using h.2.1)
  have hlist := startStreams_started hstreams
  rw [startAllChannels] at hall ⊢
  simp only [h.1, hstreams, hlist, true_eq_false, if_false] at hall ⊢
  split
  · rename_i hsupport
    exact absurd (h.2.2.1 hsupport.1) (by simp [hsupport.2])
  · split
    · rename_i hraw
      exact absurd (h.2.2.2 hraw.1) (by simp [hraw.2])
    · rfl

theorem startAllChannels_metadata (start : StartAnswers) (c : HalChannels) :
    (startAllChannels start c).2 = c ∧ start.metadata = false ∨
      (startAllChannels start c).2.metadata = true ∧ start.metadata = true := by
  cases hmeta : start.metadata with
  | false => exact .inl ⟨by simp [startAllChannels, hmeta], rfl⟩
  | true =>
    refine .inr ⟨?_, rfl⟩
    rw [startAllChannels]
    simp only [hmeta, true_eq_false, if_false]
    split
    · rfl
    · split
      · rfl
      · split <;> rfl

/-! ### One call -/

variable (calls : RequestCalls) (req : CaptureRequest) (s : HardwareInterface)

/-- The condition under which a first request that does not end in `STARTED` has stopped what it
started. If the metadata, the analysis and the support channel start, all streams do; if the raw
dump channel starts too, so does the bundle, and the rest of the call succeeds, or a restart of
the sensor fails at the metadata channel where there is no bundle. -/
def StartsCleanly : Prop :=
  Valid calls req s → calls.dualCam = true → calls.start.metadata = true →
    (s.channels.analysis.isSome → calls.start.analysis = true) →
    (s.channels.support.isSome → calls.start.support = true) →
    (∀ k < s.channels.streams.length, calls.start.stream k = true) ∧
    ((s.channels.rawDump.isSome → calls.start.rawDump = true) →
      (s.channels.handle.isSome → calls.start.bundle = true) ∧ s.mFlushPerf = false ∧
      Prepares calls req s ∧
      ((Restarts calls req s ∧ calls.restart.metadata = false ∧ s.channels.handle = none) ∨
        ((Restarts calls req s → Reopens calls.restart s.channels) ∧ s.mFlush = false ∧ Ending calls req s)))

variable {calls req s}

theorem linkCameras_meets (calls : RequestCalls) (s : HardwareInterface) :
    Meets (fun t => calls.dualCam = true ∧ t = s) (fun r => calls.dualCam ≠ true ∧ r.2 = s) (linkCameras calls s) := by
  rw [linkCameras]
  split
  · rename_i h
    exact ⟨h, rfl⟩
  · rename_i h
    exact ⟨h, rfl⟩

theorem startMetadata_meets (calls : RequestCalls) (s : HardwareInterface) :
    Meets (fun t => calls.start.metadata = true ∧ t = s.setChannels { s.channels with metadata := true })
      (fun r => calls.start.metadata ≠ true ∧ r.2 = s) (startMetadata calls s) := by
  rw [startMetadata]
  split
  · rename_i h
    exact ⟨h, rfl⟩
  · rename_i h
    exact ⟨h, rfl⟩

theorem startAnalysis_stops (calls : RequestCalls) (s : HardwareInterface) : Meets (fun _ => True)
    (fun r => r.2.channels = { s.channels with metadata := false }) (startAnalysis calls s) := by
  rw [startAnalysis]
  split
  · trivial
  · split <;> trivial

theorem startSupport_stops (calls : RequestCalls) (s : HardwareInterface) : Meets (fun _ => True)
    (fun r => r.2.channels = { s.channels with
      metadata := false
      analysis := s.channels.analysis.map fun _ => false }) (startSupport calls s) := by
  rw [startSupport]
  split
  · trivial
  · split <;> trivial

theorem startStreamChannels_metadata (calls : RequestCalls) (s : HardwareInterface) :
    Meets (fun _ => True) (fun r => r.2.channels.metadata = s.channels.metadata) (startStreamChannels calls s) := by
  rw [startStreamChannels]
  dsimp only
  split <;> trivial

theorem startRawDump_stops (calls : RequestCalls) (s : HardwareInterface) : Meets (fun _ => True)
    (fun r => r.2.channels = { stopAllChannels s.channels with rawDump := s.channels.rawDump })
    (startRawDump calls s) := by
  rw [startRawDump]
  cases hraw : s.channels.rawDump with
  | none => trivial
  | some active =>
    dsimp only
    split <;> trivial

theorem startBundle_channels (calls : RequestCalls) (s : HardwareInterface) : Meets (fun _ => True)
    (fun r => r.2.channels = s.channels) (startBundle calls s) := by
  rw [startBundle]
  split
  · trivial
  · split <;> trivial

theorem startChannels_stopped (hconf : s.mState = .configured) (hstop : AllStopped s.channels) :
    Meets (fun _ => True) (fun r => AllStopped r.2.channels ↔ (calls.dualCam = true → calls.start.metadata = true →
        (s.channels.analysis.isSome → calls.start.analysis = true) →
        (s.channels.support.isSome → calls.start.support = true) →
        (∀ k < s.channels.streams.length, calls.start.stream k = true) ∧
          ¬ (s.channels.rawDump.isSome → calls.start.rawDump = true)))
      (startChannels calls s) := by
  rw [startChannels, if_pos hconf]
  refine (linkCameras_meets calls s).seq ?_ ?_
  · rintro r ⟨hnot, hr⟩
    simp [hnot, hr, hstop]
  rintro u ⟨hdual, hu⟩
  rw [hu]
  refine (startMetadata_meets calls s).seq ?_ ?_
  · rintro r ⟨hnot, hr⟩
    simp [hnot, hr, hstop]
  rintro u ⟨hm, hu⟩
  rw [hu]
  refine ((Meets.of_eq_ok (startAnalysis_eq_ok calls _)).and (startAnalysis_stops calls _)).seq ?_ ?_
  · rintro r ⟨hnot, hr⟩
    have hstopped : AllStopped r.2.channels := by
      rw [hr]
      exact ⟨rfl, hstop.analysis, hstop.support, hstop.streams, hstop.rawDump, hstop.handle⟩
    exact ⟨fun _ _ _ h => absurd h hnot, fun _ => hstopped⟩
  rintro u ⟨⟨ha, hu⟩, -⟩
  rw [hu]
  refine ((Meets.of_eq_ok (startSupport_eq_ok calls _)).and (startSupport_stops calls _)).seq ?_ ?_
  · rintro r ⟨hnot, hr⟩
    have hstopped : AllStopped r.2.channels := by
      rw [hr]
      exact ⟨rfl, fun _ => map_const_active, hstop.support, hstop.streams, hstop.rawDump, hstop.handle⟩
    exact ⟨fun _ _ _ _ h => absurd h hnot, fun _ => hstopped⟩
  rintro u ⟨⟨hs, hu⟩, -⟩
  rw [hu]
  refine ((Meets.of_eq_ok (startStreamChannels_eq_ok calls _)).and (startStreamChannels_metadata calls _)).seq ?_ ?_
  · rintro r ⟨hnot, hr⟩
    exact ⟨fun h => absurd h (not_allStopped hr), fun h => absurd (h hdual hm ha hs).1 hnot⟩
  rintro u ⟨⟨hst, hu⟩, -⟩
  rw [hu]
  refine ((Meets.of_eq_ok (startRawDump_eq_ok calls _)).and (startRawDump_stops calls _)).seq ?_ ?_
  · rintro r ⟨hnot, hr⟩
    have hstopped : AllStopped r.2.channels := by
      rw [hr]
      refine ⟨rfl, fun _ => map_const_active, fun _ => map_const_active, ?_, hstop.rawDump, hstop.handle⟩
      simp [stopAllChannels]
    exact ⟨fun _ _ _ _ _ => ⟨hst, hnot⟩, fun _ => hstopped⟩
  rintro u ⟨⟨hr, hu⟩, -⟩
  rw [hu]
  refine ((Meets.of_eq_ok (startBundle_eq_ok calls _)).and (startBundle_channels calls _)).seq ?_ fun _ _ => trivial
  rintro r ⟨-, hch⟩
  refine ⟨fun h => absurd h (not_allStopped (by rw [hch]; rfl)), fun h => ?_⟩
  exact absurd hr (h hdual hm ha hs).2

theorem opened_channels (hconf : s.mState = .configured) : s.opened.channels = startedChannels s.channels := by
  rw [opened, if_pos hconf]

theorem ready_channels (calls : RequestCalls) (req : CaptureRequest) (s : HardwareInterface) :
    (ready calls req s).channels = s.opened.channels := by
  rw [ready_configures]

theorem listing_channels (calls : RequestCalls) (req : CaptureRequest) (s : HardwareInterface) :
    (listing calls req s).channels = if Restarts calls req s then
        (startAllChannels calls.restart (stopAllChannels s.opened.channels)).2
      else s.opened.channels := by
  rw [listing]
  split
  · rw [reopened, ready_channels]
  · exact ready_channels calls req s

theorem listing_metadata (htakes : Takes calls req s) (hconf : s.mState = .configured) :
    (listing calls req s).channels.metadata = true := by
  rw [listing_channels]
  split
  · rename_i hr
    have hreopens := (reopens_stopAllChannels _ _).mpr ((reopens_opened s _).mpr (htakes.2.2.2 hr))
    rw [startAllChannels_started hreopens]
  · rw [opened_channels hconf]
    rfl

theorem stopped_restart (c : HalChannels) : AllStopped (stopAllChannels (startedChannels c)) ↔ c.handle = none := by
  constructor
  · intro h
    cases hhandle : c.handle with
    | none => rfl
    | some active =>
      have htrue := h.handle true (by simp [stopAllChannels, startedChannels, hhandle])
      exact absurd htrue (by decide)
  · intro h
    refine ⟨rfl, fun _ => map_const_active, fun _ => map_const_active, ?_, fun _ => map_const_active, ?_⟩
    · simp [stopAllChannels]
    · simp [stopAllChannels, startedChannels, h]

theorem processCaptureRequest_invalid (hopen : s.Open) (h : ¬ Valid calls req s) :
    processCaptureRequest calls req s = (.rejected .invalid, s) := by
  have hvalid : validateCaptureRequest calls req s = .error (.rejected .invalid, s) := by
    have hnot : validateCaptureRequest calls req s ≠ .ok s := fun heq =>
      h ((validateCaptureRequest_eq_ok calls req s).mp heq).1
    rw [validateCaptureRequest] at hnot ⊢
    split
    · rfl
    · rename_i hgood
      exact absurd (if_neg hgood) hnot
  refine processCaptureRequest_of_error ?_
  rw [prepareRequest, checkState_open calls hopen]
  change validateCaptureRequest calls req s >>= _ = _
  rw [hvalid]
  rfl

theorem processCaptureRequest_startError (hopen : s.Open) (h : Valid calls req s)
    {r : RequestExit × HardwareInterface} (hstart : startChannels calls s = .error r) :
    processCaptureRequest calls req s = r := by
  have hvalid := (validateCaptureRequest_eq_ok calls req s).mpr ⟨h, rfl⟩
  refine processCaptureRequest_of_error ?_
  rw [prepareRequest, checkState_open calls hopen]
  change validateCaptureRequest calls req s >>= (fun s => startChannels calls s >>= _) = _
  rw [hvalid]
  change startChannels calls s >>= _ = _
  rw [hstart]
  rfl

theorem LeftBefore.mState {r : RequestExit × HardwareInterface} (h : LeftBefore calls req s r) :
    r.2.mState = s.mState := by
  have hopened : s.opened.mState = s.mState := by rw [opened_eq]
  cases h with
  | start _ _ ht =>
    rw [ht]
    rfl
  | flushPerf => exact hopened
  | settings _ _ _ _ ht =>
    rw [ht]
    exact hopened
  | restart =>
    rw [reopened, notifyError_rest, ready_untouched]

theorem marked_mState {t : HardwareInterface}
    (ht : Marks (insertRequest req (listing calls req s)) t) : t.mState = s.mState := by
  rw [ht]
  exact (listing_rest calls req s).1

theorem stopped_iff_of_starts (hconf : s.mState = .configured) (hvalid : Valid calls req s) (hstarts : Starts calls s) :
    ((processCaptureRequest calls req s).2.mState ≠ .started →
      AllStopped (processCaptureRequest calls req s).2.channels) ↔ StartsCleanly calls req s := by
  have hopen : s.Open := .inl hconf
  have henter : Entering calls req s := ⟨hopen, hvalid, hstarts⟩
  obtain ⟨hdual, hm, ha, hs, hst, hr, hb⟩ := hstarts hconf
  have hclean : StartsCleanly calls req s ↔ s.mFlushPerf = false ∧ Prepares calls req s ∧
      ((Restarts calls req s ∧ calls.restart.metadata = false ∧ s.channels.handle = none) ∨
        ((Restarts calls req s → Reopens calls.restart s.channels) ∧ s.mFlush = false ∧ Ending calls req s)) := by
    constructor
    · intro h
      exact ((h hvalid hdual hm ha hs).2 hr).2
    · exact fun h _ _ _ _ _ => ⟨hst, fun _ => ⟨hb, h⟩⟩
  have hends := processCaptureRequest_ends calls req s hopen
  have hrunning {t : HardwareInterface} (hstate : t.mState = .configured) (hmeta : t.channels.metadata = true) :
      ¬ (t.mState ≠ .started → AllStopped t.channels) := fun h =>
    not_allStopped hmeta (h (by simp [hstate]))
  have hopened : s.opened.mState = .configured := by rw [opened_eq, hconf]
  have hmeta : s.opened.channels.metadata = true := by
    rw [opened_channels hconf]
    rfl
  -- where the lists take the request, the restart did not fail at the metadata channel
  have hmarked {t : HardwareInterface} (htakes : Takes calls req s)
      (ht : Marks (insertRequest req (listing calls req s)) t) :
      ¬ (t.mState ≠ .started → AllStopped t.channels) := by
    refine hrunning ?_ ?_
    · exact (marked_mState ht).trans hconf
    · rw [ht]
      exact listing_metadata htakes hconf
  have hreopens (htakes : Takes calls req s) :
      ¬ (Restarts calls req s ∧ calls.restart.metadata = false ∧ s.channels.handle = none) :=
    fun h => false_ne_true (h.2.1.symm.trans (htakes.2.2.2 h.1).1)
  rw [hclean]
  generalize processCaptureRequest calls req s = r at hends
  cases hends with
  | before hleft =>
    cases hleft with
    | start hnot => exact absurd henter hnot
    | flushPerf _ hperf =>
      refine iff_of_false (hrunning hopened hmeta) fun h => ?_
      exact false_ne_true (h.1.symm.trans hperf)
    | settings _ hperf hnot he ht =>
      refine iff_of_false (hrunning ?_ ?_) fun h => hnot h.2.1
      · rw [ht]
        exact hopened
      · rw [ht]
        exact hmeta
    | restart _ hperf hprep hrestart hnot =>
      have hstate : (reopened calls (ready calls req s)).mState = .configured := by
        rw [reopened, notifyError_rest, ready_untouched]
        exact hconf
      have hchannels : (reopened calls (ready calls req s)).channels = (startAllChannels calls.restart
            (stopAllChannels (startedChannels s.channels))).2 := by
        rw [reopened, ready_channels, opened_channels hconf]
      rcases startAllChannels_metadata calls.restart
        (stopAllChannels (startedChannels s.channels)) with ⟨heq, hm⟩ | ⟨heq, hm⟩
      · have hstopped := stopped_restart s.channels
        rw [← heq, ← hchannels] at hstopped
        simp only [hstate, hstopped, hperf, hprep, hrestart, hnot, hm]
        simp
      · refine iff_of_false (hrunning hstate (by rw [hchannels, heq])) fun h => ?_
        rcases h.2.2 with h | h
        · exact false_ne_true (h.2.1.symm.trans hm)
        · exact hnot (h.1 hrestart)
  | flush htakes hflush ht =>
    refine iff_of_false (hmarked htakes ht) fun h => ?_
    rcases h.2.2 with h | h
    · exact hreopens htakes h
    · exact false_ne_true (h.2.1.symm.trans hflush)
  | late htakes hflush hnot he ht =>
    refine iff_of_false (hmarked htakes ht) fun h => ?_
    rcases h.2.2 with h | h
    · exact hreopens htakes h
    · exact hnot h.2.2
  | accepted htakes hflush hend hstate hlive ht =>
    refine iff_of_true (fun h => absurd hstate h) ?_
    exact ⟨htakes.2.1, htakes.2.2.1, .inr ⟨htakes.2.2.2, hflush, hend⟩⟩

theorem stopped_iff_of_not_starts (hconf : s.mState = .configured) (hstop : AllStopped s.channels)
    (hvalid : Valid calls req s) (hstarts : ¬ Starts calls s) :
    ((processCaptureRequest calls req s).2.mState ≠ .started →
      AllStopped (processCaptureRequest calls req s).2.channels) ↔ StartsCleanly calls req s := by
  have hopen : s.Open := .inl hconf
  have hmeets := @startChannels_stopped calls s hconf hstop
  have hfails := Meets.of_eq_ok (startChannels_eq_ok calls s)
  cases hcase : startChannels calls s with
  | ok t => exact absurd (hfails.ok hcase).1 hstarts
  | error r =>
    have hchannels := hmeets.error hcase
    have hstate : r.2.mState = s.mState := by
      rw [((startChannels_error calls s).error hcase).2]
      rfl
    rw [processCaptureRequest_startError hopen hvalid hcase, hchannels, hstate, hconf]
    constructor
    · rintro h - hdual hm ha hs
      obtain ⟨hst, hraw⟩ := h (by simp) hdual hm ha hs
      exact ⟨hst, fun hr => absurd hr hraw⟩
    · rintro h - hdual hm ha hs
      obtain ⟨hst, hrest⟩ := h hvalid hdual hm ha hs
      exact ⟨hst, fun hr => hstarts fun _ => ⟨hdual, hm, ha, hs, hst, hr, (hrest hr).1⟩⟩

/-- **When a first request has stopped what it started**, unless it ends in `STARTED`. -/
theorem stopped_iff (hconf : s.mState = .configured) (hstop : AllStopped s.channels) :
    ((processCaptureRequest calls req s).2.mState ≠ .started →
      AllStopped (processCaptureRequest calls req s).2.channels) ↔ StartsCleanly calls req s := by
  by_cases hvalid : Valid calls req s
  · by_cases hstarts : Starts calls s
    · exact stopped_iff_of_starts hconf hvalid hstarts
    · exact stopped_iff_of_not_starts hconf hstop hvalid hstarts
  · rw [processCaptureRequest_invalid (.inl hconf) hvalid]
    exact ⟨fun _ h => absurd h hvalid, fun _ _ => hstop⟩

/-! ### The other events -/

/-- The channels that a configuration has made, none of them active. -/
def idle (c : HalChannels) : HalChannels where
  metadata := false
  analysis := c.analysis.map fun _ => false
  support := c.support.map fun _ => false
  streams := c.streams.map fun _ => false
  rawDump := c.rawDump.map fun _ => false
  handle := c.handle.map fun _ => false

/-- `configureStreams`: it stops the channels first, and where it fails the state stays. -/
def configureStreams (channels : HalChannels) (fails : Bool) (s : HardwareInterface) :
    HardwareInterface :=
  let s := s.setChannels (idle channels)
  if fails then s
  else
    match s.mState with
    | .initialized | .configured | .started =>
      { s with
        mState := .configured
        mPendingRequestsList := []
        mPendingFrameDropList := []
        mPendingBuffersMap := []
        mPendingReprocessResultList := [] }
    | _ => s

/-- `flush` of the device: it does its work in state `STARTED`. -/
def deviceFlush (answers : FlushAnswers) (s : HardwareInterface) : HardwareInterface :=
  match s.mState with
  | .started => (s.flush true answers).2
  | .error => s.handleCameraDeviceError answers
  | _ => s

/-- The events: a configuration, a request, the callbacks of the channels, the two flushes, and
the death of the daemon. -/
inductive StartEvent
  | configure (channels : HalChannels) (fails : Bool)
  | request (calls : RequestCalls) (req : CaptureRequest)
  | metadata (m : MetadataInfo)
  | buffer (b : StreamBuffer) (frameNumber : ℕ)
  | input (frameNumber : ℕ)
  | flush (answers : FlushAnswers)
  | flushPerfStart (flushed : Bool)
  | flushPerfEnd (failed : Bool)
  | daemonDied

/-- The state after an event. -/
def startStep (s : HardwareInterface) : StartEvent → HardwareInterface
  | .configure channels fails => s.configureStreams channels fails
  | .request calls req => (s.processCaptureRequest calls req).2
  | .metadata m => s.handleMetadataWithLock m
  | .buffer b frameNumber => s.handleBufferWithLock b frameNumber
  | .input frameNumber => s.handleInputBufferWithLock frameNumber
  | .flush answers => s.deviceFlush answers
  | .flushPerfStart flushed => (s.flushPerfStart flushed).2
  | .flushPerfEnd failed => s.flushPerfEnd failed
  | .daemonDied => { s with mState := .error }

/-- The condition on an event under which the channels stay started exactly in `STARTED`: no
configuration fails in `STARTED`, a first request starts the channels cleanly, a restart of the
sensor starts all channels again, `flush` does, and the daemon does not die. -/
def KeepsStarted (s : HardwareInterface) : StartEvent → Prop
  | .configure _ fails => fails = true → s.mState ≠ .started
  | .request calls req =>
    (s.mState = .configured → StartsCleanly calls req s) ∧
    (Entering calls req s → s.mFlushPerf = false → Prepares calls req s → Restarts calls req s →
      (s.mState = .started → Reopens calls.restart s.channels) ∧
      (Reopens calls.restart s.channels → s.channels.analysis.isSome → calls.restart.analysis = true))
  | .flush answers => s.mState = .started →
      answers.unlink = true ∧ answers.bundleInfo = true ∧ StartsAll answers.start s.channels
  | .daemonDied => False
  | _ => True

/-- The channels are started if and only if the state is `STARTED`. -/
structure StartInvariant (s : HardwareInterface) : Prop where
  state : s.mState ≠ .error
  started : s.mState = .started → AllStarted s.channels
  stopped : s.mState ≠ .started → AllStopped s.channels

/-- An event that changes neither the state nor the channels. -/
theorem StartInvariant.keep (h : StartInvariant s) {t : HardwareInterface}
    (hstate : t.mState = s.mState) (hchannels : t.channels = s.channels) : StartInvariant t := by
  refine ⟨hstate ▸ h.state, fun hs => ?_, fun hs => ?_⟩
  · rw [hchannels]
    exact h.started (hstate ▸ hs)
  · rw [hchannels]
    exact h.stopped (hstate ▸ hs)

theorem StartInvariant.handled (h : StartInvariant s) {t : HardwareInterface}
    (hh : Handled s t) : StartInvariant t := by
  refine h.keep hh.mState ?_
  rw [hh.rest]

theorem allStarted_restart {start : StartAnswers} {c : HalChannels} (hc : AllStarted c)
    (hreopens : Reopens start c) (hanalysis : c.analysis.isSome → start.analysis = true) :
    AllStarted (startAllChannels start (stopAllChannels c)).2 := by
  rw [startAllChannels_started ((reopens_stopAllChannels start c).mpr hreopens)]
  refine ⟨rfl, ?_, fun _ => map_const_active, by simp, fun _ => map_const_active, hc.handle⟩
  intro a ha
  simp only [stopAllChannels, map_map, mem_def, map_eq_some_iff] at ha
  obtain ⟨b, hb, rfl⟩ := ha
  simpa using hanalysis (by simp [hb])

theorem StartInvariant.configure (h : StartInvariant s) {channels : HalChannels} {fails : Bool}
    (hg : s.KeepsStarted (.configure channels fails)) :
    StartInvariant (s.configureStreams channels fails) := by
  have hidle : AllStopped (idle channels) :=
    ⟨rfl, fun _ => map_const_active, fun _ => map_const_active, by simp [idle],
      fun _ => map_const_active, fun _ => map_const_active⟩
  have hstopped {t : HardwareInterface} (hstate : t.mState ≠ .error) (hnot : t.mState ≠ .started)
      (hchannels : t.channels = idle channels) : StartInvariant t :=
    ⟨hstate, fun hs => absurd hs hnot, fun _ => hchannels ▸ hidle⟩
  rw [configureStreams]
  split
  · rename_i hfails
    exact hstopped h.state (hg hfails) rfl
  · dsimp only [setChannels]
    split
    · exact hstopped (by simp) (by simp) rfl
    · exact hstopped (by simp) (by simp) rfl
    · exact hstopped (by simp) (by simp) rfl
    · rename_i hstarted
      exact hstopped h.state (fun hs => hstarted hs) rfl

theorem StartInvariant.flush (h : StartInvariant s) {answers : FlushAnswers}
    (hg : s.KeepsStarted (.flush answers)) : StartInvariant (s.deviceFlush answers) := by
  rw [deviceFlush]
  split
  · rename_i hstate
    obtain ⟨hunlink, hinfo, hmeta, hanalysis, hsupport, hstreams, hraw, hbundle⟩ := hg hstate
    generalize hc : ({ stopAllChannels s.channels with
      handle := s.channels.handle.map fun _ => false } : HalChannels) = c
    have hreopens : Reopens answers.start c := by
      rw [← hc]
      refine ⟨hmeta, ?_, ?_, ?_⟩
      · simpa [stopAllChannels] using hstreams
      · simpa [stopAllChannels] using hsupport
      · simpa [stopAllChannels] using hraw
    have hnotify (t : HardwareInterface) : t.notifyErrorForPendingRequests.mState = t.mState ∧
        t.notifyErrorForPendingRequests.channels = t.channels := by
      rw [notifyError_rest]
      exact ⟨rfl, rfl⟩
    have hafter : (s.flush true answers).2.mState = .started ∧ (s.flush true answers).2.channels =
          { (startAllChannels answers.start c).2 with
            handle := (startAllChannels answers.start c).2.handle.map fun _ => answers.start.bundle } := by
      have hall := (startAllChannels_all _ _).mpr hreopens
      rw [HardwareInterface.flush]
      simp only [hunlink, hinfo, true_eq_false, if_false, if_true, setChannels, hnotify]
      rw [← hc] at hall ⊢
      split
      · rename_i hfalse
        exact absurd (hall.symm.trans hfalse) (by decide)
      · exact ⟨hstate, rfl⟩
    have hstarted : AllStarted (s.flush true answers).2.channels := by
      rw [hafter.2, startAllChannels_started hreopens, ← hc]
      refine ⟨rfl, ?_, fun _ => map_const_active, by simp, fun _ => map_const_active, ?_⟩
      · intro a ha
        simp only [stopAllChannels, map_map, mem_def, map_eq_some_iff] at ha
        obtain ⟨b, hb, rfl⟩ := ha
        simpa using hanalysis (by simp [hb])
      · intro a ha
        simp only [map_map, mem_def, map_eq_some_iff] at ha
        obtain ⟨b, hb, rfl⟩ := ha
        exact hbundle (by simp [hb])
    exact ⟨by simp [hafter.1], fun _ => hstarted, fun h => absurd hafter.1 h⟩
  · rename_i hstate
    exact absurd hstate h.state
  · exact h

/-- A request. -/
theorem StartInvariant.request (h : StartInvariant s) {calls : RequestCalls}
    {req : CaptureRequest} (hg : s.KeepsStarted (.request calls req)) :
    StartInvariant (s.processCaptureRequest calls req).2 := by
  by_cases hopen : s.Open
  · have hends := processCaptureRequest_ends calls req s hopen
    have hopened : AllStarted s.opened.channels := by
      rcases hopen with hstate | hstate
      · rw [opened_channels hstate]
        exact allStarted_startedChannels _
      · rw [opened, if_neg (by simp [hstate])]
        exact h.started hstate
    have hlisted (htakes : Takes calls req s) : AllStarted (listing calls req s).channels := by
      rw [listing_channels]
      split
      · rename_i hr
        have hreopens := htakes.2.2.2 hr
        refine allStarted_restart hopened ((reopens_opened s _).mpr hreopens) fun hsome => ?_
        refine (hg.2 htakes.1 htakes.2.1 htakes.2.2.1 hr).2 hreopens ?_
        rw [opened] at hsome
        split at hsome
        · simpa [startedChannels] using hsome
        · exact hsome
      · exact hopened
    rcases hopen with hconf | hstarted
    · have hstop := (@stopped_iff calls req s hconf (h.stopped (by simp [hconf]))).mpr (hg.1 hconf)
      have hstays {t : HardwareInterface} (hstate : t.mState = s.mState)
          (hstopped : t.mState ≠ .started → AllStopped t.channels) : StartInvariant t := by
        rw [hconf] at hstate
        exact ⟨by simp [hstate], fun hs => absurd (hstate.symm.trans hs) (by simp), hstopped⟩
      generalize processCaptureRequest calls req s = r at hends hstop
      cases hends with
      | before hleft => exact hstays hleft.mState hstop
      | flush _ _ ht => exact hstays (marked_mState ht) hstop
      | late _ _ _ _ ht => exact hstays (marked_mState ht) hstop
      | accepted htakes _ _ hstate _ ht =>
        refine ⟨by simp [hstate], fun _ => ?_, fun h => absurd hstate h⟩
        rw [ht.rest]
        exact hlisted htakes
    · have hkeeps {t : HardwareInterface} (hstate : t.mState = .started)
          (hchannels : AllStarted t.channels) : StartInvariant t :=
        ⟨by simp [hstate], fun _ => hchannels, fun h => absurd hstate h⟩
      by_cases hvalid : Valid calls req s
      · have henter : Entering calls req s :=
          ⟨.inr hstarted, hvalid, fun hconf => absurd (hconf.symm.trans hstarted) (by simp)⟩
        generalize processCaptureRequest calls req s = r at hends
        cases hends with
        | before hleft =>
          refine hkeeps (hleft.mState.trans hstarted) ?_
          cases hleft with
          | start hnot => exact absurd henter hnot
          | flushPerf => exact hopened
          | settings _ _ _ _ ht =>
            rw [ht]
            exact hopened
          | restart _ hperf hprep hr hnot =>
            exact absurd ((hg.2 henter hperf hprep hr).1 hstarted) hnot
        | flush htakes _ ht =>
          refine hkeeps ((marked_mState ht).trans hstarted) ?_
          rw [ht]
          exact hlisted htakes
        | late htakes _ _ _ ht =>
          refine hkeeps ((marked_mState ht).trans hstarted) ?_
          rw [ht]
          exact hlisted htakes
        | accepted htakes _ _ hstate _ ht =>
          refine hkeeps hstate ?_
          rw [ht.rest]
          exact hlisted htakes
      · rw [processCaptureRequest_invalid (.inr hstarted) hvalid]
        exact h
  · rw [processCaptureRequest_closed calls req s hopen, if_neg h.state]
    exact h

/-- **One event keeps the channels started exactly in `STARTED`**, if it meets the condition. -/
theorem StartInvariant.step (h : StartInvariant s) {e : StartEvent} (hg : s.KeepsStarted e) :
    StartInvariant (s.startStep e) := by
  have hnotify (t : HardwareInterface) : t.notifyErrorForPendingRequests.mState = t.mState ∧
      t.notifyErrorForPendingRequests.channels = t.channels := by
    rw [notifyError_rest]
    exact ⟨rfl, rfl⟩
  cases e with
  | configure channels fails => exact h.configure hg
  | request calls req => exact h.request hg
  | metadata m => exact h.handled (handled_metadata s m)
  | buffer b frameNumber =>
    cases hperf : s.mFlushPerf with
    | false => exact h.handled (handled_buffer s hperf b frameNumber)
    | true =>
      refine h.keep ?_ ?_
      · simp only [startStep, handleBufferWithLock, hperf, if_true, handleBuffersDuringFlushLock]
        split <;> first | rfl | (split <;> rfl)
      · simp only [startStep, handleBufferWithLock, hperf, if_true, handleBuffersDuringFlushLock]
        split <;> first | rfl | (split <;> rfl)
  | input frameNumber => exact h.handled (handled_inputBuffer s frameNumber)
  | flush answers => exact h.flush hg
  | flushPerfStart flushed =>
    refine h.keep ?_ ?_
    · simp only [startStep, flushPerfStart]
      split <;> rfl
    · simp only [startStep, flushPerfStart]
      split <;> rfl
  | flushPerfEnd failed =>
    cases failed with
    | true => exact h.keep rfl rfl
    | false => exact h.keep (hnotify s).1 (hnotify s).2
  | daemonDied => exact hg.elim

/-- The steps of the HAL and its channels. -/
def starting (s : HardwareInterface) (e : StartEvent) (t : HardwareInterface) : Prop :=
  s.startStep e = t

/-- **The first request.** In state `CONFIGURED`, with all channels stopped, a call that does not
end in `STARTED` leaves all channels stopped exactly under `StartsCleanly`. In every run whose
events meet `KeepsStarted`, all channels are started if the state is `STARTED`, and stopped if
not. -/
theorem first_request {calls : RequestCalls} {req : CaptureRequest} {hal : HardwareInterface}
    (hconf : hal.mState = .configured) (hstop : AllStopped hal.channels)
    {s t : HardwareInterface} {es : List StartEvent}
    (hstate : s.mState = .initialized ∨ s.mState = .configured) (hs : AllStopped s.channels)
    (h : Run (guarded KeepsStarted starting) s es t) :
    (((hal.processCaptureRequest calls req).2.mState ≠ .started →
      AllStopped (hal.processCaptureRequest calls req).2.channels) ↔ StartsCleanly calls req hal) ∧
    (AllStarted t.channels ↔ t.mState = .started) ∧
    (t.mState ≠ .started → AllStopped t.channels) := by
  have hinit : StartInvariant s := by
    refine ⟨?_, fun hst => ?_, fun _ => hs⟩
    · rcases hstate with h | h <;> simp [h]
    · rcases hstate with h | h <;> simp [h] at hst
  have hinv : StartInvariant t := by
    refine h.invariant (I := StartInvariant) ?_ hinit
    rintro u e v hu ⟨hg, rfl⟩
    exact hu.step hg
  refine ⟨stopped_iff hconf hstop, ⟨fun hall => ?_, hinv.started⟩, hinv.stopped⟩
  by_contra hnot
  exact not_allStopped hall.metadata (hinv.stopped hnot)

/-- A HAL with one stream channel, after its configuration. -/
def oneStream : HardwareInterface where
  channels := { streams := [false], handle := some false }

theorem oneStream_stopped : AllStopped oneStream.channels := by
  constructor <;> simp [oneStream]

/-- The first request, with one output. -/
def oneOutput : CaptureRequest where
  frameNumber := 1
  outputs := [{ stream := 0, buffer := 11 }]
  requestId := some 1

/-- A request whose calls all succeed is accepted, and one whose bundle does not start leaves
channels started. -/
theorem first_request_started : Run (guarded KeepsStarted starting) oneStream [.request {} oneOutput]
      (oneStream.processCaptureRequest {} oneOutput).2 ∧
    (((oneStream.processCaptureRequest { start := { bundle := false } } oneOutput).2.mState ≠ .started → AllStopped
        (oneStream.processCaptureRequest { start := { bundle := false } } oneOutput).2.channels) ↔
      StartsCleanly { start := { bundle := false } } oneOutput oneStream) ∧
    (AllStarted (oneStream.processCaptureRequest {} oneOutput).2.channels ↔
      (oneStream.processCaptureRequest {} oneOutput).2.mState = .started) ∧
    ((oneStream.processCaptureRequest {} oneOutput).2.mState ≠ .started →
      AllStopped (oneStream.processCaptureRequest {} oneOutput).2.channels) := by
  have hrestarts : ¬ Restarts {} oneOutput oneStream := fun h => absurd h.2 (by decide)
  have hprepares : Prepares {} oneOutput oneStream :=
    ⟨fun h => absurd h (by decide), by decide, fun _ => rfl, fun _ => rfl⟩
  have hending : Ending {} oneOutput oneStream :=
    ⟨fun _ => rfl, fun _ _ => rfl, by decide, fun _ _ => rfl⟩
  have hclean : StartsCleanly {} oneOutput oneStream := by
    rintro - - - - -
    refine ⟨fun _ _ => rfl, fun _ => ⟨fun _ => rfl, rfl, hprepares, .inr ⟨?_, rfl, hending⟩⟩⟩
    exact fun h => absurd h hrestarts
  have hrun : Run (guarded KeepsStarted starting) oneStream [.request {} oneOutput]
      (oneStream.processCaptureRequest {} oneOutput).2 :=
    Run.single ⟨⟨fun _ => hclean, fun _ _ _ h => absurd h hrestarts⟩, rfl⟩
  exact ⟨hrun, first_request rfl oneStream_stopped (.inr rfl) oneStream_stopped hrun⟩

/-- The stream channel does not start: the call is rejected in state `CONFIGURED`, and the metadata
channel stays started. -/
theorem first_request_halfway : oneStream.mState = .configured ∧ AllStopped oneStream.channels ∧
    ∃ calls t, Run starting oneStream [.request calls oneOutput] t ∧
      (oneStream.processCaptureRequest calls oneOutput).1 = .rejected .streamStart ∧
      t.mState = .configured ∧ t.channels.metadata = true ∧ ¬ AllStopped t.channels := by
  refine ⟨rfl, oneStream_stopped, { start := { stream := fun _ => false } }, _, Run.single rfl,
    by decide, by decide, by decide, not_allStopped (by decide)⟩

end HardwareInterface

end Marlin
