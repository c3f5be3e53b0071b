import Marlin.StreamFsm

/-!
# Starting and Stopping a Channel

`mm_channel_start` prepares the bundle of the channel and starts its streams, the metadata
stream first. A stream that was linked from another channel is only told of the link. When a
stream fails, the streams so far are rolled back and the bundle is taken down;
`mm_channel_stop` takes down a channel that runs.

The error path clears the whole super-buffer queue with the attributes that `mm_channel_init`
stored in it, where `mm_channel_stop` resets a few fields.

## Main results

* `startStreams_rollback`: what is left of the streams when one of them fails.
* `channelStart_rollback`: the streams are as before unless one failed with some of its
  buffers in the kernel.
* `channelStart_attr`: after a failed start the attributes are those of the channel only if
  all of them were zero.
-/

namespace Marlin

open StreamSlot List

/-- `mm_channel_bundle_t`. `superBufNotifyCb` says whether a callback is registered. -/
structure MmChannelBundle where
  superBufNotifyCb : Bool
  isActive : Bool := false
  superbufQueue : MmChannelQueue := {}
  deriving DecidableEq

/-- A channel with its streams, in the order of their slots, and whether it is registered for
the frame sync. -/
structure ChannelSlots where
  myHdl : ℕ
  bundle : MmChannelBundle
  slots : List StreamSlot
  bWaitForPrepSnapshotDone : Bool := false
  frameSync : Bool := false
  deriving DecidableEq

namespace StreamSlot

/-- The stream belongs to the channel and was not linked into it. -/
def isOwned (hdl : ℕ) (s : StreamSlot) : Bool := s.stream.chObj == hdl

/-- `stream_info->noFrameExpected`. -/
def noFrameExpected (s : StreamSlot) : Bool :=
  (s.stream.streamInfo.map CamStreamInfo.noFrameExpected).getD false

/-- `mm_channel_start` marks a stream as bundled, or tells it of its link. -/
def prepare (hdl : ℕ) (bundles : Bool) (s : StreamSlot) : StreamSlot :=
  if s.isOwned hdl then
    if bundles && !s.noFrameExpected then { s with stream.isBundled := true } else s
  else { s with stream.linkedStream := some { linkedObj := some hdl, isLinked := true } }

/-- A linked stream is unlinked and its copy in the channel cleared with `memset`. -/
def releaseLinked (hdl : ℕ) (s : StreamSlot) : StreamSlot :=
  if s.isOwned hdl then s
  else { stream := { myHdl := 0, state := .notUsed, streamInfo := none, chObj := 0 } }

end StreamSlot

namespace ChannelSlots

/-- The streams in the order they are started: the metadata stream changes places with the
first one. -/
def startOrder (c : ChannelSlots) : List StreamSlot :=
  let isMeta := fun (p : StreamSlot × ℕ) =>
    p.1.isOwned c.myHdl && p.1.stream.streamInfo.map CamStreamInfo.streamType == some .metadata
  match (c.slots.zipIdx.filter isMeta).getLast?, c.slots with
  | some (s, i + 1), first :: _ => (c.slots.set 0 s).set (i + 1) first
  | _, _ => c.slots

/-- `mm_channel_start` prepares the super-buffer queue. -/
def initQueue (c : ChannelSlots) : MmChannelQueue :=
  { c.bundle.superbufQueue with
    que := []
    size := 0
    bundledStreams := (c.startOrder.filter fun s => !s.noFrameExpected).map fun s => s.stream.myHdl
    expectedFrameId := c.bundle.superbufQueue.attr.userExpectedFrameId
    expectedFrameIdWithoutLed := 0
    ledOffStartFrameId := 0
    ledOnStartFrameId := 0
    ledOnNumFrames := 0
    goodFrameId := 0 }

/-- The bundle of a channel that is being started. -/
def startBundle (c : ChannelSlots) : MmChannelBundle :=
  if c.bundle.superBufNotifyCb then
    { c.bundle with isActive := true, superbufQueue := c.initQueue }
  else c.bundle

/-- The loop of `mm_channel_start` that starts the streams of channel `hdl`, with the index of
the one that failed. -/
def startStreams (calls : ℕ → StartCalls) (hdl : ℕ) : List StreamSlot → List StreamSlot × Option ℕ
  | [] => ([], none)
  | s :: rest =>
    if s.isOwned hdl then
      match s.startStream (calls s.stream.myHdl) with
      | (false, s) => (s :: rest, some 0)
      | (true, s) =>
        let r := startStreams calls hdl rest
        (s :: r.1, r.2.map (· + 1))
    else
      let r := startStreams calls hdl rest
      (s :: r.1, r.2.map (· + 1))

/-- The loop of the error path over the streams up to index `i`. -/
def rollbackStreams (calls : ℕ → StartCalls) (hdl : ℕ) : ℕ → List StreamSlot → List StreamSlot
  | _, [] => []
  | 0, s :: rest => (if s.isOwned hdl then s.rollback (calls s.stream.myHdl) else s) :: rest
  | i + 1, s :: rest =>
    (if s.isOwned hdl then s.rollback (calls s.stream.myHdl) else s) :: rollbackStreams calls hdl i rest

/-- The end of `mm_channel_start`. -/
def finishStart (c : ChannelSlots) : ChannelSlots :=
  { c with
    bWaitForPrepSnapshotDone := false
    frameSync := c.bundle.superbufQueue.attr.enableFrameSync || c.frameSync }

/-- `mm_channel_start`. The super-buffer queue holds no buffers yet when the error path
flushes it. -/
def channelStart (calls : ℕ → StartCalls) (c : ChannelSlots) : Bool × ChannelSlots :=
  let bundle := c.startBundle
  let slots := c.startOrder.map (StreamSlot.prepare c.myHdl c.bundle.superBufNotifyCb)
  match startStreams calls c.myHdl slots with
  | (slots, none) => (true, { c with bundle := bundle, slots := slots }.finishStart)
  | (slots, some i) =>
    let slots := slots.map (StreamSlot.releaseLinked c.myHdl)
    let slots := rollbackStreams calls c.myHdl i slots
    let bundle := if bundle.isActive then
      { bundle with isActive := false, superbufQueue := {} } else bundle
    (false, { c with bundle := bundle, slots := slots }.finishStart)

/-- `mm_channel_stop` on the bundle: the queue is flushed and a few fields are reset. -/
def stopBundle (b : MmChannelBundle) : MmChannelBundle :=
  if b.isActive then
    { b with
      isActive := false
      superbufQueue.que := []
      superbufQueue.size := 0
      superbufQueue.expectedFrameId := 0
      superbufQueue.goodFrameId := 0
      superbufQueue.matchCnt := 0 }
  else b

/-- `mm_channel_stop`. What it does with one stream does not depend on the others, so their
order, with the metadata stream last, is not modelled. -/
def channelStop (calls : ℕ → StartCalls) (c : ChannelSlots) : ChannelSlots :=
  let stop := fun (s : StreamSlot) =>
    if s.isOwned c.myHdl then s.rollback (calls s.stream.myHdl) else s.releaseLinked c.myHdl
  { c with
    slots := c.slots.map stop
    bundle := stopBundle c.bundle
    frameSync := !c.bundle.superbufQueue.attr.enableFrameSync && c.frameSync }

/-! ### What is left of the streams -/

/-- No stream that the start comes to fails with some of its buffers in the kernel. -/
def NoneFailsHalfway (calls : ℕ → StartCalls) (hdl : ℕ) : List StreamSlot → Prop
  | [] => True
  | s :: rest =>
    if s.isOwned hdl then
      ¬ (calls s.stream.myHdl).failsHalfway ∧ ((calls s.stream.myHdl).startsOk → NoneFailsHalfway calls hdl rest)
    else NoneFailsHalfway calls hdl rest

/-- All streams of the channel are clean. -/
def AllClean (hdl : ℕ) (slots : List StreamSlot) : Prop :=
  ∀ s ∈ slots, s.isOwned hdl = true → s.Clean

variable {hdl : ℕ}

theorem allClean_cons {s : StreamSlot} {rest : List StreamSlot} :
    AllClean hdl (s :: rest) ↔ (s.isOwned hdl = true → s.Clean) ∧ AllClean hdl rest := by
  simp [AllClean]

theorem AllClean.releaseLinked {slots : List StreamSlot} (h : AllClean hdl slots)
    (hhdl : hdl ≠ 0) : AllClean hdl (slots.map (StreamSlot.releaseLinked hdl)) := by
  intro t ht hown
  obtain ⟨s, hs, rfl⟩ := mem_map.mp ht
  by_cases hsown : s.isOwned hdl = true
  · rw [StreamSlot.releaseLinked, if_pos hsown] at hown ⊢
    exact h s hs hown
  · rw [StreamSlot.releaseLinked, if_neg hsown] at hown
    simp [isOwned, Ne.symm hhdl] at hown

variable {calls : ℕ → StartCalls}

/-- **What is left when a stream fails**: the streams are clean again if and only if none of
those the start came to failed with some of its buffers in the kernel. -/
theorem startStreams_rollback {i : ℕ} {slots slots' : List StreamSlot} (hhdl : hdl ≠ 0) (hclean : AllClean hdl slots)
    (hfail : startStreams calls hdl slots = (slots', some i)) :
    AllClean hdl (rollbackStreams calls hdl i (slots'.map (StreamSlot.releaseLinked hdl))) ↔
      NoneFailsHalfway calls hdl slots := by
  induction slots generalizing slots' i with
  | nil => cases hfail
  | cons s rest ih =>
    obtain ⟨hs, hrest⟩ := allClean_cons.mp hclean
    by_cases hown : s.isOwned hdl = true
    · simp only [startStreams, if_pos hown] at hfail
      simp only [NoneFailsHalfway, if_pos hown]
      obtain ⟨hok, hback, hch⟩ := @StreamSlot.Clean.startStream (calls s.stream.myHdl) s (hs hown)
      rcases hr : s.startStream (calls s.stream.myHdl) with ⟨ok, t⟩
      simp only [hr] at hok hback hch hfail
      have htown : t.isOwned hdl = true := by simpa [isOwned, hch] using hown
      have hhead : ∀ c, (t.rollback c).isOwned hdl = true ∧
          ((t.rollback c).Clean ↔ ¬ (calls s.stream.myHdl).failsHalfway) := by
        intro c
        rw [rollback_eq c (calls s.stream.myHdl) t, hback]
        exact ⟨by simpa [isOwned, rollback_chObj] using htown, Iff.rfl⟩
      cases ok with
      | false =>
        obtain ⟨rfl, hi⟩ := Prod.mk.inj hfail
        cases hi
        obtain ⟨howned, hiff⟩ := hhead (calls t.stream.myHdl)
        have hnot : ¬ (calls s.stream.myHdl).startsOk := fun h => by cases hok.mpr h
        simp only [map_cons, releaseLinked, if_pos htown, rollbackStreams,
          allClean_cons, howned, hiff, true_imp_iff, hnot, false_imp_iff, and_true]
        exact and_iff_left (hrest.releaseLinked hhdl)
      | true =>
        obtain ⟨rfl, hi⟩ := Prod.mk.inj hfail
        obtain ⟨j, hj, rfl⟩ := Option.map_eq_some_iff.mp hi
        obtain ⟨howned, hiff⟩ := hhead (calls t.stream.myHdl)
        have hrec := ih hrest (Prod.ext rfl hj)
        simp only [map_cons, releaseLinked, if_pos htown, rollbackStreams,
          allClean_cons, howned, hiff, true_imp_iff, hok.mp rfl]
        exact and_congr_right fun _ => hrec
    · simp only [startStreams, if_neg hown] at hfail
      simp only [NoneFailsHalfway, if_neg hown]
      obtain ⟨rfl, hi⟩ := Prod.mk.inj hfail
      obtain ⟨j, hj, rfl⟩ := Option.map_eq_some_iff.mp hi
      have hrec := ih hrest (Prod.ext rfl hj)
      have hcleared : (s.releaseLinked hdl).isOwned hdl = false := by
        rw [releaseLinked, if_neg hown]
        simp [isOwned, Ne.symm hhdl]
      simp only [map_cons, rollbackStreams, allClean_cons, hcleared, Bool.false_eq_true,
        if_false, false_imp_iff, true_and]
      exact hrec

theorem startOrder_perm (c : ChannelSlots) : c.startOrder.Perm c.slots := by
  simp only [startOrder]
  split
  · rename_i s i first rest hlast hslots
    have hmeta := mem_of_getLast? hlast
    obtain ⟨-, hlt, hs⟩ := mem_zipIdx (mem_filter.mp hmeta).1
    simp only [Nat.zero_add, Nat.sub_zero] at hlt hs
    have hfirst : first = c.slots[0] := by simp [hslots]
    rw [hs, hfirst]
    exact set_set_perm (by omega) hlt
  · exact List.Perm.refl _

theorem prepare_frame (hdl : ℕ) (bundles : Bool) (s : StreamSlot) :
    (s.prepare hdl bundles).isOwned hdl = s.isOwned hdl ∧ (s.prepare hdl bundles).stream.myHdl = s.stream.myHdl := by
  simp only [prepare]
  split
  · split <;> exact ⟨rfl, rfl⟩
  · exact ⟨rfl, rfl⟩

theorem prepare_clean {bundles : Bool} {s : StreamSlot} (h : s.Clean) : (s.prepare hdl bundles).Clean := by
  obtain ⟨hstate, hinfo, hkernel, hpolled, hbuf⟩ := h
  simp only [prepare]
  split
  · split <;> exact ⟨hstate, hinfo, hkernel, hpolled, hbuf⟩
  · exact ⟨hstate, hinfo, hkernel, hpolled, hbuf⟩

theorem noneFailsHalfway_prepare (bundles : Bool) (slots : List StreamSlot) :
    NoneFailsHalfway calls hdl (slots.map (StreamSlot.prepare hdl bundles)) ↔ NoneFailsHalfway calls hdl slots := by
  induction slots with
  | nil => exact Iff.rfl
  | cons s rest ih =>
    obtain ⟨hown, hhdl⟩ := prepare_frame hdl bundles s
    simp only [map_cons, NoneFailsHalfway, hown, hhdl, ih]

variable {c : ChannelSlots}

theorem channelStart_failed (hfail : (channelStart calls c).1 = false) : ∃ slots i, startStreams calls c.myHdl
        (c.startOrder.map (StreamSlot.prepare c.myHdl c.bundle.superBufNotifyCb)) = (slots, some i) ∧
      (channelStart calls c).2.slots = rollbackStreams calls c.myHdl i (slots.map (StreamSlot.releaseLinked c.myHdl)) ∧
      (channelStart calls c).2.bundle =
        if c.startBundle.isActive then
          { c.startBundle with isActive := false, superbufQueue := {} } else c.startBundle := by
  simp only [channelStart] at hfail ⊢
  split at hfail
  · cases hfail
  · rename_i slots i heq
    exact ⟨slots, i, heq, rfl, rfl⟩

/-- **A failed start leaves the streams as they were** if and only if no stream that it comes
to fails with some of its buffers in the kernel. -/
theorem channelStart_rollback {calls : ℕ → StartCalls} {c : ChannelSlots}
    (hhdl : c.myHdl ≠ 0) (hclean : AllClean c.myHdl c.slots)
    (hfail : (channelStart calls c).1 = false) :
    AllClean c.myHdl (channelStart calls c).2.slots ↔ NoneFailsHalfway calls c.myHdl c.startOrder := by
  obtain ⟨slots, i, hloop, hslots, -⟩ := channelStart_failed hfail
  have hprepared : AllClean c.myHdl (c.startOrder.map (prepare c.myHdl c.bundle.superBufNotifyCb)) := by
    intro t ht hown
    obtain ⟨s, hs, rfl⟩ := mem_map.mp ht
    rw [(prepare_frame _ _ s).1] at hown
    exact prepare_clean (hclean s (c.startOrder_perm.mem_iff.mp hs) hown)
  rw [hslots, startStreams_rollback hhdl hprepared hloop, noneFailsHalfway_prepare]

/-- A configured stream of channel 1024. -/
def configured (hdl : ℕ) (type : CamStreamType) : StreamSlot :=
  { stream :=
      { myHdl := hdl, state := .cfg, streamInfo := some { streamType := type }, chObj := 1024 } }

/-- The channel of a preview with its metadata. -/
def previewChannel : ChannelSlots :=
  { myHdl := 1024
    bundle :=
      { superBufNotifyCb := true
        superbufQueue.attr := { notifyMode := .continuous, waterMark := 1 } }
    slots := [configured 257 .preview, configured 258 .metadata] }

/-- Two buffers for each stream; the kernel takes buffer 1 if `second`. -/
def twoBuffers (second mapped : Bool) : StartCalls where
  getBufs := some [(⟨0, .preview, 0, none⟩, true), (⟨0, .preview, 1, none⟩, true)]
  requestBufs := true
  qbuf i := i == 0 || second
  mapped := mapped
  streamOn := true
  moduleStreamOn := true

theorem previewChannel_clean : AllClean previewChannel.myHdl previewChannel.slots := by
  intro s hs _
  simp only [previewChannel, mem_cons, not_mem_nil, or_false] at hs
  rcases hs with rfl | rfl <;> exact ⟨rfl, rfl, rfl, rfl, rfl⟩

/-- The metadata stream is started, and the mapping of the preview fails. -/
theorem channelStart_rollback_sample :
    (channelStart (fun hdl => twoBuffers true (hdl == 258)) previewChannel).1 = false ∧
      AllClean 1024 (channelStart (fun hdl => twoBuffers true (hdl == 258))
        previewChannel).2.slots := by
  have hfail : (channelStart (fun hdl => twoBuffers true (hdl == 258)) previewChannel).1 =
      false := by decide
  refine ⟨hfail, (channelStart_rollback (by decide) previewChannel_clean hfail).mpr ?_⟩
  have hno : ∀ mapped, ¬ (twoBuffers true mapped).failsHalfway := by
    rintro mapped ⟨-, -, i, -, hq⟩
    simp [twoBuffers] at hq
  have horder : previewChannel.startOrder =
      [configured 258 .metadata, configured 257 .preview] := by decide
  rw [horder]
  exact ⟨hno _, fun _ => ⟨hno _, fun _ => trivial⟩⟩

/-- The kernel takes the first buffer of the metadata stream and refuses the second: the first
one stays in the kernel, and the stream is polled. -/
theorem channelStart_leaves_buffer : ¬ ∀ (calls : ℕ → StartCalls) (c : ChannelSlots), c.myHdl ≠ 0 →
      AllClean c.myHdl c.slots → (channelStart calls c).1 = false →
      AllClean c.myHdl (channelStart calls c).2.slots := by
  intro hall
  have hclean := hall (fun _ => twoBuffers false true) previewChannel (by decide)
    previewChannel_clean (by decide)
  have hslots : ∃ s ∈ (channelStart (fun _ => twoBuffers false true) previewChannel).2.slots,
      s.isOwned 1024 = true ∧ s.kernel = [0] ∧ s.polled = true := by decide
  obtain ⟨s, hs, hown, hkernel, -⟩ := hslots
  rw [(hclean s hs hown).kernel] at hkernel
  cases hkernel

/-! ### The bundle attributes -/

theorem channelStart_succeeded (hok : (channelStart calls c).1 = true) :
    (channelStart calls c).2.bundle = c.startBundle := by
  simp only [channelStart] at hok ⊢
  split
  · rfl
  · rename_i heq
    rw [heq] at hok
    cases hok

theorem startBundle_attr (c : ChannelSlots) : c.startBundle.superbufQueue.attr = c.bundle.superbufQueue.attr := by
  simp only [startBundle]
  split <;> rfl

/-- **A failed start loses the attributes**: a later start that succeeds runs with the
attributes of the channel if and only if all of them are zero. -/
theorem channelStart_attr {calls calls' : ℕ → StartCalls} {c : ChannelSlots}
    (hcb : c.bundle.superBufNotifyCb = true) (hfail : (channelStart calls c).1 = false)
    (hok : (channelStart calls' (channelStart calls c).2).1 = true) :
    (channelStart calls' (channelStart calls c).2).2.bundle.superbufQueue.attr =
        c.bundle.superbufQueue.attr ↔
      c.bundle.superbufQueue.attr = {} := by
  obtain ⟨slots, i, -, -, hbundle⟩ := channelStart_failed hfail
  have hactive : c.startBundle.isActive = true := by simp only [startBundle, hcb, if_true]
  rw [if_pos hactive] at hbundle
  rw [channelStart_succeeded hok, startBundle_attr, hbundle]
  exact eq_comm

/-- A channel without attributes, whose first start fails. -/
theorem channelStart_attr_sample : ∃ c : ChannelSlots, c.bundle.superBufNotifyCb = true ∧
      (channelStart (fun _ => twoBuffers true false) c).1 = false ∧
      (channelStart (fun _ => twoBuffers true true)
        (channelStart (fun _ => twoBuffers true false) c).2).2.bundle.superbufQueue.attr =
          c.bundle.superbufQueue.attr := by
  refine ⟨{ previewChannel with bundle := { superBufNotifyCb := true } }, rfl, by decide, ?_⟩
  exact (channelStart_attr rfl (by decide) (by decide)).mpr rfl

/-- The preview channel is in continuous mode; when the mapping fails once, its next start
runs in burst mode. -/
theorem channelStart_loses_attr : ¬ ∀ (calls calls' : ℕ → StartCalls) (c : ChannelSlots),
      c.bundle.superBufNotifyCb = true → (channelStart calls c).1 = false →
      (channelStart calls' (channelStart calls c).2).1 = true →
      (channelStart calls' (channelStart calls c).2).2.bundle.superbufQueue.attr = c.bundle.superbufQueue.attr := by
  intro hall
  have hattr := hall (fun _ => twoBuffers true false) (fun _ => twoBuffers true true)
    previewChannel rfl (by decide) (by decide)
  have hzero : (channelStart (fun _ => twoBuffers true true)
      (channelStart (fun _ => twoBuffers true false) previewChannel).2).2.bundle.superbufQueue.attr
        = {} := by decide
  rw [hzero] at hattr
  cases hattr

end ChannelSlots

end Marlin
