import Marlin.OldestFrame
import Marlin.YuvBypass

/-!
# The Callbacks of a YUV Channel

What a callback has still to return is between the frames that were returned and those of the list. A callback
takes frames from the head of the list only, and returns them first to last; while it does no other thread may
take any. So the frames that are outstanding stay in the order of their requests.

## Main results

* `Invariant`: what holds in every run that meets the condition.
* `Invariant.turn`, `Invariant.streamCbRoutine`, `Invariant.reprocessCbRoutine`: the callbacks preserve it.
-/

open List Function Option Transition

namespace Marlin

namespace YuvBypass

namespace YuvChannel

/-! ### What the callbacks still have to return -/

/-- The frames that a callback has. -/
def frames (d : Delivery) : List SuperBuf :=
  (match d.current with
    | .look b => [b]
    | _ => []) ++ d.pending

/-- What a callback still has to return. -/
def inHand (m : StreamMem) (d : Delivery) : List FrameBuffer :=
  (d.issue.toList.map fun job => ⟨some job.output, job.frameNumber⟩) ++ (frames d).map fun b => frameBuffer m b.bufIdx

/-- The frames that were requested and not returned. -/
def outstanding (s : YuvChannel) : List FrameBuffer :=
  inHand s.mMemory (s.delivery .stream) ++ inHand s.mMemory (s.delivery .reprocess) ++
    s.mOfflinePpInfoList.map PpInfo.result

/-- The outstanding frames whose buffer of the framework has their number. -/
def Framed (s : YuvChannel) (r : FrameBuffer) : Prop :=
  (∃ c, ∃ b ∈ frames (s.delivery c), frameBuffer s.mMemory b.bufIdx = r) ∨
    ∃ e ∈ s.mOfflinePpInfoList, e.offlinePpFlag = false ∧ e.result = r

/-- No other thread returns frames. -/
def Alone (s : YuvChannel) (t : CallbackThread) : Prop := ∀ t', t' ≠ t → s.delivery t' = {}

variable {s t : YuvChannel}

variable {i : ℕ}

theorem frameBuffer_congr {m m' : StreamMem} (h : m'.gralloc i = m.gralloc i) : frameBuffer m' i = frameBuffer m i := by
  rw [frameBuffer, frameBuffer, h]

theorem inHand_congr {m m' : StreamMem} {d : Delivery}
    (h : ∀ b ∈ frames d, m'.gralloc b.bufIdx = m.gralloc b.bufIdx) : inHand m' d = inHand m d := by
  rw [inHand, inHand]
  congr 1
  exact map_congr_left fun b hb => frameBuffer_congr (h b hb)

variable {c : CallbackThread}

/-- The outstanding frames where one thread returns frames. -/
theorem Alone.outstanding (h : s.Alone c) :
    s.outstanding = inHand s.mMemory (s.delivery c) ++ s.mOfflinePpInfoList.map PpInfo.result := by
  cases c with
  | stream => rw [YuvChannel.outstanding, h .reprocess (by decide)]; exact congrArg (· ++ _) (append_nil _)
  | reprocess => rw [YuvChannel.outstanding, h .stream (by decide)]; rfl

theorem Alone.setDelivery (h : s.Alone c) (d : Delivery) : (s.setDelivery c d).Alone c :=
  fun c' hne => (update_of_ne hne ..).trans (h c' hne)

@[simp] theorem setDelivery_self (s : YuvChannel) (c : CallbackThread) (d : Delivery) :
    (s.setDelivery c d).delivery c = d := update_self ..

/-! ### The invariant -/

/-- What holds in every run that meets the condition. -/
structure Invariant (s : YuvChannel) : Prop where
  ordered : Ordered s.returned s.outstanding s.requested s.last
  capacity : s.mMemory.heap.length ≤ s.mMemory.mMaxHeapBuffers
  marked : Marked s.mMemory s.Framed
  heap : HeapMarks s.mMemory.heap s.mFreeHeapBufferList s.mOfflinePpInfoList
  located : Located s.mMemory s.mOfflinePpInfoList s.camera s.jobs
  perFrame : s.channel.mPerFrameMapUnmapEnable = true
  inSequence : s.channel.mOutOfSequenceBuffers = []
  alone : ∃ c, s.Alone c
  phase : ∀ c, (s.delivery c).current ≠ .next
  settled : ∀ e ∈ s.mOfflinePpInfoList.head?, e.callback_buffer ≠ none → ∃ c, (s.delivery c).again = true

theorem invariant_init (mMaxHeapBuffers : ℕ) (width height : ℤ) : (init mMaxHeapBuffers width height).Invariant where
  ordered := ⟨rfl, List.Pairwise.nil, fun _ => nofun⟩
  capacity := Nat.zero_le _
  marked := ⟨fun _ _ => nofun, fun _ _ => nofun, fun _ _ _ _ => nofun⟩
  heap := ⟨fun _ _ => nofun, fun _ _ _ _ => nofun, fun _ => rfl⟩
  located := ⟨nodup_nil, fun _ => nofun, fun _ => nofun, fun _ => nofun, nodup_nil, fun _ => nofun, nodup_nil⟩
  perFrame := rfl
  inSequence := rfl
  alone := ⟨.stream, fun _ _ => rfl⟩
  phase := fun _ => nofun
  settled := fun _ => nofun

theorem Invariant.exact (h : s.Invariant) : Exact s.mMemory :=
  exact_of_marks h.marked h.heap h.capacity

variable {e : PpInfo}

theorem mem_outstanding (he : e ∈ s.mOfflinePpInfoList) : e.result ∈ s.outstanding :=
  mem_append_right _ (mem_map_of_mem he)

theorem Invariant.bound (h : s.Invariant) (he : e ∈ s.mOfflinePpInfoList) : e.frameNumber < 2 ^ 31 := by
  have hnumber := (h.ordered.number _ (h.ordered.mem_requested (mem_outstanding he))).2.1
  change (e.frameNumber : ℤ) < 2 ^ 31 at hnumber
  omega

theorem Invariant.alone_of_busy (h : s.Invariant) (hbusy : s.delivery c ≠ {}) : s.Alone c := by
  obtain ⟨c', hc'⟩ := h.alone
  obtain rfl : c = c' := by
    by_contra hne
    exact hbusy (hc' c hne)
  exact hc'

variable {b : SuperBuf}

theorem Alone.eq_of_mem {c' : CallbackThread} (hc : s.Alone c) (hb : b ∈ frames (s.delivery c')) : c' = c := by
  by_contra hne
  rw [hc c' hne] at hb
  cases hb

theorem Alone.phase (hc : s.Alone c) (h : (s.delivery c).current ≠ .next) (c' : CallbackThread) :
    (s.delivery c').current ≠ .next := by
  by_cases hcc : c' = c
  · exact hcc ▸ h
  · rw [hc c' hcc]
    nofun

theorem Invariant.again (h : s.Invariant) (hc : s.Alone c)
    (he : e ∈ s.mOfflinePpInfoList.head?) (hne : e.callback_buffer ≠ none) : (s.delivery c).again = true := by
  obtain ⟨c', hagain⟩ := h.settled e he hne
  by_cases hcc : c' = c
  · exact hcc ▸ hagain
  · rw [hc c' hcc] at hagain
    cases hagain

theorem Framed.mem_outstanding {r : FrameBuffer} (h : s.Framed r) : r ∈ s.outstanding := by
  rcases h with ⟨c, b, hb, rfl⟩ | ⟨e, he, -, rfl⟩
  · have hmem : frameBuffer s.mMemory b.bufIdx ∈ inHand s.mMemory (s.delivery c) :=
      mem_append_right _ (mem_map_of_mem hb)
    refine mem_append_left _ ?_
    cases c with
    | stream => exact mem_append_left _ hmem
    | reprocess => exact mem_append_right _ hmem
  · exact YuvChannel.mem_outstanding he

/-! ### Turns of the callbacks -/

theorem Invariant.goOn (h : s.Invariant) (hc : s.Alone c) {d : Delivery}
    (hissue : d.issue = (s.delivery c).issue) (hframes : frames d = frames (s.delivery c))
    (hphase : d.current ≠ .next)
    (hsettled : ∀ e ∈ s.mOfflinePpInfoList.head?, e.callback_buffer ≠ none → d.again = true) :
    (s.setDelivery c d).Invariant := by
  have hout : (s.setDelivery c d).outstanding = s.outstanding := by
    rw [(hc.setDelivery d).outstanding, hc.outstanding, setDelivery_self, inHand, inHand, hissue, hframes]
    rfl
  refine ⟨?_, h.capacity, h.marked.mono fun r hr => ?_, h.heap, h.located, h.perFrame, h.inSequence,
    ⟨c, hc.setDelivery d⟩, (hc.setDelivery d).phase ?_, fun e he hne => ⟨c, ?_⟩⟩
  · rw [hout]
    exact h.ordered
  · rcases hr with ⟨c', b, hb, heq⟩ | hr
    · refine .inl ⟨c, b, ?_, heq⟩
      rw [setDelivery_self, hframes]
      exact hc.eq_of_mem hb ▸ hb
    · exact .inr hr
  · rw [setDelivery_self]
    exact hphase
  · rw [setDelivery_self]
    exact hsettled e he hne

/-- **A frame bypasses**: the head of the list goes to a thread that has none. -/
theorem Invariant.takeHead (h : s.Invariant) (hc : s.Alone c)
    (hissue : (s.delivery c).issue = none) (hframes : frames (s.delivery c) = [])
    {rest : List PpInfo} (hlist : s.mOfflinePpInfoList = e :: rest)
    (hflag : e.offlinePpFlag = false) (hholds : Holds s.mMemory e b.bufIdx) {camera : List ℕ}
    (hlocated : Located s.mMemory rest camera s.jobs) :
    (setDelivery { s with camera := camera, mOfflinePpInfoList := rest } c
      { current := .look b, again := true }).Invariant := by
  have hbuffer : frameBuffer s.mMemory b.bufIdx = e.result := by
    rw [Holds, if_neg (by rw [hflag]; decide)] at hholds
    rw [frameBuffer, hholds]
    rfl
  have hc' : (setDelivery { s with camera := camera, mOfflinePpInfoList := rest } c
      { current := .look b, again := true }).Alone c := fun c' hne =>
    (update_of_ne hne ..).trans (hc c' hne)
  have hout : (setDelivery { s with camera := camera, mOfflinePpInfoList := rest } c
      { current := .look b, again := true }).outstanding = s.outstanding := by
    rw [hc'.outstanding, hc.outstanding, setDelivery_self, inHand, inHand, hissue, hframes, hlist]
    change [frameBuffer s.mMemory b.bufIdx] ++ rest.map PpInfo.result = _
    rw [hbuffer]
    rfl
  refine ⟨?_, h.capacity, h.marked.mono fun r hr => ?_, h.heap.mono fun e' he' hflag' => ?_, hlocated,
    h.perFrame, h.inSequence, ⟨c, hc'⟩, hc'.phase ?_, fun e he hne => ⟨c, ?_⟩⟩
  · rw [hout]
    exact h.ordered
  · rcases hr with ⟨c', b', hb', heq⟩ | ⟨e', he', hflag', heq⟩
    · rw [hc.eq_of_mem hb', hframes] at hb'
      cases hb'
    · rw [hlist] at he'
      rcases mem_cons.mp he' with rfl | he'
      · refine .inl ⟨c, b, ?_, hbuffer.trans heq⟩
        rw [setDelivery_self]
        exact mem_cons_self
      · exact .inr ⟨e', he', hflag', heq⟩
  · rw [hlist] at he'
    refine (mem_cons.mp he').resolve_left fun heq => ?_
    rw [heq, hflag] at hflag'
    cases hflag'
  · rw [setDelivery_self]
    rintro ⟨⟩
  · rw [setDelivery_self]

theorem Invariant.issue (h : s.Invariant) (hc : s.Alone c) {job : PpJob} (hissue : (s.delivery c).issue = some job) :
    (setDelivery { s with returned := s.returned ++ [⟨some job.output, job.frameNumber⟩] } c
      { s.delivery c with issue := none }).Invariant := by
  have hc' : (setDelivery { s with returned := s.returned ++ [⟨some job.output, job.frameNumber⟩] } c
      { s.delivery c with issue := none }).Alone c := fun c' hne =>
    (update_of_ne hne ..).trans (hc c' hne)
  have hout : s.outstanding = ⟨some job.output, job.frameNumber⟩ ::
      (setDelivery { s with returned := s.returned ++ [⟨some job.output, job.frameNumber⟩] } c
        { s.delivery c with issue := none }).outstanding := by
    rw [hc'.outstanding, hc.outstanding, setDelivery_self, inHand, inHand, hissue]
    rfl
  have hordered := h.ordered
  rw [hout] at hordered
  refine ⟨hordered.deliver, h.capacity, h.marked.mono fun r hr => ?_, h.heap, h.located, h.perFrame,
    h.inSequence, ⟨c, hc'⟩, hc'.phase ?_, fun e he hne => ?_⟩
  · rcases hr with ⟨c', b, hb, heq⟩ | hr
    · refine .inl ⟨c, b, ?_, heq⟩
      rw [setDelivery_self]
      exact hc.eq_of_mem hb ▸ hb
    · exact .inr hr
  · rw [setDelivery_self]
    exact h.phase c
  · refine ⟨c, ?_⟩
    rw [setDelivery_self]
    exact h.again hc he hne

theorem getOldestFrameNumber_cases (m : StreamMem) : m.getOldestFrameNumber.1 = -1 ∨
    m.getOldestFrameNumber ∈ m.heap.zipIdx ∨ m.getOldestFrameNumber ∈ m.registered := by
  by_cases hempty : m.buffers = []
  · exact .inl (StreamMem.getOldestFrameNumber_of_empty hempty)
  · exact .inr (mem_append.mp (StreamMem.getOldestFrameNumber_le hempty).1)

theorem Invariant.oldest (h : s.Invariant) {r : FrameBuffer} {rest : List FrameBuffer}
    (hout : s.outstanding = r :: rest) : s.mMemory.getOldestFrameNumber.1 = -1 ∨
      r.frameNumber ≤ s.mMemory.getOldestFrameNumber.1 := by
  have hordered := h.ordered
  rw [hout] at hordered
  have hle (q : FrameBuffer) (hq : q ∈ s.outstanding) : r.frameNumber ≤ q.frameNumber := by
    rw [hout] at hq
    rcases mem_cons.mp hq with rfl | hq
    · exact le_rfl
    · exact (hordered.first_lt hq).le
  by_cases hnone : s.mMemory.getOldestFrameNumber.1 = -1
  · exact .inl hnone
  rcases getOldestFrameNumber_cases s.mMemory with heq | hheap | hregistered
  · exact .inl heq
  · obtain ⟨e, he, -, hn⟩ := h.heap.listed _ _ (mem_zipIdx_iff_getElem?.mp hheap) hnone
    exact .inr (hn ▸ hle e.result (mem_outstanding he))
  · obtain ⟨-, g, hg, hn⟩ := StreamMem.mem_registered.mp hregistered
    exact .inr (hn ▸ hle _ (h.marked.frame _ g hg (hn ▸ hnone)).mem_outstanding)

theorem Invariant.look_eq (h : s.Invariant) {rest : List FrameBuffer}
    (hout : s.outstanding = frameBuffer s.mMemory b.bufIdx :: rest) :
    ∃ g, s.mMemory.gralloc b.bufIdx = some g ∧
      frameBuffer s.mMemory b.bufIdx = ⟨some g.handle, g.frameNumber⟩ ∧
      s.look b = (.idle, { s with
        channel := { s.channel with
          mMemory := s.mMemory.setBuffer b.bufIdx none
          sent := s.channel.sent ++ [⟨g.frameNumber, b.error⟩] }
        returned := s.returned ++ [⟨some g.handle, g.frameNumber⟩] }) := by
  have hzero := (h.ordered.number _ (h.ordered.mem_requested (hout ▸ mem_cons_self))).1
  rcases hg : s.mMemory.gralloc b.bufIdx with _ | g
  · rw [frameBuffer, hg] at hzero
    exact absurd hzero (by decide)
  have hbuffer : frameBuffer s.mMemory b.bufIdx = ⟨some g.handle, g.frameNumber⟩ := by
    rw [frameBuffer, hg]
    rfl
  have hplace := h.marked.place _ g hg
  have hnumber : s.channel.frameNumber b.bufIdx = g.frameNumber :=
    (StreamMem.getFrameNumber_gralloc hplace).trans (by rw [hg]; rfl)
  have holdest : ¬ (s.channel.mMemory.getOldestFrameNumber.1 ≠ -1 ∧
      s.channel.mMemory.getOldestFrameNumber.1 < s.channel.frameNumber b.bufIdx ∧
        s.channel.constrainedHighSpeed = false) := by
    rintro ⟨hne, hlt, -⟩
    have hle := (h.oldest hout).resolve_left hne
    rw [hnumber] at hlt
    rw [hbuffer] at hle
    exact absurd hlt (not_lt.mpr hle)
  rw [hbuffer] at hzero
  refine ⟨g, rfl, hbuffer, ?_⟩
  have hunregister : s.channel.mMemory.unregisterBuffer b.bufIdx = s.mMemory.setBuffer b.bufIdx none :=
    StreamMem.unregisterBuffer_eq hplace
  have hlook : s.channel.lookAtFrame b = (.idle, { s.channel with
      mMemory := s.mMemory.setBuffer b.bufIdx none
      sent := s.channel.sent ++ [⟨g.frameNumber, b.error⟩] }) := by
    rw [ProcessingChannel.lookAtFrame, if_neg holdest, if_pos h.inSequence, ProcessingChannel.deliver, hnumber,
      if_pos h.perFrame, if_pos hzero, hunregister]
  rw [look, hlook]
  dsimp only
  rw [drop_left, hg]
  rfl

theorem Invariant.look (h : s.Invariant) (hc : s.Alone c)
    (hissue : (s.delivery c).issue = none) (hcurrent : (s.delivery c).current = .look b) :
    ((s.look b).2.setDelivery c { s.delivery c with current := (s.look b).1 }).Invariant := by
  have hframes : frames (s.delivery c) = b :: (s.delivery c).pending := by
    rw [frames, hcurrent]
    rfl
  have hout : s.outstanding = frameBuffer s.mMemory b.bufIdx ::
      ((s.delivery c).pending.map (fun b => frameBuffer s.mMemory b.bufIdx) ++
        s.mOfflinePpInfoList.map PpInfo.result) := by
    rw [hc.outstanding, inHand, hissue, hframes]
    rfl
  obtain ⟨g, hg, hbuffer, hlook⟩ := h.look_eq hout
  have hordered := h.ordered
  rw [hout, hbuffer] at hordered
  have hpending : ∀ b' ∈ (s.delivery c).pending, b'.bufIdx ≠ b.bufIdx := fun b' hb' heq => by
    have hlt := hordered.first_lt (mem_append_left _ (mem_map_of_mem hb'))
    rw [heq, hbuffer] at hlt
    exact lt_irrefl _ hlt
  have hnodes : ∀ e ∈ s.mOfflinePpInfoList, (e.frameNumber : ℤ) ≠ g.frameNumber := fun e he heq => by
    have hlt := hordered.first_lt (mem_append_right _ (mem_map_of_mem he))
    exact absurd heq (ne_of_gt hlt)
  have hsame : ∀ b' ∈ (s.delivery c).pending,
      (s.mMemory.setBuffer b.bufIdx none).gralloc b'.bufIdx = s.mMemory.gralloc b'.bufIdx := fun b' hb' =>
    StreamMem.setBuffer_of_ne (hpending b' hb') none
  rw [hlook]
  dsimp only
  generalize ht : setDelivery _ c _ = t
  have hc' : t.Alone c := fun c' hne => ht ▸ (update_of_ne hne ..).trans (hc c' hne)
  have hdelivery : t.delivery c = { s.delivery c with current := .idle } := ht ▸ setDelivery_self ..
  have hmemory : t.mMemory = s.mMemory.setBuffer b.bufIdx none := ht ▸ rfl
  have hlist : t.mOfflinePpInfoList = s.mOfflinePpInfoList := ht ▸ rfl
  have hframes' : frames (t.delivery c) = (s.delivery c).pending := by
    rw [hdelivery]
    rfl
  have hrest : t.outstanding = (s.delivery c).pending.map (fun b => frameBuffer s.mMemory b.bufIdx) ++
      s.mOfflinePpInfoList.map PpInfo.result := by
    rw [hc'.outstanding, hlist, hmemory, inHand_congr fun b' hb' => hsame b' (hframes' ▸ hb'), inHand, hframes',
      hdelivery]
    change (s.delivery c).issue.toList.map _ ++ _ ++ _ = _
    rw [hissue]
    rfl
  refine ⟨?_, ?_, ?_, ht ▸ h.heap, ?_, ht ▸ h.perFrame, ht ▸ h.inSequence, ⟨c, hc'⟩, hc'.phase ?_,
    fun e he hne => ⟨c, ?_⟩⟩
  · rw [hrest]
    subst ht
    exact hordered.deliver
  · rw [hmemory]
    exact h.capacity
  · rw [hmemory]
    refine h.marked.unregister hg fun r hr hne => ?_
    rcases hr with ⟨c', b', hb', heq⟩ | hr
    · rw [hc.eq_of_mem hb', hframes] at hb'
      rcases mem_cons.mp hb' with rfl | hb'
      · rw [hbuffer] at heq
        exact absurd (heq ▸ rfl) hne
      · refine .inl ⟨c, b', hframes' ▸ hb', ?_⟩
        rw [hmemory, frameBuffer, hsame b' hb']
        exact heq
    · exact .inr (hlist ▸ hr)
  · rw [hmemory, hlist, show t.camera = s.camera from ht ▸ rfl, show t.jobs = s.jobs from ht ▸ rfl]
    refine h.located.memory fun e he i hi => hi.memory (fun _ hheap => hheap) fun hi => ?_
    refine (StreamMem.setBuffer_of_ne (fun heq => ?_) none).trans hi
    rw [heq, hg] at hi
    exact hnodes e he (congrArg GrallocBuffer.frameNumber (some.inj hi)).symm
  · rw [hdelivery]
    rintro ⟨⟩
  · rw [hlist] at he
    rw [hdelivery]
    exact h.again hc he hne

/-- **One turn of a callback.** -/
theorem Invariant.turn (h : s.Invariant) (hbusy : s.delivery c ≠ {}) : (s.turn c).Invariant := by
  have hc := h.alone_of_busy hbusy
  rcases hd : s.delivery c with ⟨issue, current, pending, again⟩
  rw [YuvChannel.turn, hd]
  cases issue with
  | some job =>
    have hissue := h.issue hc (congrArg Delivery.issue hd)
    rw [hd] at hissue
    exact hissue
  | none =>
    have hnone : (s.delivery c).issue = none := congrArg Delivery.issue hd
    cases current with
    | next => exact absurd (congrArg Delivery.current hd) (h.phase c)
    | look b =>
      have hlook := h.look hc hnone (congrArg Delivery.current hd)
      rw [hd] at hlook
      exact hlook
    | idle =>
      cases pending with
      | cons b bs =>
        have hagain : (s.delivery c).again = again := congrArg Delivery.again hd
        refine h.goOn hc hnone.symm (by rw [hd]; rfl) (by nofun) fun e he hne => ?_
        exact hagain.symm.trans (h.again hc he hne)
      | nil =>
        -- Only a callback of the stream gets here, and it looks for frames that were kept.
        have hframes : frames (s.delivery c) = [] := hd ▸ rfl
        obtain rfl : again = true := Bool.eq_true_of_not_eq_false fun hfalse => hbusy (hd ▸ hfalse ▸ rfl)
        cases hlist : s.mOfflinePpInfoList with
        | nil => exact h.goOn hc hnone.symm hframes.symm (by nofun) (by rw [hlist]; nofun)
        | cons e rest =>
          cases hb : e.callback_buffer with
          | none =>
            have hempty : getNextPendingCbBuffer (e :: rest) = none := by
              rw [getNextPendingCbBuffer, hb]
              rfl
            simp only [hempty]
            refine h.goOn hc hnone.symm hframes.symm (by nofun) fun e' he' hne => ?_
            rw [hlist] at he'
            cases he'
            exact absurd hb hne
          | some b =>
            have hfirst : getNextPendingCbBuffer (e :: rest) = some (b, rest) := by
              rw [getNextPendingCbBuffer, hb]
              rfl
            simp only [hfirst]
            have hlocated := h.located
            rw [hlist] at hlocated
            obtain ⟨hflag, hholds⟩ := hlocated.kept e mem_cons_self b hb
            exact h.takeHead hc hnone hframes hlist hflag hholds (hlocated.takeKept h.exact hb)

/-! ### Callbacks of the stream -/

theorem Invariant.number (h : s.Invariant) (hi : Holds s.mMemory e i) : s.channel.frameNumber i = e.frameNumber := by
  rw [Holds] at hi
  split at hi
  · obtain ⟨hlt, -⟩ := List.getElem?_eq_some_iff.mp hi
    have hmax : i < s.mMemory.mMaxHeapBuffers := lt_of_lt_of_le hlt h.capacity
    change StreamMem.getFrameNumber s.mMemory i = _
    rw [StreamMem.getFrameNumber, if_pos hmax, getD_eq_getElem?_getD, hi, getD_some]
  · refine (StreamMem.getFrameNumber_gralloc (h.marked.place _ _ hi)).trans ?_
    rw [hi]
    rfl

theorem Invariant.ppInfo_eq (h : s.Invariant) (he : e ∈ s.mOfflinePpInfoList) : s.ppInfo e.frameNumber = some e := by
  rcases hfind : s.ppInfo e.frameNumber with _ | e'
  · exact absurd (beq_self_eq_true e.frameNumber) (find?_eq_none.mp hfind e he)
  · have hbeq := find?_some hfind
    have hnumber : e'.frameNumber = e.frameNumber := eq_of_beq hbeq
    rw [h.located.eq_of_number (mem_of_find?_eq_some hfind) he hnumber]

theorem Invariant.list_eq (h : s.Invariant) (he : e ∈ s.mOfflinePpInfoList)
    (hhead : s.AtHead e.frameNumber) : ∃ rest, s.mOfflinePpInfoList = e :: rest := by
  obtain ⟨e', he', hnumber⟩ := map_eq_some_iff.mp hhead
  obtain ⟨rest, hlist⟩ := head?_eq_some_iff.mp he'
  have hmem : e' ∈ s.mOfflinePpInfoList := hlist ▸ mem_cons_self
  exact ⟨rest, h.located.eq_of_number hmem he hnumber ▸ hlist⟩

variable {n : ℕ}

theorem uint32_eq (hn : n < 2 ^ 31) : uint32 n = n := by
  rw [uint32, Int.emod_eq_of_lt (by omega) (by omega), Int.toNat_natCast]

theorem int32_eq (hn : n < 2 ^ 31) : OrderState.int32 n = n :=
  Int.bmod_eq_of_le (by omega) (by omega)

theorem Invariant.keep (h : s.Invariant) (he : e ∈ s.mOfflinePpInfoList)
    (hholds : Holds s.mMemory e b.bufIdx) (hflag : e.offlinePpFlag = false) (hhead : ¬ s.AtHead e.frameNumber) :
    Invariant { s with
      camera := s.camera.erase b.bufIdx
      mOfflinePpInfoList := YuvChannel.keep e.frameNumber b s.mOfflinePpInfoList } := by
  have hmem (e' : PpInfo) : e' ∈ YuvChannel.keep e.frameNumber b s.mOfflinePpInfoList ↔
      e' = { e with callback_buffer := some b } ∨
        (e' ∈ s.mOfflinePpInfoList ∧ e'.frameNumber ≠ e.frameNumber) :=
    mem_keep h.located.distinct he rfl
  have hout : outstanding { s with
      camera := s.camera.erase b.bufIdx
      mOfflinePpInfoList := YuvChannel.keep e.frameNumber b s.mOfflinePpInfoList } = s.outstanding := by
    rw [outstanding, outstanding, map_keep PpInfo.result fun _ _ => rfl]
    rfl
  refine ⟨hout ▸ h.ordered, h.capacity, h.marked.mono fun r hr => hr.imp_right ?_,
    h.heap.mono fun e' he' hflag' => (hmem e').mpr (.inr ⟨he', fun heq => ?_⟩),
    h.located.keep h.exact he hholds hflag rfl, h.perFrame, h.inSequence, h.alone, h.phase,
    fun e' he' => h.settled e' ?_⟩
  · rintro ⟨e', he', hflag', hr⟩
    by_cases heq : e'.frameNumber = e.frameNumber
    · obtain rfl := h.located.eq_of_number he' he heq
      exact ⟨_, (hmem _).mpr (.inl rfl), hflag', hr⟩
    · exact ⟨e', (hmem e').mpr (.inr ⟨he', heq⟩), hflag', hr⟩
  · obtain rfl := h.located.eq_of_number he' he heq
    exact absurd (hflag.symm.trans hflag') (by decide)
  · rcases hlist : s.mOfflinePpInfoList with _ | ⟨e₀, rest⟩
    · rw [hlist] at he
      cases he
    · have hne : e₀.frameNumber ≠ e.frameNumber := fun heq => hhead (by rw [AtHead, hlist, ← heq]; rfl)
      change e' ∈ (YuvChannel.keep e.frameNumber b s.mOfflinePpInfoList).head? at he'
      rw [hlist, YuvChannel.keep, if_neg hne] at he'
      exact he'

/-- **A callback of the stream.** -/
theorem Invariant.streamCbRoutine (h : s.Invariant) {index : ℕ} {error allocated : Bool}
    (hidle : s.delivery .stream = {}) (hindex : index ∈ s.camera)
    (hwhole : s.Whole (.streamCbRoutine index error allocated)) :
    (s.streamCbRoutine index error allocated).Invariant := by
  obtain ⟨e, he, -, hholds, -⟩ := h.located.waiting index hindex
  have hnumber : uint32 (s.channel.frameNumber index) = e.frameNumber := by
    rw [h.number hholds, uint32_eq (h.bound he)]
  have hinfo := h.ppInfo_eq he
  rw [Whole, hnumber, hinfo] at hwhole
  simp only [YuvChannel.streamCbRoutine, hnumber, hinfo]
  cases hflag : e.offlinePpFlag with
  | true =>
    cases allocated with
    | false => exact h
    | true =>
      exact ⟨h.ordered, h.capacity, h.marked, h.heap,
        h.located.submit h.exact hindex he hholds hflag, h.perFrame, h.inSequence, h.alone, h.phase,
        h.settled⟩
  | false =>
    simp only [Bool.false_eq_true, if_false]
    split
    · rename_i hhead
      have hreprocess := hwhole e rfl hflag hhead
      have hc : s.Alone .stream := fun c' hne => by
        cases c' with
        | stream => exact absurd rfl hne
        | reprocess => exact hreprocess
      obtain ⟨rest, hlist⟩ := h.list_eq he hhead
      have hlocated := h.located
      rw [hlist] at hlocated
      rw [hlist]
      exact h.takeHead hc (hidle ▸ rfl) (hidle ▸ rfl) hlist hflag (b := ⟨index, error⟩) hholds
        (hlocated.takeHead h.exact hflag hholds)
    · rename_i hhead
      exact h.keep he (b := ⟨index, error⟩) hholds hflag hhead

/-! ### Callbacks of the post-processor -/

section

variable {list : List PpInfo}

theorem takePending_mem {e : PpInfo} (he : e ∈ list) :
    e ∈ (takePending list).2 ∨ ∃ b ∈ (takePending list).1, e.callback_buffer = some b := by
  induction list with
  | nil => cases he
  | cons head tail ih =>
    rw [takePending]
    rcases hb : head.callback_buffer with _ | b
    · exact .inl he
    · rcases mem_cons.mp he with rfl | he
      · exact .inr ⟨b, mem_cons_self, hb⟩
      · exact (ih he).imp_right fun ⟨b', hb', heq⟩ => ⟨b', mem_cons_of_mem _ hb', heq⟩

theorem takePending_result {m : StreamMem}
    (hkept : ∀ e ∈ list, ∀ b, e.callback_buffer = some b → frameBuffer m b.bufIdx = e.result) :
    (takePending list).1.map (fun b => frameBuffer m b.bufIdx) ++ (takePending list).2.map PpInfo.result =
      list.map PpInfo.result := by
  induction list with
  | nil => rfl
  | cons head tail ih =>
    rw [takePending]
    rcases hb : head.callback_buffer with _ | b
    · rfl
    · have htail := ih fun e he => hkept e (mem_cons_of_mem _ he)
      rw [map_cons, map_cons, cons_append, htail, hkept head mem_cons_self b hb]

theorem takePending_head {e : PpInfo} (he : e ∈ (takePending list).2.head?) : e.callback_buffer = none := by
  induction list with
  | nil => cases he
  | cons head tail ih =>
    rw [takePending] at he
    rcases hb : head.callback_buffer with _ | b
    · rw [hb] at he
      exact some.inj he ▸ hb
    · rw [hb] at he
      exact ih he

theorem Located.takePending {m : StreamMem} {camera : List ℕ} {jobs : List PpJob}
    (h : Located m list camera jobs) (hexact : Exact m) :
    Located m (YuvChannel.takePending list).2 camera jobs := by
  induction list with
  | nil => exact h
  | cons head tail ih =>
    rw [YuvChannel.takePending]
    rcases hb : head.callback_buffer with _ | b
    · exact h
    · exact ih (h.takeKept hexact hb)

end

theorem HeapMarks.findIdx?_eq {heap : List ℤ} {free : List ℕ} {list : List PpInfo}
    (h : HeapMarks heap free list) (hi : heap[i]? = some (n : ℤ)) :
    heap.findIdx? (fun k => k == (n : ℤ)) = some i :=
  StreamMem.findIdx?_mark hi fun j hj => h.unique j i n (by omega) hj hi

/-- **A callback of the post-processor** for the head: its buffer is free, and the frames that were kept behind
it are taken with it. -/
theorem Invariant.finish (h : s.Invariant) {rest : List PpInfo} {jobs : List PpJob}
    (hidle : ∀ c, s.delivery c = {}) (hlist : s.mOfflinePpInfoList = e :: rest)
    (hflag : e.offlinePpFlag = true) (hjobs : s.jobs = e.job :: jobs)
    (hi : s.mMemory.heap[i]? = some (e.frameNumber : ℤ)) :
    (setDelivery { s.setMemory { s.mMemory with heap := s.mMemory.heap.set i (-1) } with
      jobs := jobs
      mFreeHeapBufferList := s.mFreeHeapBufferList ++ [i]
      mOfflinePpInfoList := (takePending rest).2 } .reprocess
        { issue := some e.job, pending := (takePending rest).1 }).Invariant := by
  generalize ht : setDelivery _ _ _ = t
  have hlocated := h.located
  rw [hlist, hjobs] at hlocated
  have hheap := h.heap
  rw [hlist] at hheap
  have hkept : ∀ e' ∈ rest, ∀ b, e'.callback_buffer = some b →
      e'.offlinePpFlag = false ∧ frameBuffer s.mMemory b.bufIdx = e'.result := fun e' he' b hb => by
    obtain ⟨hflag', hholds⟩ := hlocated.kept e' (mem_cons_of_mem _ he') b hb
    rw [Holds, if_neg (by rw [hflag']; decide)] at hholds
    refine ⟨hflag', ?_⟩
    rw [frameBuffer, hholds]
    rfl
  have hc : s.Alone .reprocess := fun c' _ => hidle c'
  have hc' : t.Alone .reprocess := fun c' hne => ht ▸ (update_of_ne hne ..).trans (hidle c')
  have hdelivery : t.delivery .reprocess = { issue := some e.job, pending := (takePending rest).1 } :=
    ht ▸ setDelivery_self ..
  have hmemory : t.mMemory = { s.mMemory with heap := s.mMemory.heap.set i (-1) } := ht ▸ rfl
  have hlist' : t.mOfflinePpInfoList = (takePending rest).2 := ht ▸ rfl
  have hout : t.outstanding = s.outstanding := by
    rw [hc'.outstanding, hc.outstanding, hdelivery, hlist', hmemory, hidle, hlist, map_cons, inHand]
    change e.result :: ((takePending rest).1.map (fun b => frameBuffer s.mMemory b.bufIdx) ++
      (takePending rest).2.map PpInfo.result) = e.result :: rest.map PpInfo.result
    rw [takePending_result fun e' he' b hb => (hkept e' he' b hb).2]
  have hmarked : Marked t.mMemory s.Framed := by
    rw [hmemory]
    exact ⟨h.marked.place, h.marked.frame, h.marked.unique⟩
  have hrelease : HeapMarks t.mMemory.heap (s.mFreeHeapBufferList ++ [i]) rest := by
    rw [hmemory]
    exact hheap.release hi
  have hcapacity : t.mMemory.heap.length ≤ t.mMemory.mMaxHeapBuffers := by
    rw [hmemory]
    exact (length_set ..).trans_le h.capacity
  have hexact : Exact t.mMemory := exact_of_marks hmarked hrelease hcapacity
  have hrest : Located t.mMemory rest s.camera jobs := by
    refine (hlocated.finish h.exact).memory fun e' he' j hj => ?_
    have hother : j ≠ i := fun heq => by
      have hhead : Holds s.mMemory e i := by
        rw [Holds, if_pos hflag]
        exact hi
      have hnumber := h.exact.frame e' e i (heq ▸ hj) hhead
      have hdistinct := hlocated.distinct
      rw [map_cons, nodup_cons] at hdistinct
      exact hdistinct.1 (hnumber ▸ mem_map_of_mem he')
    rw [hmemory]
    exact hj.memory (fun _ hheap => (getElem?_set_ne (Ne.symm hother)).trans hheap) fun hgralloc => hgralloc
  refine ⟨?_, hcapacity, hmarked.mono fun r hr => ?_, ?_, ?_, ht ▸ h.perFrame, ht ▸ h.inSequence,
    ⟨.reprocess, hc'⟩, hc'.phase ?_, fun e' he' hne => ?_⟩
  · rw [hout]
    exact ht ▸ h.ordered
  · rcases hr with ⟨c, b, hb, -⟩ | ⟨e', he', hflag', hr⟩
    · rw [hidle c] at hb
      cases hb
    · rw [hlist] at he'
      have hmem : e' ∈ rest := (mem_cons.mp he').resolve_left fun heq => by
        rw [heq, hflag] at hflag'
        cases hflag'
      rcases takePending_mem hmem with he' | ⟨b, hb, hsome⟩
      · exact .inr ⟨e', hlist' ▸ he', hflag', hr⟩
      · refine .inl ⟨.reprocess, b, hdelivery ▸ hb, ?_⟩
        rw [hmemory]
        exact (hkept e' hmem b hsome).2.trans hr
  · rw [hlist', show t.mFreeHeapBufferList = s.mFreeHeapBufferList ++ [i] from ht ▸ rfl]
    refine hrelease.mono fun e' he' hflag' => (takePending_mem he').resolve_right ?_
    rintro ⟨b, -, hsome⟩
    exact absurd ((hkept e' he' b hsome).1.symm.trans hflag') (by decide)
  · rw [hlist', show t.camera = s.camera from ht ▸ rfl, show t.jobs = jobs from ht ▸ rfl]
    exact hrest.takePending hexact
  · rw [hdelivery]
    rintro ⟨⟩
  · rw [hlist'] at he'
    exact absurd (takePending_head he') hne

/-- **A callback of the post-processor.** -/
theorem Invariant.reprocessCbRoutine (h : s.Invariant) {job : PpJob} {jobs : List PpJob}
    (hjobs : s.jobs = job :: jobs) (hidle : s.delivery .reprocess = {})
    (hwhole : s.Whole .reprocessCbRoutine) :
    (YuvChannel.reprocessCbRoutine { s with jobs := jobs } job).Invariant := by
  obtain ⟨hstream, hhead⟩ := hwhole
  rw [hjobs] at hhead
  have hhead : s.AtHead job.frameNumber := hhead job rfl
  obtain ⟨e, he, hflag, rfl⟩ := h.located.processed job (hjobs ▸ mem_cons_self)
  obtain ⟨rest, hlist⟩ := h.list_eq he hhead
  obtain ⟨i, hholds⟩ : ∃ i, Holds s.mMemory e i := by
    rcases hb : e.callback_buffer with _ | b
    · obtain ⟨i, hi, -⟩ := h.located.away e he hb
      exact ⟨i, hi⟩
    · exact ⟨b.bufIdx, (h.located.kept e he b hb).2⟩
  rw [Holds, if_pos hflag] at hholds
  have hindex := h.heap.findIdx?_eq hholds
  obtain ⟨hlt, -⟩ := List.getElem?_eq_some_iff.mp hholds
  have hmark : (s.mMemory.markFrameNumber i (-1)).2 = { s.mMemory with heap := s.mMemory.heap.set i (-1) } := by
    rw [StreamMem.markFrameNumber, if_pos (lt_of_lt_of_le hlt h.capacity), if_pos hlt]
  have hint : OrderState.int32 e.job.frameNumber = e.frameNumber := int32_eq (h.bound he)
  have heq : YuvChannel.reprocessCbRoutine { s with jobs := jobs } e.job =
      setDelivery { s.setMemory { s.mMemory with heap := s.mMemory.heap.set i (-1) } with
        jobs := jobs
        mFreeHeapBufferList := s.mFreeHeapBufferList ++ [i]
        mOfflinePpInfoList := (takePending rest).2 } .reprocess
          { issue := some e.job, pending := (takePending rest).1 } := by
    have hinfo : YuvChannel.ppInfo { s with jobs := jobs } e.job.frameNumber = some e := h.ppInfo_eq he
    have hfound : (YuvChannel.mMemory { s with jobs := jobs }).heap.findIdx? (fun n => n == (e.frameNumber : ℤ)) =
        some i := hindex
    have htail : s.mOfflinePpInfoList.tail = rest := hlist ▸ rfl
    rw [YuvChannel.reprocessCbRoutine, hinfo, hint]
    change ite (¬ s.AtHead e.job.frameNumber) _ (ite (e.offlinePpFlag = true) _ _) = _
    rw [if_neg (not_not_intro hhead), if_pos hflag, hfound, htail]
    change setDelivery { s.setMemory (s.mMemory.markFrameNumber i (-1)).2 with
        jobs := jobs
        mFreeHeapBufferList := s.mFreeHeapBufferList ++ [i]
        mOfflinePpInfoList := (takePending rest).2 } .reprocess _ = _
    rw [hmark]
  rw [heq]
  refine h.finish (fun c => ?_) hlist hflag hjobs hholds
  cases c with
  | stream => exact hstream
  | reprocess => exact hidle

end YuvChannel

end YuvBypass

end Marlin
