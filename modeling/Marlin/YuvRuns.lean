import Marlin.YuvDelivery

/-!
# The Runs of a YUV Channel

A request adds its frame behind the outstanding ones. It has a node before anything is tried for it, and the
node stays where that fails.

## Main results

* `Invariant.step`: what an event preserves.
* `yuv_bypass_run`: the frames are returned in order, where no request fails behind its node, a frame of the
  post-processor is the head, and one thread returns frames at a time.
* `overtaken_frame_lost`: a processed frame that comes back before an earlier one is never returned.
-/

open List Option Bool Transition

namespace Marlin

namespace YuvBypass

namespace YuvChannel

variable {s t : YuvChannel}

/-! ### Requests -/

theorem Invariant.settings (h : s.Invariant) (active : Bool) (edgeMode : EdgeMode)
    (noiseRedMode : NoiseReductionMode) (cropRegion : ℤ × ℤ) :
    Invariant { s with
      m_bIsActive := active
      mEdgeMode := edgeMode
      mNoiseRedMode := noiseRedMode
      mCropRegion := cropRegion } :=
  ⟨h.ordered, h.capacity, h.marked, h.heap, h.located, h.perFrame, h.inSequence, h.alone, h.phase, h.settled⟩

theorem Invariant.later (h : s.Invariant) {n : ℤ} (hn : s.last ≤ n) : Invariant { s with last := n } :=
  ⟨h.ordered.later hn, h.capacity, h.marked, h.heap, h.located, h.perFrame, h.inSequence, h.alone, h.phase, h.settled⟩

variable {i : ℕ}

theorem Invariant.buffer_ne (h : s.Invariant)
    (hi : ∀ g, s.mMemory.gralloc i = some g → g.frameNumber = -1) {c : CallbackThread} {b : SuperBuf}
    (hb : b ∈ frames (s.delivery c)) : b.bufIdx ≠ i := fun heq => by
  have hframed : s.Framed (frameBuffer s.mMemory b.bufIdx) := .inl ⟨c, b, hb, rfl⟩
  have hzero := (h.ordered.number _ (h.ordered.mem_requested hframed.mem_outstanding)).1
  rw [frameBuffer, heq] at hzero
  rcases hg : s.mMemory.gralloc i with _ | g
  · rw [hg] at hzero
    exact absurd hzero (by decide)
  · rw [hg] at hzero
    change 0 ≤ g.frameNumber at hzero
    rw [hi g hg] at hzero
    exact absurd hzero (by decide)

theorem Invariant.setBuffer (h : s.Invariant)
    (hi : ∀ g, s.mMemory.gralloc i = some g → g.frameNumber = -1) (x : Option GrallocBuffer)
    (c : CallbackThread) : ∀ b ∈ frames (s.delivery c),
      (s.mMemory.setBuffer i x).gralloc b.bufIdx = s.mMemory.gralloc b.bufIdx := fun _ hb =>
  StreamMem.setBuffer_of_ne (h.buffer_ne hi hb) x

variable {j : ℕ}

theorem Holds.setBuffer {m : StreamMem} {e : PpInfo} (hj : Holds m e j)
    (hi : ∀ g, m.gralloc i = some g → g.frameNumber = -1) (x : Option GrallocBuffer) :
    Holds (m.setBuffer i x) e j := by
  refine hj.memory (fun _ hheap => hheap) fun hj => (StreamMem.setBuffer_of_ne (fun heq => ?_) x).trans hj
  have hnumber := hi _ (heq ▸ hj)
  change (e.frameNumber : ℤ) = -1 at hnumber
  omega

theorem Invariant.register (h : s.Invariant) (hi : i ∈ s.mMemory.grallocIndices)
    (hnone : s.mMemory.gralloc i = none) (buffer : ℕ) :
    (s.setMemory (s.mMemory.setBuffer i (some { handle := buffer }))).Invariant := by
  have hfree : ∀ g, s.mMemory.gralloc i = some g → g.frameNumber = -1 := fun g hg => by
    rw [hnone] at hg
    cases hg
  have hout : (s.setMemory (s.mMemory.setBuffer i (some { handle := buffer }))).outstanding = s.outstanding := by
    have hhand (c : CallbackThread) := inHand_congr (h.setBuffer hfree (some { handle := buffer }) c)
    change inHand (s.mMemory.setBuffer i (some { handle := buffer })) (s.delivery .stream) ++
      inHand (s.mMemory.setBuffer i (some { handle := buffer })) (s.delivery .reprocess) ++ _ = _
    rw [hhand, hhand]
    rfl
  refine ⟨hout ▸ h.ordered, h.capacity, (h.marked.register hi buffer).mono fun r hr => ?_, h.heap,
    h.located.memory fun e _ j hj => hj.setBuffer hfree _, h.perFrame, h.inSequence, h.alone, h.phase,
    h.settled⟩
  exact hr.imp_left fun ⟨c, b, hb, heq⟩ => ⟨c, b, hb, (frameBuffer_congr (h.setBuffer hfree _ c b hb)).trans heq⟩

variable {n : ℕ}

theorem Invariant.new_number (h : s.Invariant) (hn : s.last < n) :
    ∀ e ∈ s.mOfflinePpInfoList, e.frameNumber ≠ n := fun e he heq => by
  have hle := (h.ordered.number _ (h.ordered.mem_requested (mem_outstanding he))).2.2
  change (e.frameNumber : ℤ) ≤ s.last at hle
  omega

theorem Invariant.settled_append (h : s.Invariant) {e : PpInfo} (he : e.callback_buffer = none) :
    ∀ e' ∈ (s.mOfflinePpInfoList ++ [e]).head?, e'.callback_buffer ≠ none →
      ∃ c, (s.delivery c).again = true := fun e' he' hne => by
  rcases hlist : s.mOfflinePpInfoList with _ | ⟨head, rest⟩
  · rw [hlist] at he'
    cases he'
    exact absurd he hne
  · rw [hlist] at he'
    exact h.settled e' (hlist ▸ he') hne

variable {buffer : ℕ}

theorem Invariant.requestBuffer (h : s.Invariant) (hi : i ∈ s.mMemory.grallocIndices)
    (hfree : ∀ g, s.mMemory.gralloc i = some g → g.frameNumber = -1) (hlast : s.last < n)
    (hbound : n < 2 ^ 31) :
    Invariant { s.setMemory (s.mMemory.setBuffer i (some ⟨buffer, n⟩)) with
      mOfflinePpInfoList := s.mOfflinePpInfoList ++ [{ frameNumber := n, offlinePpFlag := false, output := buffer }]
      camera := s.camera ++ [i]
      requested := s.requested ++ [⟨some buffer, n⟩]
      last := n } := by
  have hnew := h.new_number hlast
  have hnumber : ∀ r, s.Framed r → r.frameNumber ≠ n := fun r hr heq => by
    have hle := (h.ordered.number r (h.ordered.mem_requested hr.mem_outstanding)).2.2
    omega
  have hout : outstanding { s.setMemory (s.mMemory.setBuffer i (some ⟨buffer, n⟩)) with
      mOfflinePpInfoList := s.mOfflinePpInfoList ++ [{ frameNumber := n, offlinePpFlag := false, output := buffer }]
      camera := s.camera ++ [i]
      requested := s.requested ++ [⟨some buffer, n⟩]
      last := n } = s.outstanding ++ [⟨some buffer, n⟩] := by
    have hhand (c : CallbackThread) := inHand_congr (h.setBuffer hfree (some ⟨buffer, n⟩) c)
    change inHand (s.mMemory.setBuffer i (some ⟨buffer, n⟩)) (s.delivery .stream) ++
      inHand (s.mMemory.setBuffer i (some ⟨buffer, n⟩)) (s.delivery .reprocess) ++
        (s.mOfflinePpInfoList ++ [_]).map PpInfo.result = _
    rw [hhand, hhand, map_append, ← append_assoc]
    rfl
  have hcamera : i ∉ s.camera := fun hmem => by
    obtain ⟨e, he, -, hholds, -⟩ := h.located.waiting i hmem
    rw [Holds] at hholds
    split at hholds
    · obtain ⟨hlt, -⟩ := List.getElem?_eq_some_iff.mp hholds
      have hle := (StreamMem.mem_grallocIndices.mp hi).1
      have hcapacity := h.capacity
      omega
    · have hfree := hfree _ hholds
      change (e.frameNumber : ℤ) = -1 at hfree
      omega
  refine ⟨?_, h.capacity, ?_, h.heap.mono fun e he _ => mem_append_left _ he, ?_, h.perFrame,
    h.inSequence, h.alone, h.phase, h.settled_append rfl⟩
  · rw [hout]
    refine h.ordered.request (r := ⟨some buffer, n⟩) hlast (by change (0 : ℤ) ≤ n; omega) ?_
    change (n : ℤ) < 2 ^ 31
    omega
  · refine h.marked.mark hi hnumber (fun r hr => ?_) (.inr ⟨_, mem_append_right _ mem_cons_self, rfl, rfl⟩)
    rcases hr with ⟨c, b, hb, heq⟩ | ⟨e, he, hplace⟩
    · exact .inl ⟨c, b, hb, (frameBuffer_congr (h.setBuffer hfree _ c b hb)).trans heq⟩
    · exact .inr ⟨e, mem_append_left _ he, hplace⟩
  · refine Located.request (h.located.memory fun e _ j hj => hj.setBuffer hfree _) rfl hnew ?_ hcamera
    exact (if_neg Bool.false_ne_true).mpr (StreamMem.setBuffer_self i _)

/-- **A request of a frame for the post-processor**, with a buffer that was free. -/
theorem Invariant.requestHeap (h : s.Invariant) {heap : List ℤ} {free : List ℕ}
    (hheap : HeapMarks heap (i :: free) s.mOfflinePpInfoList)
    (hsame : ∀ (j : ℕ) (k : ℤ), k ≠ -1 → s.mMemory.heap[j]? = some k → heap[j]? = some k)
    (hcapacity : heap.length ≤ s.mMemory.mMaxHeapBuffers)
    (hcamera : i ∉ s.camera) (hlast : s.last < n) (hbound : n < 2 ^ 31) :
    Invariant { s.setMemory { s.mMemory with heap := heap.set i n } with
      mFreeHeapBufferList := free
      mOfflinePpInfoList := s.mOfflinePpInfoList ++ [{ frameNumber := n, offlinePpFlag := true, output := buffer }]
      camera := s.camera ++ [i]
      requested := s.requested ++ [⟨some buffer, n⟩]
      last := n } := by
  have hnew := h.new_number hlast
  have hfree := hheap.of_free mem_cons_self
  obtain ⟨hlt, -⟩ := List.getElem?_eq_some_iff.mp hfree
  have hout : outstanding { s.setMemory { s.mMemory with heap := heap.set i n } with
      mFreeHeapBufferList := free
      mOfflinePpInfoList := s.mOfflinePpInfoList ++ [{ frameNumber := n, offlinePpFlag := true, output := buffer }]
      camera := s.camera ++ [i]
      requested := s.requested ++ [⟨some buffer, n⟩]
      last := n } = s.outstanding ++ [⟨some buffer, n⟩] := by
    change inHand s.mMemory (s.delivery .stream) ++ inHand s.mMemory (s.delivery .reprocess) ++
      (s.mOfflinePpInfoList ++ [_]).map PpInfo.result = _
    rw [map_append, ← append_assoc]
    rfl
  refine ⟨?_, ?_, ⟨h.marked.place, fun j g hj hne => ?_, h.marked.unique⟩, ?_, ?_, h.perFrame, h.inSequence,
    h.alone, h.phase, h.settled_append rfl⟩
  · rw [hout]
    refine h.ordered.request (r := ⟨some buffer, n⟩) hlast (by change (0 : ℤ) ≤ n; omega) ?_
    change (n : ℤ) < 2 ^ 31
    omega
  · exact (length_set ..).trans_le hcapacity
  · exact (h.marked.frame j g hj hne).imp_right fun ⟨e, he, hplace⟩ => ⟨e, mem_append_left _ he, hplace⟩
  · exact hheap.take (e := { frameNumber := n, offlinePpFlag := true, output := buffer }) rfl hnew
  · refine Located.request (h.located.memory fun e _ j hj => ?_) rfl hnew ?_ hcamera
    · refine hj.memory (fun _ hj => ?_) fun hgralloc => hgralloc
      have hj' := hsame j e.frameNumber (by omega) hj
      refine (getElem?_set_ne fun heq => ?_).trans hj'
      rw [← heq, hfree] at hj'
      have hnumber := some.inj hj'
      omega
    · exact (if_pos rfl).mpr (getElem?_set_self hlt)

theorem Invariant.camera_heap (h : s.Invariant) (hi : i ∈ s.camera)
    (hlt : i < s.mMemory.mMaxHeapBuffers) : ∃ n : ℕ, s.mMemory.heap[i]? = some (n : ℤ) := by
  obtain ⟨e, -, -, hholds, -⟩ := h.located.waiting i hi
  rw [Holds] at hholds
  split at hholds
  · exact ⟨e.frameNumber, hholds⟩
  · have hle := (StreamMem.mem_grallocIndices.mp (h.marked.place i _ hholds)).1
    omega

theorem Invariant.takeHeapBuffer_eq (h : s.Invariant) {allocates : Bool} (hspace : s.mFreeHeapBufferList ≠ [] ∨
      (allocates = true ∧ s.mMemory.heap.length < s.mMemory.mMaxHeapBuffers)) :
    ∃ i heap free, (∀ u : YuvChannel, u.mMemory = s.mMemory →
        u.mFreeHeapBufferList = s.mFreeHeapBufferList → u.takeHeapBuffer allocates =
          some (i, { u.setMemory { s.mMemory with heap := heap } with mFreeHeapBufferList := free })) ∧
      HeapMarks heap (i :: free) s.mOfflinePpInfoList ∧
      (∀ (j : ℕ) (k : ℤ), k ≠ -1 → s.mMemory.heap[j]? = some k → heap[j]? = some k) ∧
      heap.length ≤ s.mMemory.mMaxHeapBuffers ∧ i ∉ s.camera := by
  have hheap := h.heap
  rcases hfree : s.mFreeHeapBufferList with _ | ⟨i, rest⟩
  · obtain ⟨rfl, hlt⟩ := hspace.resolve_left (fun hne => hne hfree)
    rw [hfree] at hheap
    refine ⟨s.mMemory.heap.length, s.mMemory.heap ++ [-1], [], fun u hmemory hempty => ?_, hheap.allocate,
      fun j k hne hj => ?_, ?_, fun hcamera => ?_⟩
    · rw [takeHeapBuffer, hempty, hmemory]
      refine (if_pos ⟨rfl, hlt⟩).trans ?_
      rw [← hempty]
      rfl
    · obtain ⟨hj', -⟩ := List.getElem?_eq_some_iff.mp hj
      exact (getElem?_append_left hj').trans hj
    · rw [length_append]
      exact hlt
    · obtain ⟨n, hn⟩ := h.camera_heap hcamera hlt
      obtain ⟨hlt', -⟩ := List.getElem?_eq_some_iff.mp hn
      exact lt_irrefl _ hlt'
  · rw [hfree] at hheap
    have hi := hheap.of_free (mem_cons_self : i ∈ i :: rest)
    obtain ⟨hlt, -⟩ := List.getElem?_eq_some_iff.mp hi
    refine ⟨i, s.mMemory.heap, rest, fun u hmemory hfull => ?_, hheap, fun _ _ _ hj => hj, h.capacity,
      fun hcamera => ?_⟩
    · rw [takeHeapBuffer, hfull, ← hmemory]
      rfl
    · obtain ⟨n, hn⟩ := h.camera_heap hcamera (lt_of_lt_of_le hlt h.capacity)
      have heq := some.inj (hi.symm.trans hn)
      omega

theorem start_eq {starts : Bool} (hstart : s.m_bIsActive = true ∨ starts = true) :
    s.start starts = (true, { s with m_bIsActive := true }) := by
  rw [start]
  cases hactive : s.m_bIsActive with
  | true => rw [if_pos rfl, ← hactive]
  | false =>
    obtain rfl : starts = true := hstart.resolve_left (by rw [hactive]; decide)
    rfl

theorem registerBuffer_eq {registers : Bool} (hregister : (s.mMemory.getMatchBufIndex buffer).isSome = true ∨
      (registers = true ∧ (s.mMemory.registerBuffer buffer).1 = true)) :
    ∃ m j, s.registerBuffer buffer registers = (true, s.setMemory m) ∧ m.getMatchBufIndex buffer = some j ∧
      (m = s.mMemory ∨ ∃ k ∈ s.mMemory.grallocIndices, s.mMemory.gralloc k = none ∧
        m = s.mMemory.setBuffer k (some { handle := buffer })) := by
  rw [registerBuffer]
  rcases hmatch : s.mMemory.getMatchBufIndex buffer with _ | j
  · obtain ⟨rfl, hsucceeds⟩ := hregister.resolve_left (by rw [hmatch]; decide)
    obtain ⟨k, hk, hnone, hmemory⟩ := StreamMem.registerBuffer_true hsucceeds
    have hfound : (s.mMemory.setBuffer k (some { handle := buffer })).getMatchBufIndex buffer ≠ none :=
      fun hnot => find?_eq_none.mp hnot k hk (by rw [StreamMem.setBuffer_self]; simp)
    obtain ⟨j, hj⟩ := ne_none_iff_exists'.mp hfound
    refine ⟨_, j, ?_, hj, .inr ⟨k, hk, hnone, rfl⟩⟩
    rw [← hmemory]
    exact if_pos ⟨rfl, hsucceeds⟩
  · exact ⟨s.mMemory, j, rfl, hmatch, .inl rfl⟩

theorem queueBuffer_eq (hmatch : s.mMemory.getMatchBufIndex buffer = some j)
    (hbound : n < 2 ^ 31) : s.queueBuffer buffer n true =
      (true, { s.setMemory (s.mMemory.setBuffer j (some ⟨buffer, n⟩)) with camera := s.camera ++ [j] }) := by
  obtain ⟨hj, g, hg, rfl⟩ := StreamMem.getMatchBufIndex_some hmatch
  have hmark := StreamMem.markFrameNumber_eq hj hg n
  rw [queueBuffer, hmatch]
  simp only [int32_eq hbound, hmark, Bool.not_true, Bool.false_eq_true, if_false, if_true]

theorem Invariant.owned (h : s.Invariant) (howned : s.Owned (some buffer))
    {g : GrallocBuffer} (hg : s.mMemory.gralloc j = some g) (hhandle : g.handle = buffer) :
    g.frameNumber = -1 := by
  by_contra hne
  have hmem : some buffer ∈ s.outstanding.map FrameBuffer.buffer :=
    mem_map.mpr ⟨_, (h.marked.frame j g hg hne).mem_outstanding, by rw [hhandle]⟩
  have hone := one_le_count_iff.mpr hmem
  rw [Owned, ← h.ordered.all, map_append, count_append] at howned
  omega

variable {calls : YuvCalls}

theorem Invariant.request_bypass (h : s.Invariant) {settings : FrameSettings}
    (hpp : (s.needsFramePostprocessing settings).1 = false) (hsucceeds : s.Succeeds buffer settings calls)
    (hlast : s.last < n) (howned : s.Owned (some buffer)) (hbound : n < 2 ^ 31) :
    ∃ t, s.request (some buffer) n (some settings) calls = (true, t) ∧
      Invariant { t with requested := s.requested ++ [⟨some buffer, n⟩], last := n } := by
  obtain ⟨hstart, hbufDone, hregister⟩ := hsucceeds
  rw [if_neg (by rw [hpp]; decide)] at hregister
  let s₁ : YuvChannel := { (s.needsFramePostprocessing settings).2 with
    mOfflinePpInfoList := s.mOfflinePpInfoList ++ [{ frameNumber := n, offlinePpFlag := false, output := buffer }] }
  obtain ⟨m, j, heq, hmatch, hm⟩ := registerBuffer_eq (s := s₁) hregister
  have hinv : (s.setMemory m).Invariant := by
    rcases hm with rfl | ⟨k, hk, hnone, rfl⟩
    · exact h
    · exact h.register hk hnone buffer
  obtain ⟨hj, g, hg, hhandle⟩ := StreamMem.getMatchBufIndex_some hmatch
  have hfree : ∀ g', m.gralloc j = some g' → g'.frameNumber = -1 := fun g' hg' => by
    obtain rfl := some.inj (hg.symm.trans hg')
    exact hinv.owned (s := s.setMemory m) howned hg hhandle
  have hstart₁ := start_eq (s := s₁.setMemory m) hstart
  have hqueue := queueBuffer_eq (s := { s₁.setMemory m with m_bIsActive := true }) hmatch hbound
  refine ⟨{ s₁.setMemory (m.setBuffer j (some ⟨buffer, n⟩)) with
    m_bIsActive := true
    camera := s.camera ++ [j] }, ?_, ?_⟩
  · have hbase : s₁.requestBuffer buffer n calls = (true, { s₁.setMemory (m.setBuffer j (some ⟨buffer, n⟩)) with
        m_bIsActive := true
        camera := s.camera ++ [j] }) := by
      rw [YuvChannel.requestBuffer, heq]
      simp only [Bool.not_true, Bool.false_eq_true, if_false, hstart₁, hbufDone]
      exact hqueue
    refine Eq.trans ?_ hbase
    rw [request, hpp]
    rfl
  · have hsettings := hinv.settings true (settings.edgeMode.getD s.mEdgeMode)
      (settings.noiseRedMode.getD s.mNoiseRedMode) (settings.cropRegion.getD s.mCropRegion)
    exact hsettings.requestBuffer hj hfree hlast hbound

theorem Invariant.request_offlinePp (h : s.Invariant) {settings : FrameSettings}
    (hpp : (s.needsFramePostprocessing settings).1 = true)
    (hsucceeds : s.Succeeds buffer settings calls) (hlast : s.last < n) (hbound : n < 2 ^ 31) :
    ∃ t, s.request (some buffer) n (some settings) calls = (true, t) ∧
      Invariant { t with requested := s.requested ++ [⟨some buffer, n⟩], last := n } := by
  obtain ⟨hstart, hbufDone, hspace⟩ := hsucceeds
  rw [if_pos hpp] at hspace
  let s₁ : YuvChannel := { (s.needsFramePostprocessing settings).2 with
    mOfflinePpInfoList := s.mOfflinePpInfoList ++ [{ frameNumber := n, offlinePpFlag := true, output := buffer }] }
  have hstart₁ := start_eq (s := s₁) hstart
  have hsettings := h.settings true (settings.edgeMode.getD s.mEdgeMode)
    (settings.noiseRedMode.getD s.mNoiseRedMode) (settings.cropRegion.getD s.mCropRegion)
  obtain ⟨i, heap, free, htake, hheap, hsame, hcapacity, hcamera⟩ := hsettings.takeHeapBuffer_eq hspace
  obtain ⟨hlt, -⟩ := List.getElem?_eq_some_iff.mp (hheap.of_free List.mem_cons_self)
  have hmark : StreamMem.markFrameNumber { s.mMemory with heap := heap } i n =
      (true, { s.mMemory with heap := heap.set i n }) :=
    (if_pos (lt_of_lt_of_le hlt hcapacity)).trans (if_pos hlt)
  have htake₁ := htake { s₁ with m_bIsActive := true } rfl rfl
  refine ⟨{ s₁.setMemory { s.mMemory with heap := heap.set i n } with
    m_bIsActive := true
    mFreeHeapBufferList := free
    camera := s.camera ++ [i] }, ?_, hsettings.requestHeap hheap hsame hcapacity hcamera hlast hbound⟩
  have hbase : s₁.requestOfflinePp n calls = (true, { s₁.setMemory { s.mMemory with heap := heap.set i n } with
      m_bIsActive := true
      mFreeHeapBufferList := free
      camera := s.camera ++ [i] }) := by
    rw [requestOfflinePp, hstart₁]
    simp only [Bool.not_true, Bool.false_eq_true, if_false, htake₁, hbufDone, if_true, int32_eq hbound]
    exact congrArg (fun r : Bool × StreamMem => (true, { s₁.setMemory r.2 with
      m_bIsActive := true
      mFreeHeapBufferList := free
      camera := s.camera ++ [i] })) hmark
  refine Eq.trans ?_ hbase
  rw [request, hpp]
  rfl

theorem Invariant.request_cases (h : s.Invariant) {buffer : Option ℕ}
    {metadata : Option FrameSettings} (hwhole : s.Whole (.request buffer n metadata calls)) (hlast : s.last < n)
    (howned : s.Owned buffer) :
    s.request buffer n metadata calls = (false, s) ∨ ∃ t, s.request buffer n metadata calls = (true, t) ∧
        Invariant { t with requested := s.requested ++ [⟨buffer, n⟩], last := n } := by
  obtain ⟨hbound, hsucceeds⟩ := hwhole
  cases buffer with
  | none => exact .inl rfl
  | some buffer =>
    cases metadata with
    | none => exact .inl rfl
    | some settings =>
      have hsucceeds := hsucceeds buffer rfl settings rfl
      cases hpp : (s.needsFramePostprocessing settings).1 with
      | false => exact .inr (h.request_bypass hpp hsucceeds hlast howned hbound)
      | true => exact .inr (h.request_offlinePp hpp hsucceeds hlast hbound)

/-! ### Every run -/

/-- **One event.** -/
theorem Invariant.step (h : s.Invariant) {e : YuvEvent} (hwhole : s.Whole e) (hstep : s.step e = some t) :
    t.Invariant := by
  cases e with
  | request buffer frameNumber metadata calls =>
    rw [YuvChannel.step] at hstep
    split at hstep
    · rename_i hguard
      cases hstep
      rw [requestFrame]
      rcases h.request_cases hwhole hguard.1 hguard.2 with heq | ⟨t, heq, hinv⟩
      · rw [heq]
        exact h.later hguard.1.le
      · rw [heq]
        exact hinv
    · cases hstep
  | streamCbRoutine index error allocated =>
    rw [YuvChannel.step] at hstep
    split at hstep
    · rename_i hguard
      cases hstep
      exact h.streamCbRoutine hguard.1 hguard.2 hwhole
    · cases hstep
  | reprocessCbRoutine =>
    rw [YuvChannel.step] at hstep
    cases hjobs : s.jobs with
    | nil =>
      rw [hjobs] at hstep
      cases hstep
    | cons job jobs =>
      rw [hjobs] at hstep
      by_cases hidle : s.delivery .reprocess = {}
      · simp only [if_pos hidle] at hstep
        cases hstep
        exact h.reprocessCbRoutine hjobs hidle hwhole
      · simp only [if_neg hidle] at hstep
        cases hstep
  | turn c =>
    rw [YuvChannel.step] at hstep
    split at hstep
    · cases hstep
    · cases hstep
      exact h.turn ‹_›

/-- What the bypass is for. The buffers are returned in the order of their requests, each with its number and
once; all of them when nothing is under way any more; and then the list is empty and the heap buffers are free. -/
structure InOrder (s : YuvChannel) : Prop where
  returned : s.returned <+: s.requested
  increasing : (s.requested.map FrameBuffer.frameNumber).Pairwise (· < ·)
  all : s.camera = [] → s.jobs = [] → (∀ c, s.delivery c = {}) → s.returned = s.requested
  empty : s.returned = s.requested → s.mOfflinePpInfoList = []
  free : s.returned = s.requested → ∀ i, s.mFreeHeapBufferList.count i =
    if i < s.mMemory.heap.length then 1 else 0

theorem Invariant.inOrder (h : s.Invariant) : s.InOrder := by
  have hempty (hall : s.returned = s.requested) : s.mOfflinePpInfoList = [] := by
    have hout : s.outstanding = [] := by
      have hlength := congrArg length h.ordered.all
      rw [length_append, hall] at hlength
      exact eq_nil_of_length_eq_zero (by omega)
    exact map_eq_nil_iff.mp (append_eq_nil_iff.mp hout).2
  refine ⟨⟨_, h.ordered.all⟩, h.ordered.increasing, fun hcamera hjobs hidle => ?_, hempty, fun hall i => ?_⟩
  · have hout : s.outstanding = [] := by
      have hc : s.Alone .stream := fun c' _ => hidle c'
      rw [hc.outstanding, hidle]
      cases hlist : s.mOfflinePpInfoList with
      | nil => rfl
      | cons e rest =>
        have he : e ∈ s.mOfflinePpInfoList := hlist ▸ mem_cons_self
        rcases hb : e.callback_buffer with _ | b
        · obtain ⟨i, -, hi | ⟨-, hjob⟩⟩ := h.located.away e he hb
          · rw [hcamera] at hi
            cases hi
          · rw [hjobs] at hjob
            cases hjob
        · obtain ⟨c, hagain⟩ := h.settled e (hlist ▸ rfl) (by rw [hb]; nofun)
          rw [hidle c] at hagain
          cases hagain
    rw [← h.ordered.all, hout, append_nil]
  · rw [h.heap.free i]
    refine if_congr ⟨fun hi => (List.getElem?_eq_some_iff.mp hi).1, fun hi => ?_⟩ rfl rfl
    have hget := getElem?_eq_getElem hi
    by_cases hn : s.mMemory.heap[i] = -1
    · rw [hget, hn]
    · obtain ⟨e, he, -⟩ := h.heap.listed i _ hget hn
      rw [hempty hall] at he
      cases he

/-- **The bypass of a YUV channel.** In every run whose events meet the condition the buffers are returned in
order, and a request that fails leaves the list as it was. -/
theorem yuv_bypass_run {mMaxHeapBuffers : ℕ} {width height : ℤ} {es : List YuvEvent}
    (h : Run (guarded Whole (fires step)) (init mMaxHeapBuffers width height) es s) :
    s.InOrder ∧ ∀ buffer frameNumber metadata calls, s.Whole (.request buffer frameNumber metadata calls) →
      s.last < frameNumber → s.Owned buffer → (s.request buffer frameNumber metadata calls).1 = false →
        (s.request buffer frameNumber metadata calls).2.mOfflinePpInfoList = s.mOfflinePpInfoList := by
  have hinv := h.invariant (fun _ _ _ hinv hstep => hinv.step hstep.1 hstep.2)
    (invariant_init mMaxHeapBuffers width height)
  refine ⟨hinv.inOrder, fun buffer frameNumber metadata calls hwhole hlast howned hfails => ?_⟩
  rcases hinv.request_cases hwhole hlast howned with heq | ⟨t, heq, -⟩
  · rw [heq]
  · rw [heq] at hfails
    cases hfails

/-- A request for the post-processor. -/
def sharpened : Option FrameSettings := some { edgeMode := some .fast, cropRegion := some (4, 4) }

/-- A request of a frame that bypasses. -/
def plain : Option FrameSettings := some { edgeMode := some .off, cropRegion := some (4, 4) }

/-- A frame that bypasses comes before one that is processed, another one after it; then a buffer is requested
again, and one request has none. -/
def bypassSession : List YuvEvent :=
  [.request (some 10) 1 sharpened {}, .request (some 11) 2 plain {}, .request (some 12) 3 plain {},
    .streamCbRoutine 2 false true, .streamCbRoutine 0 false true, .reprocessCbRoutine, .turn .reprocess,
    .turn .reprocess, .request (some 10) 4 sharpened {}, .request none 5 plain {}, .turn .reprocess,
    .streamCbRoutine 3 false true, .turn .stream, .turn .stream, .streamCbRoutine 0 false true,
    .reprocessCbRoutine, .turn .reprocess]

/-- The buffers of the session are returned in order. -/
theorem yuv_bypass_session : ∃ s, Run (guarded Whole (fires step)) (init 2 4 4) bypassSession s ∧ s.InOrder ∧
      s.returned = [⟨some 10, 1⟩, ⟨some 11, 2⟩, ⟨some 12, 3⟩, ⟨some 10, 4⟩] ∧
        s.mOfflinePpInfoList = [] ∧ s.mFreeHeapBufferList = [0] :=
  (exists_run (by decide +kernel)).imp fun _ h => ⟨h.1, (yuv_bypass_run h.1).1, h.2⟩

/-- A processed frame comes back before the frame that was requested before it. -/
def overtaken : List YuvEvent :=
  [.request (some 10) 1 plain {}, .request (some 11) 2 sharpened {}, .streamCbRoutine 0 false true,
    .reprocessCbRoutine, .streamCbRoutine 2 false true, .turn .stream, .turn .stream]

/-- The processed frame is dropped, and its node stays. -/
theorem overtaken_frame_lost : ∃ s, Run (fires step) (init 2 4 4) overtaken s ∧ s.camera = [] ∧ s.jobs = [] ∧
      s.returned = [⟨some 10, 1⟩] ∧ s.requested = [⟨some 10, 1⟩, ⟨some 11, 2⟩] ∧
        s.mOfflinePpInfoList = [⟨2, true, 11, none⟩] ∧ ¬ s.InOrder := by
  refine (exists_run_fires (P := fun s => (s.camera = [] ∧ s.jobs = [] ∧ s.returned = [⟨some 10, 1⟩] ∧
    s.requested = [⟨some 10, 1⟩, ⟨some 11, 2⟩] ∧ s.mOfflinePpInfoList = [⟨2, true, 11, none⟩]) ∧
      s.delivery .stream = {} ∧ s.delivery .reprocess = {}) (by decide +kernel)).imp fun s hs => ⟨hs.1, ?_⟩
  obtain ⟨-, ⟨hcamera, hjobs, hreturned, hrequested, hlist⟩, hstream, hreprocess⟩ := hs
  refine ⟨hcamera, hjobs, hreturned, hrequested, hlist, fun hinOrder => ?_⟩
  have hall := hinOrder.all hcamera hjobs fun c => by
    cases c with
    | stream => exact hstream
    | reprocess => exact hreprocess
  rw [hreturned, hrequested] at hall
  cases hall

end YuvChannel

end YuvBypass

end Marlin
