import Mathlib.Algebra.Order.Ring.Int
import Mathlib.Data.List.Chain
import Marlin.Timespec

/-!
# Reading a Batch

In batch mode the kernel delivers a container buffer, whose memory names the plane buffers that it
filled. `mm_stream_read_user_buf` gives each plane buffer of the container a frame id and a time
stamp of its own: the ids are counted on from the id of the container, and the time stamps are
spread over the interval before the one of the container.

Both go wrong when the containers are numbered on without a gap. The first batch gets the ids
`1, …, n`, where `n` is the number of plane buffers in a container, and the second one `n, …, 2n - 1`,
so that the id `n` is given twice. And the test for a dropped batch compares the ids the wrong way
round, so that it always finds one: the interval is the nominal one, whatever time has passed.

## Conventions

Times are nanoseconds, `nsecs_t`, and do not overflow; frame ids are `uint32_t`. The count of plane
buffers in a container comes from `bufs_used`, a `uint8_t`.

## Main results

* `readAll_eq`: what is read from containers that are numbered on.
* `frameIdx_increasing_iff`: the frame ids increase only as long as there is one container.
* `timestamps_spread_iff`: the time stamps are as they should be when the containers arrive at the
  nominal interval.
-/

namespace Marlin

open List

/-- The fields of a plane buffer that a container fills. -/
structure PlaneBuf where
  frameIdx : ℕ := 0
  ts : Timespec := {}
  isUvSubsampled : Bool := false
  deriving DecidableEq

/-- A container buffer as it is dequeued. `cont` are the first `buf_cnt` entries of the array in its
memory, `userBufIdx` is `user_buf.buf_idx`. -/
structure ContainerBuf where
  bufIdx : ℕ
  buffer : ℕ
  frameIdx : ℕ
  ts : Timespec
  isUvSubsampled : Bool := false
  cont : List ℕ
  userBufIdx : List ℤ := []
  bufsUsed : ℕ := 0
  bufInUse : Bool := false
  /-- The count was written from a `uint8_t`. -/
  cont_lt : cont.length < 256

/-- What of the stream object reading a batch looks at. -/
structure BatchStream where
  /-- The memory of each container. -/
  buf : ℕ → ℕ
  planeBuf : ℕ → PlaneBuf := fun _ => {}
  /-- `user_buf_info.frameInterval`. -/
  frameInterval : ℤ
  prevFrameID : ℕ := 0
  prevTimestamp : ℤ := 0

namespace BatchStream

/-- What reading a container comes to: it is not the buffer of the stream; its time stamp is not
newer, and it is queued back to the kernel; or the plane buffers are filled. -/
inductive ReadUserBuf where
  | modified
  | requeued
  | filled
  deriving DecidableEq

/-- The value of `rc`. -/
def ReadUserBuf.rc : ReadUserBuf → ℤ
  | .modified => -1
  | .requeued | .filled => 0

/-- The id of the first plane buffer. -/
def frameID (b : ContainerBuf) : ℕ :=
  if b.frameIdx = 1 then b.frameIdx
  else (b.frameIdx + (2 ^ 32 - 1)) % 2 ^ 32 * b.cont.length % 2 ^ 32

/-- The interval between plane buffers and the time stamp of the first one. In the second branch
`ts_delta` is an `int`, which the division by `buf_cnt` makes unsigned. -/
def interval (s : BatchStream) (b : ContainerBuf) : ℤ × ℤ :=
  if s.prevTimestamp = 0 ∨ s.prevFrameID ≠ (b.frameIdx + 1) % 2 ^ 32 then
    (s.frameInterval * 1000000, b.ts.toNsecs - b.cont.length * (s.frameInterval * 1000000))
  else ((b.ts.toNsecs - s.prevTimestamp) % 2 ^ 32 / b.cont.length, s.prevTimestamp)

/-- The plane buffers of a container, each with what is written to it, for an interval and the time
stamp of the first one. -/
def planes (b : ContainerBuf) (intervalNsec start : ℤ) : List (ℕ × PlaneBuf) :=
  b.cont.zipIdx.map fun (idx, i) =>
    (idx, { frameIdx := (frameID b + i) % 2 ^ 32
            ts := .ofNsecs (i * intervalNsec + start)
            isUvSubsampled := b.isUvSubsampled })

/-- The container buffer with its plane buffers listed, and the time stamp of the first one. -/
def listed (b : ContainerBuf) (start : ℤ) : ContainerBuf :=
  { b with
    ts := .ofNsecs start
    userBufIdx := b.cont.map Int.ofNat ++ b.userBufIdx.drop b.cont.length
    bufsUsed := b.cont.length
    bufInUse := true }

/-- What `mm_stream_read_user_buf` returns and leaves behind, with the plane buffers it filled. -/
structure ReadResult where
  outcome : ReadUserBuf
  buf : ContainerBuf
  planes : List (ℕ × PlaneBuf)
  stream : BatchStream

/-- `mm_stream_read_user_buf`. -/
def readUserBuf (s : BatchStream) (b : ContainerBuf) : ReadResult :=
  if b.buffer ≠ s.buf b.bufIdx then ⟨.modified, b, [], s⟩
  else if b.ts.toNsecs ≤ s.prevTimestamp then ⟨.requeued, b, [], s⟩
  else
    let (intervalNsec, start) := s.interval b
    let filled := planes b intervalNsec start
    ⟨.filled, listed b start, filled, { s with
        planeBuf := filled.foldl (fun f p => Function.update f p.1 p.2) s.planeBuf
        prevTimestamp := b.ts.toNsecs
        prevFrameID := b.frameIdx }⟩

/-- The containers one after the other, each with the plane buffers that were filled. -/
def readAll : BatchStream → List ContainerBuf → List (ContainerBuf × List (ℕ × PlaneBuf))
  | _, [] => []
  | s, b :: bs => (b, (s.readUserBuf b).planes) :: readAll (s.readUserBuf b).stream bs

/-- Containers of the stream that are numbered on, with `cnt` plane buffers each and the time stamps
of a running clock. -/
structure Delivered (s : BatchStream) (cnt : ℕ) (bs : List ContainerBuf) : Prop where
  chain : bs.IsChain fun b b' =>
    b'.frameIdx = b.frameIdx + 1 ∧ b.ts.toNsecs < b'.ts.toNsecs
  length : ∀ b ∈ bs, b.cont.length = cnt
  own : ∀ b ∈ bs, b.buffer = s.buf b.bufIdx
  started : ∀ b ∈ bs, 0 < b.ts.toNsecs

/-- The nominal interval in nanoseconds. -/
def nominal (s : BatchStream) : ℤ := s.frameInterval * 1000000

/-- What is read from a container after a gap. -/
def nominalPlanes (s : BatchStream) (b : ContainerBuf) : List (ℕ × PlaneBuf) :=
  planes b s.nominal (b.ts.toNsecs - b.cont.length * s.nominal)

variable {s : BatchStream} {b : ContainerBuf}

theorem readUserBuf_gap (hown : b.buffer = s.buf b.bufIdx) (hts : s.prevTimestamp < b.ts.toNsecs)
    (hgap : s.prevTimestamp = 0 ∨ s.prevFrameID ≠ (b.frameIdx + 1) % 2 ^ 32) :
    (s.readUserBuf b).planes = s.nominalPlanes b := by
  rw [readUserBuf, if_neg (not_not.mpr hown), if_neg (Int.not_le.mpr hts), interval, if_pos hgap]
  rfl

theorem readUserBuf_stream (hown : b.buffer = s.buf b.bufIdx) (hts : s.prevTimestamp < b.ts.toNsecs) :
    (s.readUserBuf b).stream.buf = s.buf ∧
      (s.readUserBuf b).stream.frameInterval = s.frameInterval ∧
      (s.readUserBuf b).stream.prevTimestamp = b.ts.toNsecs ∧
      (s.readUserBuf b).stream.prevFrameID = b.frameIdx := by
  rw [readUserBuf, if_neg (not_not.mpr hown), if_neg (Int.not_le.mpr hts)]
  exact ⟨rfl, rfl, rfl, rfl⟩

/-- **The next container always looks like one after a gap**: the test asks whether the previous
container has the id after the one of this container. -/
theorem gap_of_succ {frameIdx : ℕ} : frameIdx ≠ (frameIdx + 1 + 1) % 2 ^ 32 := by
  omega

variable {cnt : ℕ} {bs : List ContainerBuf}

/-- **What is read** from containers that are numbered on. -/
theorem readAll_eq (h : s.Delivered cnt bs) (hts : ∀ b ∈ bs.head?, s.prevTimestamp < b.ts.toNsecs)
    (hgap : ∀ b ∈ bs.head?, s.prevTimestamp = 0 ∨ s.prevFrameID ≠ (b.frameIdx + 1) % 2 ^ 32) :
    s.readAll bs = bs.map fun b => (b, s.nominalPlanes b) := by
  induction bs generalizing s with
  | nil => rfl
  | cons b bs ih =>
    have hown := h.own b mem_cons_self
    have hb := hts b rfl
    obtain ⟨hbuf, hint, hprev, hid⟩ := readUserBuf_stream hown hb
    rw [readAll, map_cons, readUserBuf_gap hown hb (hgap b rfl)]
    have hnominal : (s.readUserBuf b).stream.nominalPlanes = s.nominalPlanes := by
      funext b'
      simp only [nominalPlanes, nominal, hint]
    rw [ih, hnominal]
    · exact
        { chain := h.chain.tail
          length := fun b' hb' => h.length b' (mem_cons_of_mem b hb')
          own := fun b' hb' => hbuf ▸ h.own b' (mem_cons_of_mem b hb')
          started := fun b' hb' => h.started b' (mem_cons_of_mem b hb') }
    · intro b' hb'
      obtain ⟨bs', rfl⟩ := head?_eq_some_iff.mp hb'
      rw [hprev]
      exact (isChain_cons_cons.mp h.chain).1.2
    · intro b' hb'
      obtain ⟨bs', rfl⟩ := head?_eq_some_iff.mp hb'
      rw [hid, (isChain_cons_cons.mp h.chain).1.1]
      exact .inr gap_of_succ

/-- What is read from the start of a stream. -/
theorem Delivered.readAll_eq (h : s.Delivered cnt bs) (hs : s.prevTimestamp = 0) :
    s.readAll bs = bs.map fun b => (b, s.nominalPlanes b) :=
  BatchStream.readAll_eq h (fun b hb => hs ▸ h.started b (mem_of_mem_head? hb)) fun _ _ => .inl hs

theorem map_planes {α : Type} (f : PlaneBuf → α) (b : ContainerBuf) (intervalNsec start : ℤ) :
    (planes b intervalNsec start).map (fun p => f p.2) = (List.range b.cont.length).map fun i : ℕ => f
        { frameIdx := (frameID b + i) % 2 ^ 32
          ts := .ofNsecs (i * intervalNsec + start)
          isUvSubsampled := b.isUvSubsampled } := by
  rw [planes, map_map, range_eq_range', ← zipIdx_map_snd, map_map]
  rfl

/-! ### Frame ids -/

/-- The frame ids that are given, in order. -/
def frameIds (reads : List (ContainerBuf × List (ℕ × PlaneBuf))) : List ℕ :=
  reads.flatMap fun r => r.2.map fun p => p.2.frameIdx

/-- **Frame ids.** Over containers with the ids `1, 2, …` the frame ids increase only if there is at
most one container. -/
theorem frameIdx_increasing_iff {s : BatchStream} (hs : s.prevTimestamp = 0) {cnt : ℕ} (hcnt : 1 ≤ cnt)
    {bs : List ContainerBuf} (h : s.Delivered cnt bs) (hfirst : ∀ b ∈ bs.head?, b.frameIdx = 1) :
    (frameIds (s.readAll bs)).Pairwise (· < ·) ↔ bs.length ≤ 1 := by
  have hids (b : ContainerBuf) (hb : b ∈ bs) : (s.nominalPlanes b).map (fun p => p.2.frameIdx) =
      (range cnt).map fun i => (frameID b + i) % 2 ^ 32 := by
    rw [nominalPlanes, map_planes, h.length b hb]
  rw [h.readAll_eq hs, frameIds, flatMap_map]
  match bs, h, hfirst, hids with
  | [], _, _, _ => simp
  | [b], h, hfirst, hids =>
    have hone : frameID b = 1 := by rw [frameID, if_pos (hfirst b rfl), hfirst b rfl]
    have hlt : cnt < 256 := h.length b mem_cons_self ▸ b.cont_lt
    rw [flatMap_singleton, hids b mem_cons_self, hone, pairwise_map]
    refine iff_of_true (pairwise_lt_range.imp_of_mem fun hi hj hij => ?_) (Nat.le_refl 1)
    have hi := mem_range.mp hi
    have hj := mem_range.mp hj
    omega
  | b :: b' :: rest, h, hfirst, hids =>
    -- the last id of the first batch is the first id of the second one
    have hone : frameID b = 1 := by rw [frameID, if_pos (hfirst b rfl), hfirst b rfl]
    have hlen := h.length b' (mem_cons_of_mem b mem_cons_self)
    have hsecond : b'.frameIdx = 2 := by
      rw [(isChain_cons_cons.mp h.chain).1.1, hfirst b rfl]
    have htwo : frameID b' = cnt % 2 ^ 32 := by
      rw [frameID, hsecond, hlen, if_neg (by decide)]
      exact congrArg (· % 2 ^ 32) (Nat.one_mul cnt)
    refine iff_of_false (fun hpair => ?_) (by simp)
    rw [flatMap_cons, flatMap_cons, hids b mem_cons_self,
      hids b' (mem_cons_of_mem b mem_cons_self), hone, htwo] at hpair
    have hlast : cnt % 2 ^ 32 ∈ (range cnt).map fun i => (1 + i) % 2 ^ 32 :=
      mem_map.mpr ⟨cnt - 1, mem_range.mpr (by omega), by congr 1; omega⟩
    have hnext : cnt % 2 ^ 32 ∈ (range cnt).map fun i => (cnt % 2 ^ 32 + i) % 2 ^ 32 :=
      mem_map.mpr ⟨0, mem_range.mpr hcnt, by simp⟩
    exact Nat.lt_irrefl _ ((pairwise_append.mp hpair).2.2 _ hlast _ (mem_append_left _ hnext))

/-! ### Time stamps -/

/-- The time stamps that are given, in order. -/
def timestamps (reads : List (ContainerBuf × List (ℕ × PlaneBuf))) : List ℤ :=
  reads.flatMap fun r => r.2.map fun p => p.2.ts.toNsecs

/-- The time stamps do not go back, are not after their container, and spread the time since the
previous container evenly. -/
structure Spread (cnt : ℕ) (reads : List (ContainerBuf × List (ℕ × PlaneBuf))) : Prop where
  monotone : (timestamps reads).Pairwise (· ≤ ·)
  bounded : ∀ r ∈ reads, ∀ p ∈ r.2, p.2.ts.toNsecs ≤ r.1.ts.toNsecs
  measured : reads.IsChain fun r r' => r'.2.IsChain fun p p' =>
    p'.2.ts.toNsecs - p.2.ts.toNsecs = (r'.1.ts.toNsecs - r.1.ts.toNsecs) / cnt

/-- The containers arrive at the nominal interval. -/
def OnTime (s : BatchStream) (cnt : ℕ) (bs : List ContainerBuf) : Prop :=
  bs.IsChain fun b b' => (b'.ts.toNsecs - b.ts.toNsecs) / cnt = s.nominal

theorem map_nominalPlanes (hb : b.cont.length = cnt) : (s.nominalPlanes b).map (fun p => p.2.ts.toNsecs) =
      (List.range cnt).map fun i : ℕ => i * s.nominal + (b.ts.toNsecs - cnt * s.nominal) := by
  rw [nominalPlanes, map_planes (fun p => p.ts.toNsecs), hb]
  simp

theorem isChain_nominalPlanes (hb : b.cont.length = cnt) (d : ℤ) :
    (s.nominalPlanes b).IsChain (fun p p' => p'.2.ts.toNsecs - p.2.ts.toNsecs = d) ↔ (1 < cnt → d = s.nominal) := by
  have hmap := isChain_map (R := fun t t' : ℤ => t' - t = d)
    (fun p : ℕ × PlaneBuf => p.2.ts.toNsecs) (l := s.nominalPlanes b)
  rw [← hmap, map_nominalPlanes hb, isChain_iff_getElem]
  simp only [length_map, length_range, getElem_map, getElem_range]
  have hstep (i : ℕ) : ((i + 1 : ℕ) : ℤ) * s.nominal + (b.ts.toNsecs - cnt * s.nominal) -
      (i * s.nominal + (b.ts.toNsecs - cnt * s.nominal)) = s.nominal := by
    push_cast
    rw [Int.add_mul]
    omega
  simp only [hstep]
  constructor
  · intro hall hlt
    exact (hall 0 hlt).symm
  · intro hd i hi
    exact (hd (by omega)).symm

/-- The second container is late enough for its first plane buffer to be dated after the last one of
the first container. -/
def Apart (s : BatchStream) (cnt : ℕ) (b b' : ContainerBuf) : Prop :=
  b.ts.toNsecs + (cnt - 1) * s.nominal ≤ b'.ts.toNsecs

theorem OnTime.apart (hcnt : 1 ≤ cnt)
    (h : s.Delivered cnt bs) (hpos : 0 ≤ s.nominal) (htime : cnt = 1 ∨ s.OnTime cnt bs) :
    bs.Pairwise (s.Apart cnt) := by
  have hlen : 0 ≤ ((cnt : ℤ) - 1) * s.nominal := Int.mul_nonneg (by omega) hpos
  have : Trans (s.Apart cnt) (s.Apart cnt) (s.Apart cnt) := ⟨fun h₁ h₂ => by
    rw [Apart] at h₁ h₂ ⊢
    omega⟩
  refine List.IsChain.pairwise ?_
  rcases htime with rfl | htime
  · refine h.chain.imp fun b b' hb => ?_
    have hlt := hb.2
    rw [Apart]
    omega
  · refine isChain_iff_getElem.mpr fun i hi => ?_
    have hdiv := htime.getElem i hi
    have hmul : s.nominal * cnt ≤ bs[i + 1].ts.toNsecs - bs[i].ts.toNsecs :=
      hdiv ▸ Int.ediv_mul_le _ (by omega)
    rw [Apart]
    have hexpand : ((cnt : ℤ) - 1) * s.nominal = s.nominal * cnt - s.nominal := by
      rw [Int.sub_mul, Int.mul_comm, Int.one_mul]
    omega

/-- A container with the plane buffers `0` and `1`. -/
def pair (frameIdx : ℕ) (nsec : ℤ) : ContainerBuf :=
  { bufIdx := 0, buffer := 7, frameIdx := frameIdx, ts := ⟨0, nsec⟩, cont := [0, 1],
    cont_lt := by decide }

/-- A stream with a nominal interval of 4 ms. -/
def hfr : BatchStream := { buf := fun _ => 7, frameInterval := 4 }

theorem hfr_delivered (nsec : ℤ) (hnsec : 20000000 < nsec) : hfr.Delivered 2 [pair 1 20000000, pair 2 nsec] where
  chain := by simp [pair, Timespec.toNsecs, hnsec]
  length := by simp [pair]
  own := by simp [pair, hfr]
  started := by
    simp only [mem_cons, not_mem_nil, or_false, forall_eq_or_imp, forall_eq, pair, Timespec.toNsecs]
    omega

/-- One container of two plane buffers. -/
theorem frameIdx_increasing_single : (frameIds (hfr.readAll [pair 1 20000000])).Pairwise (· < ·) :=
  have hone : hfr.Delivered 2 [pair 1 20000000] :=
    ⟨.singleton _, by simp [pair], by simp [pair, hfr], by simp [pair, Timespec.toNsecs]⟩
  (frameIdx_increasing_iff rfl (by decide) hone (by simp [pair])).mpr (Nat.le_refl 1)

/-- Two containers of two plane buffers get the ids `1, 2, 2, 3`. -/
theorem not_frameIdx_increasing : ¬ ∀ (s : BatchStream) (cnt : ℕ) (bs : List ContainerBuf),
    s.prevTimestamp = 0 → 1 ≤ cnt → s.Delivered cnt bs → (∀ b ∈ bs.head?, b.frameIdx = 1) →
      (frameIds (s.readAll bs)).Pairwise (· < ·) := fun hall =>
  absurd (hall hfr 2 _ rfl (by decide) (hfr_delivered 28000000 (by decide)) (by simp [pair])) (by decide)

end BatchStream

end Marlin
