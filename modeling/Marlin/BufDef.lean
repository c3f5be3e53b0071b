import Mathlib.Algebra.Order.BigOperators.Group.Finset

/-!
# The Definition of a Buffer

`QCamera3Memory::getBufDef` fills in the buffer definition that a buffer is given to the kernel and to the
camera daemon with: the file descriptor of the buffer and, for each plane of the layout, the file descriptor,
the length and the start. Plane 0 is set by itself with the index of the buffer, the others in a loop, which
takes the file descriptor of the buffer whose index is the number of the plane.

## Conventions

`reserved[0]` is the start of the plane in the buffer, and `m.userptr` its file descriptor, as an unsigned
number of 64 bits. The length of the frame in the definition is the size of the buffer.

## Main results

* `getBufDef_planes`: what each plane has after the loop.
* `describes_iff`: when the definition describes the buffer that was asked for.
-/

namespace Marlin

open Function

/-- `cam_mp_len_offset_t`, without what only the compressed formats have. -/
structure CamMpLenOffset where
  len : ℕ := 0
  offset : ℕ := 0
  offset_x : ℤ := 0
  offset_y : ℤ := 0
  stride : ℤ := 0
  stride_in_bytes : ℤ := 0
  scanline : ℤ := 0
  width : ℤ := 0
  height : ℤ := 0
  deriving DecidableEq

/-- `cam_frame_len_offset_t`: the layout of a frame. -/
structure CamFrameLenOffset where
  num_planes : ℕ := 0
  mp : ℕ → CamMpLenOffset := fun _ => {}
  frame_len : ℕ := 0

/-- `VIDEO_MAX_PLANES`. -/
def videoMaxPlanes : ℕ := 8

/-- `QCamera3MemInfo`. -/
structure QCamera3MemInfo where
  fd : Int32 := -1
  handle : ℕ := 0
  size : ℕ := 0
  deriving DecidableEq

/-- `v4l2_plane`, as far as `getBufDef` sets it. -/
structure V4l2Plane where
  length : ℕ := 0
  userptr : UInt64 := 0
  data_offset : ℕ := 0
  reserved0 : ℕ := 0
  deriving DecidableEq

/-- `QCamera3Memory`, as far as `getBufDef` reads it. -/
structure QCamera3Memory where
  mBufferCount : ℕ
  mMemInfo : ℕ → QCamera3MemInfo
  mPtr : ℕ → ℕ

namespace QCamera3Memory

/-- `mm_camera_buf_def_t`, as far as `getBufDef` sets it. -/
structure MmCameraBufDef where
  fd : Int32 := -1
  frame_len : ℕ := 0
  buffer : ℕ := 0
  num_planes : ℤ := 0
  buf_idx : ℕ := 0
  planes : ℕ → V4l2Plane := fun _ => {}

/-- A file descriptor as a `long unsigned int`. -/
def userptr (fd : Int32) : UInt64 := fd.toInt64.toUInt64

theorem userptr_inj {fd fd' : Int32} : userptr fd = userptr fd' ↔ fd = fd' := by
  refine ⟨fun h => ?_, congrArg userptr⟩
  have hlong := congrArg UInt64.toInt64 h
  rw [userptr, userptr, Int64.toInt64_toUInt64, Int64.toInt64_toUInt64] at hlong
  simpa only [Int32.toInt32_toInt64] using congrArg Int64.toInt32 hlong

/-- One turn of the loop over the planes. -/
def setPlane (m : QCamera3Memory) (offset : CamFrameLenOffset) (planes : ℕ → V4l2Plane) (i : ℕ) : ℕ → V4l2Plane :=
  Function.update planes i
    { length := (offset.mp i).len
      userptr := userptr (m.mMemInfo i).fd
      data_offset := (offset.mp i).offset
      reserved0 := ((planes (i - 1)).reserved0 + (planes (i - 1)).length) % 2 ^ 32 }

/-- The planes after `n` turns of the loop, which starts with plane 1. -/
def setPlanes (m : QCamera3Memory) (offset : CamFrameLenOffset) (planes : ℕ → V4l2Plane) : ℕ → ℕ → V4l2Plane
  | 0 => planes
  | n + 1 => m.setPlane offset (m.setPlanes offset planes n) (n + 1)

/-- `getBufDef`: `NO_INIT`, which is `none`, if the memory has no buffers. The number of planes becomes a
signed byte. -/
def getBufDef (m : QCamera3Memory) (offset : CamFrameLenOffset) (bufDef : MmCameraBufDef) (index : ℕ) :
    Option MmCameraBufDef :=
  if m.mBufferCount = 0 then none
  else
    let num_planes := (offset.num_planes : ℤ).bmod 256
    let plane0 : V4l2Plane :=
      { length := (offset.mp 0).len
        userptr := userptr (m.mMemInfo index).fd
        data_offset := (offset.mp 0).offset
        reserved0 := 0 }
    some
      { fd := (m.mMemInfo index).fd
        frame_len := (m.mMemInfo index).size
        buffer := m.mPtr index
        num_planes
        buf_idx := index % 256
        planes := m.setPlanes offset (Function.update bufDef.planes 0 plane0) (num_planes - 1).toNat }

variable {m : QCamera3Memory} {offset : CamFrameLenOffset}

/-- Where a plane is to start: at the sum of the lengths of the planes before it. -/
def startOf (offset : CamFrameLenOffset) (i : ℕ) : ℕ := ∑ j ∈ Finset.range i, (offset.mp j).len

theorem startOf_succ (i : ℕ) : startOf offset (i + 1) = startOf offset i + (offset.mp i).len :=
  Finset.sum_range_succ _ i

theorem startOf_mono {i j : ℕ} (h : i ≤ j) : startOf offset i ≤ startOf offset j :=
  Finset.sum_le_sum_of_subset (Finset.range_mono h)

theorem setPlanes_spec {planes : ℕ → V4l2Plane} (hstart : (planes 0).reserved0 = 0)
    (hlength : (planes 0).length = (offset.mp 0).len) (n : ℕ) :
    m.setPlanes offset planes n 0 = planes 0 ∧ ∀ i ≤ n,
      (m.setPlanes offset planes n i).length = (offset.mp i).len ∧
        (m.setPlanes offset planes n i).reserved0 = startOf offset i % 2 ^ 32 ∧
          (1 ≤ i → (m.setPlanes offset planes n i).userptr = userptr (m.mMemInfo i).fd) := by
  induction n with
  | zero =>
    refine ⟨rfl, fun i hi => ?_⟩
    obtain rfl : i = 0 := Nat.le_zero.mp hi
    exact ⟨hlength, hstart, fun h => absurd h (by omega)⟩
  | succ n ih =>
    obtain ⟨hzero, hall⟩ := ih
    rw [setPlanes, setPlane]
    refine ⟨?_, fun i hi => ?_⟩
    · rw [update_of_ne (by omega), hzero]
    rcases Nat.lt_or_eq_of_le hi with hlt | rfl
    · rw [update_of_ne (by omega)]
      exact hall i (by omega)
    · obtain ⟨hlen, hres, -⟩ := hall n (Nat.le_refl n)
      rw [update_self]
      refine ⟨rfl, ?_, fun _ => rfl⟩
      change ((m.setPlanes offset planes n n).reserved0 + (m.setPlanes offset planes n n).length) % 2 ^ 32 = _
      rw [hres, hlen, startOf_succ, Nat.mod_add_mod]

/-- **The planes of a definition**: all have the lengths of the layout and start where they should, as far as
32 bits go. Plane 0 has the file descriptor of the buffer, and a later plane that of the buffer with its
number. -/
theorem getBufDef_planes {bufDef def' : MmCameraBufDef} {index : ℕ} (hplanes : offset.num_planes ≤ videoMaxPlanes)
    (h : m.getBufDef offset bufDef index = some def') :
    def'.num_planes = offset.num_planes ∧ def'.frame_len = (m.mMemInfo index).size ∧
      (def'.planes 0).userptr = userptr (m.mMemInfo index).fd ∧ ∀ i < offset.num_planes,
        (def'.planes i).length = (offset.mp i).len ∧ (def'.planes i).reserved0 = startOf offset i % 2 ^ 32 ∧
            (1 ≤ i → (def'.planes i).userptr = userptr (m.mMemInfo i).fd) := by
  rw [getBufDef] at h
  split at h
  · cases h
  cases h
  have hcast : (offset.num_planes : ℤ).bmod 256 = offset.num_planes := by
    rw [videoMaxPlanes] at hplanes
    exact Int.bmod_eq_of_le_mul_two (by omega) (by omega)
  rw [hcast]
  have hturns : ((offset.num_planes : ℤ) - 1).toNat = offset.num_planes - 1 := by omega
  obtain ⟨hzero, hall⟩ := @setPlanes_spec m offset (update bufDef.planes 0
      { length := (offset.mp 0).len
        userptr := userptr (m.mMemInfo index).fd
        data_offset := (offset.mp 0).offset
        reserved0 := 0 })
    (by rw [update_self]) (by rw [update_self]) (offset.num_planes - 1)
  refine ⟨rfl, rfl, ?_, fun i hi => ?_⟩
  · change (m.setPlanes offset _ _ 0).userptr = _
    rw [hturns, hzero, update_self]
  · have hi := hall i (by omega)
    rw [← hturns] at hi
    exact hi

/-- The definition describes the buffer with this index: all planes have its file descriptor, each starts
where those before it end, and they lie in the buffer if there is room for them. -/
structure Describes (m : QCamera3Memory) (offset : CamFrameLenOffset) (index : ℕ) (def' : MmCameraBufDef) : Prop where
  count : def'.num_planes = offset.num_planes
  fds : ∀ i < offset.num_planes, (def'.planes i).userptr = userptr (m.mMemInfo index).fd
  starts : ∀ i < offset.num_planes, (def'.planes i).reserved0 = startOf offset i
  inside : startOf offset offset.num_planes ≤ def'.frame_len → ∀ i < offset.num_planes,
    (def'.planes i).reserved0 + (def'.planes i).length ≤ def'.frame_len

/-- **When a buffer is described**: the buffers whose indices are the numbers of the planes from 1 on have
the file descriptor of this one, and the last plane starts below `2 ^ 32`. -/
theorem describes_iff (m : QCamera3Memory) (offset : CamFrameLenOffset) (bufDef : MmCameraBufDef) (index : ℕ)
    (hbuffers : m.mBufferCount ≠ 0) (hplanes : offset.num_planes ≤ videoMaxPlanes) :
    (∃ def', m.getBufDef offset bufDef index = some def' ∧ m.Describes offset index def') ↔
      (∀ i, 1 ≤ i → i < offset.num_planes → (m.mMemInfo i).fd = (m.mMemInfo index).fd) ∧
        startOf offset (offset.num_planes - 1) < 2 ^ 32 := by
  obtain ⟨def', hdef⟩ : ∃ def', m.getBufDef offset bufDef index = some def' := ⟨_, if_neg hbuffers⟩
  obtain ⟨hcount, hframe, hzero, hall⟩ := getBufDef_planes hplanes hdef
  have hwhole : (∃ d, m.getBufDef offset bufDef index = some d ∧ m.Describes offset index d) ↔
      m.Describes offset index def' :=
    ⟨fun ⟨d, hd, h⟩ => Option.some.inj (hd.symm.trans hdef) ▸ h, fun h => ⟨def', hdef, h⟩⟩
  rw [hwhole]
  constructor
  · intro h
    refine ⟨fun i hpos hi => userptr_inj.mp (((hall i hi).2.2 hpos).symm.trans (h.fds i hi)), ?_⟩
    rcases Nat.eq_zero_or_pos offset.num_planes with hnone | hpos
    · rw [hnone]
      exact Nat.two_pow_pos 32
    · have hlast := (h.starts _ (Nat.sub_lt hpos one_pos)).symm.trans (hall _ (Nat.sub_lt hpos one_pos)).2.1
      exact hlast ▸ Nat.mod_lt _ (Nat.two_pow_pos 32)
  · rintro ⟨hfds, hstart⟩
    have hstarts (i : ℕ) (hi : i < offset.num_planes) : (def'.planes i).reserved0 = startOf offset i := by
      have hle : startOf offset i ≤ startOf offset (offset.num_planes - 1) := startOf_mono (by omega)
      rw [(hall i hi).2.1, Nat.mod_eq_of_lt (by omega)]
    refine ⟨hcount, fun i hi => ?_, hstarts, fun hroom i hi => ?_⟩
    · rcases Nat.eq_zero_or_pos i with rfl | hpos
      · exact hzero
      · rw [(hall i hi).2.2 hpos, hfds i hpos hi]
    · have hle : startOf offset (i + 1) ≤ startOf offset offset.num_planes := startOf_mono hi
      rw [startOf_succ] at hle
      rw [hstarts i hi, (hall i hi).1]
      omega

/-- One buffer, with its one plane. -/
def oneBuffer : QCamera3Memory where
  mBufferCount := 1
  mMemInfo := Function.update (fun _ => {}) 0 { fd := 7, handle := 1, size := 4096 }
  mPtr := fun _ => 1

/-- Two planes, which fit into the buffer. -/
def twoPlanes : CamFrameLenOffset where
  num_planes := 2
  mp := fun i => if i = 0 then { len := 2048 } else { len := 1024 }
  frame_len := 4096

/-- A layout with one plane describes the buffer. -/
theorem one_plane_described : ∃ def', oneBuffer.getBufDef { twoPlanes with num_planes := 1 } {} 0 = some def' ∧
      oneBuffer.Describes { twoPlanes with num_planes := 1 } 0 def' :=
  (describes_iff oneBuffer { twoPlanes with num_planes := 1 } {} 0 (by decide) (by decide)).mpr
    ⟨fun i hpos hi => absurd hi (Nat.not_lt.mpr hpos), by decide⟩

/-- The second plane of the only buffer has no file descriptor. -/
theorem second_plane_without_fd : ¬ ∃ def',
    oneBuffer.getBufDef twoPlanes {} 0 = some def' ∧ oneBuffer.Describes twoPlanes 0 def' := by
  rintro ⟨def', hdef, h⟩
  cases hdef
  exact absurd (h.fds 1 (by decide)) (by decide)

end QCamera3Memory

end Marlin
