import Marlin.MpoFormat

/-!
# Composing a Multi-Picture File

`mm_jpeg_mpo_composer.c`. `mm_jpeg_mpo_compose` copies the primary image and the auxiliary
images one after the other into the output buffer, and `mm_jpeg_mpo_update_header` then
finds the APP2 segment of the primary image, follows its multi-picture header to the MP
entries, and writes the size and the offset of each image there.

## Conventions

An address is the offset in the output buffer. `uint32` is the reduction of an offset held
in a `uint32_t`, `int32` the conversion of a `size_t` to an `int`; a byte outside the
buffer reads as 0. A failing step leaves the buffer as the steps before it left it.

## Main results

* `getAppMarker_primary`: the scan finds the APP2 segment of a primary image whose earlier
  segments are not APP2 and do not end in `0xFF`.
* `updateAux_placed`, `updateAux_overflow`: the loop over the auxiliary images writes their
  entries, or raises the overflow flag.
-/

namespace Marlin.Mpo

open List Bytes

/-- An offset held in a `uint32_t`. -/
def uint32 (n : ℕ) : ℕ := n % 2 ^ 32

/-- A `size_t` passed as an `int`. -/
def int32 (n : ℕ) : ℤ :=
  if uint32 n < 2 ^ 31 then (uint32 n : ℤ) else (uint32 n : ℤ) - 2 ^ 32

/-- The byte at an offset of the buffer. -/
def byteAt (b : List UInt8) (o : ℕ) : UInt8 := b.getD o 0

/-- `READ_LONG`. -/
def readLong (b : List UInt8) (o : ℕ) : ℕ :=
  ByteOrder.big.ofLong (byteAt b o) (byteAt b (uint32 (o + 1))) (byteAt b (uint32 (o + 2))) (byteAt b (uint32 (o + 3)))

/-- `READ_LONG_LITTLE`. -/
def readLongLittle (b : List UInt8) (o : ℕ) : ℕ :=
  ByteOrder.little.ofLong (byteAt b o) (byteAt b (uint32 (o + 1))) (byteAt b (uint32 (o + 2)))
    (byteAt b (uint32 (o + 3)))

/-- `READ_SHORT`. -/
def readShort (b : List UInt8) (o : ℕ) : ℕ :=
  ByteOrder.big.ofShort (byteAt b o) (byteAt b (uint32 (o + 1)))

/-- `READ_SHORT` at an address: the address does not wrap. -/
def readShortAddr (b : List UInt8) (p : ℕ) : ℕ :=
  ByteOrder.big.ofShort (byteAt b p) (byteAt b (p + 1))

/-! ### Writing a long -/

/-- The buffer being patched, with the overflow flag. -/
structure Patch where
  buff : List UInt8
  overflow : Bool
  deriving DecidableEq

/-- The writers of a long: the flag is raised when the last byte is outside the buffer, and
nothing is written once it is. The low 32 bits of the value are written. -/
def writeLongIn (order : ByteOrder) (s : Patch) (off size : ℕ) (value : ℤ) : Patch :=
  let overflow := s.overflow || decide (uint32 (off + 3) ≥ uint32 size)
  if overflow then { s with overflow := true }
  else
    let bs := order.long (value % 2 ^ 32).toNat
    { buff := (((s.buff.set off (bs.getD 0 0)).set (uint32 (off + 1)) (bs.getD 1 0)).set
        (uint32 (off + 2)) (bs.getD 2 0)).set (uint32 (off + 3)) (bs.getD 3 0)
      overflow := false }

/-- `mm_jpeg_mpo_write_long_little_endian`. -/
def writeLongLittleEndian : Patch → ℕ → ℕ → ℤ → Patch := writeLongIn .little

/-- `mm_jpeg_mpo_write_long`. -/
def writeLong : Patch → ℕ → ℕ → ℤ → Patch := writeLongIn .big

/-! ### Finding the APP2 segment -/

/-- The inner loop of the scan: the first byte from `p` on that is `0xFF`, or the byte at
which the end of the image stops it; with the address after it. -/
def scanFF (b : List UInt8) (size : ℤ) : ℕ → ℕ → UInt8 × ℕ
  | 0, p => (byteAt b p, p + 1)
  | fuel + 1, p =>
    if byteAt b p ≠ 0xff ∧ ((p + 1 : ℕ) : ℤ) < size - 1 then scanFF b size fuel (p + 1)
    else (byteAt b p, p + 1)

/-- The outer loop of the scan, from the address `p`. -/
def scanMarker (b : List UInt8) (size : ℤ) (marker : UInt8) : ℕ → ℕ → Option ℕ
  | 0, _ => none
  | fuel + 1, p =>
    let found := scanFF b size (size.toNat - p) p
    if found.1 ≠ 0xff then none
    else
      let byte := byteAt b found.2
      if byte = marker then some (found.2 + 1)
      else
        -- the length is skipped from the marker's code on: the last byte of the segment
        -- is where the search for the next `0xFF` starts
        let next := if byte ≠ mSoi then found.2 + readShortAddr b (found.2 + 1) else found.2
        if byte ≠ mEoi ∧ (next : ℤ) < size - 1 then scanMarker b size marker fuel next else none

/-- `mm_jpeg_mpo_get_app_marker`: the address after the marker. Each round of the scan moves
on by a byte at least, so it makes no more rounds than the image has bytes. -/
def getAppMarker (b : List UInt8) (size : ℤ) (marker : UInt8) : Option ℕ :=
  scanMarker b size marker (size.toNat + 1) 0

/-- `mm_jpeg_mpo_get_mp_header`: past the length and the identifier. -/
def getMpHeader (app2 : ℕ) : ℕ := app2 + 2 + 4

/-! ### The composer -/

/-- `mm_jpeg_mpo_info_t`: the images, the output buffer with all its bytes, and how many of
them are filled. -/
structure MpoInfo where
  primaryImage : List UInt8
  auxImages : List (List UInt8)
  outputBuff : List UInt8
  bufFilledLen : ℕ
  deriving DecidableEq

/-- The size of the allocated output buffer. -/
def MpoInfo.outputBuffSize (info : MpoInfo) : ℕ := info.outputBuff.length

/-- `MPO_LITTLE_ENDIAN`. -/
def mpoLittleEndian : ℕ := 0x49492a00

/-- The loop over the auxiliary images in `mm_jpeg_mpo_update_header`: `entry` is the offset
of the last entry written, `aux` the address of the next image. -/
def updateAux (write : Patch → ℕ → ℕ → ℤ → Patch) (size mpHeader : ℕ) :
    List (List UInt8) → ℕ → ℕ → Patch → Patch
  | [], _, _, s => s
  | image :: images, entry, aux, s =>
    let entry := uint32 (entry + 16)
    let offset := uint32 (entry + 4)
    let s := write s offset size image.length
    let offset := uint32 (offset + 4)
    let s := write s offset size ((aux : ℤ) - mpHeader)
    updateAux write size mpHeader images entry (aux + image.length) s

/-- `mm_jpeg_mpo_update_header`. -/
def mmJpegMpoUpdateHeader (info : MpoInfo) : ℤ × MpoInfo :=
  let b := info.outputBuff
  match getAppMarker b (int32 info.primaryImage.length) mApp2 with
  | none => (-1, info)
  | some app2 =>
    let mpHeader := getMpHeader app2
    let endianess := readLong b (uint32 mpHeader)
    let current := uint32 (uint32 mpHeader + 4)
    let offsetToNxtIfd :=
      if endianess = mpoLittleEndian then readLongLittle b current else readLong b current
    let current := uint32 (mpHeader + offsetToNxtIfd)
    let ifdTagCount := readShort b current
    let mpEntryVal := uint32 (current + 2 + ifdTagCount * 12 + 4)
    let write := if endianess = mpoLittleEndian then writeLongLittleEndian else writeLong
    let s := write ⟨b, false⟩ (uint32 (mpEntryVal + 4)) info.outputBuffSize info.primaryImage.length
    let s := updateAux write info.outputBuffSize mpHeader info.auxImages mpEntryVal info.primaryImage.length s
    (if s.overflow then -1 else 0, { info with outputBuff := s.buff })

/-- Appending the auxiliary images in `mm_jpeg_mpo_compose`. -/
def appendAux : List (List UInt8) → MpoInfo → Bool × MpoInfo
  | [], info => (true, info)
  | image :: images, info =>
    if info.bufFilledLen + image.length ≤ info.outputBuffSize then
      appendAux images { info with
          outputBuff := overwrite info.outputBuff info.bufFilledLen image
          bufFilledLen := info.bufFilledLen + image.length }
    else (false, info)

/-- Copying the primary image in `mm_jpeg_mpo_compose`, when the output is still empty. -/
def copyPrimary (info : MpoInfo) : Bool × MpoInfo :=
  if info.bufFilledLen = 0 then
    if info.primaryImage.length < info.outputBuffSize then
      (true, { info with
        outputBuff := overwrite info.outputBuff 0 info.primaryImage
        bufFilledLen := info.bufFilledLen + info.primaryImage.length })
    else (false, info)
  else (true, info)

/-- `mm_jpeg_mpo_compose`. -/
def mmJpegMpoCompose (info : MpoInfo) : ℤ × MpoInfo :=
  let copied := copyPrimary info
  if copied.1 then
    let appended := appendAux info.auxImages copied.2
    if appended.1 then mmJpegMpoUpdateHeader appended.2 else (-1, appended.2)
  else (-1, copied.2)

/-! ### Reads and writes of a block -/

theorem uint32_of_lt {n : ℕ} (h : n < 2 ^ 32) : uint32 n = n := Nat.mod_eq_of_lt h

theorem uint32_lt (n : ℕ) : uint32 n < 2 ^ 32 := Nat.mod_lt _ (by decide)

theorem byteAt_block {pre block post : List UInt8} {n i : ℕ} (hn : n = pre.length)
    (hi : i < block.length) : byteAt (pre ++ (block ++ post)) (n + i) = block.getD i 0 :=
  getD_block hn hi

theorem byteAt_first {pre block post : List UInt8} {n : ℕ} (hn : n = pre.length)
    (hblock : 0 < block.length) : byteAt (pre ++ (block ++ post)) n = block.getD 0 0 :=
  byteAt_block (i := 0) hn hblock

variable {pre post : List UInt8}

theorem readLong_block {a b c d : UInt8} {n : ℕ} (hn : n = pre.length) (hlt : n + 4 ≤ 2 ^ 32) :
    readLong (pre ++ ([a, b, c, d] ++ post)) n = ByteOrder.big.ofLong a b c d := by
  rw [readLong, uint32_of_lt (by omega), uint32_of_lt (by omega), uint32_of_lt (by omega),
    byteAt_block (i := 1) hn (by simp), byteAt_block (i := 2) hn (by simp),
    byteAt_block (i := 3) hn (by simp), byteAt_first hn (by simp)]
  rfl

theorem readLongLittle_block {a b c d : UInt8} {n : ℕ}
    (hn : n = pre.length) (hlt : n + 4 ≤ 2 ^ 32) :
    readLongLittle (pre ++ ([a, b, c, d] ++ post)) n = ByteOrder.little.ofLong a b c d := by
  rw [readLongLittle, uint32_of_lt (by omega), uint32_of_lt (by omega),
    uint32_of_lt (by omega), byteAt_block (i := 1) hn (by simp),
    byteAt_block (i := 2) hn (by simp), byteAt_block (i := 3) hn (by simp),
    byteAt_first hn (by simp)]
  rfl

theorem readShort_block {a b : UInt8} {n : ℕ} (hn : n = pre.length) (hlt : n + 2 ≤ 2 ^ 32) :
    readShort (pre ++ ([a, b] ++ post)) n = ByteOrder.big.ofShort a b := by
  rw [readShort, uint32_of_lt (by omega), byteAt_block (i := 1) hn (by simp), byteAt_first hn (by simp)]
  rfl

theorem writeLongIn_block {pre old post : List UInt8} {n size : ℕ} {value : ℤ}
    (order : ByteOrder) (hn : n = pre.length) (hold : old.length = 4)
    (hfit : n + 4 ≤ uint32 size) :
    writeLongIn order ⟨pre ++ (old ++ post), false⟩ n size value =
      ⟨pre ++ (order.long (value % 2 ^ 32).toNat ++ post), false⟩ := by
  have hsize := uint32_lt size
  obtain ⟨a, b, c, d, hlong, -⟩ := order.long_eq (value % 2 ^ 32).toNat
  obtain ⟨a', b', c', d', rfl⟩ : ∃ a' b' c' d', old = [a', b', c', d'] := by
    match old, hold with
    | [a', b', c', d'], _ => exact ⟨a', b', c', d', rfl⟩
  have hflag : ¬ uint32 (n + 3) ≥ uint32 size := by
    rw [uint32_of_lt (by omega)]
    omega
  rw [writeLongIn, hlong]
  simp only [hflag, decide_false, Bool.or_false, Bool.false_eq_true, if_false, Patch.mk.injEq, and_true]
  rw [uint32_of_lt (by omega), uint32_of_lt (by omega), uint32_of_lt (by omega)]
  exact set_four hn a' b' c' d' a b c d

theorem writeLongIn_overflow {order : ByteOrder} {s : Patch} {off size : ℕ} {value : ℤ}
    (h : s.overflow = true ∨ uint32 size ≤ uint32 (off + 3)) :
    (writeLongIn order s off size value).overflow = true := by
  have hflag : (s.overflow || decide (uint32 (off + 3) ≥ uint32 size)) = true := by
    rcases h with h | h
    · rw [h, Bool.true_or]
    · rw [decide_eq_true h, Bool.or_true]
  simp only [writeLongIn, hflag, if_true]

/-! ### The scan -/

theorem scanFF_next {b : List UInt8} {size : ℤ} {fuel p : ℕ} (hfuel : 0 < fuel)
    (hp : byteAt b p ≠ 0xff) (hnext : byteAt b (p + 1) = 0xff)
    (hsize : ((p + 1 : ℕ) : ℤ) < size - 1) : scanFF b size fuel p = (0xff, p + 2) := by
  obtain ⟨fuel, rfl⟩ := Nat.exists_eq_add_of_lt hfuel
  rw [Nat.zero_add, scanFF, if_pos ⟨hp, hsize⟩]
  cases fuel with
  | zero => rw [scanFF, hnext]
  | succ fuel => rw [scanFF, if_neg (fun h => h.1 hnext), hnext]

/-- A segment that the scan passes: it is not APP2, and its last byte is not `0xFF`. -/
def Segment.Passed (s : Segment) : Prop := s.marker ≠ mApp2 ∧ s.payload.getLast? ≠ some 0xff
deriving Decidable

theorem Segment.Passed.split {s : Segment} (h : s.Passed) :
    ∃ front y, s.bytes = front ++ [y] ∧ front.length = s.payload.length + 3 ∧ y ≠ 0xff := by
  rcases eq_nil_or_concat s.payload with hpayload | ⟨front, y, hpayload⟩
  · refine ⟨[0xff, s.marker, 0], 2, ?_, ?_, by decide⟩
    · rw [Segment.bytes, hpayload]
      rfl
    · rw [hpayload]
      rfl
  · rw [concat_eq_append] at hpayload
    refine ⟨0xff :: s.marker :: (ByteOrder.big.short (s.payload.length + 2) ++ front), y, ?_, ?_, ?_⟩
    · rw [Segment.bytes, hpayload]
      simp
    · simp [hpayload]
      omega
    · rintro rfl
      exact h.2 (by rw [hpayload, getLast?_concat])

@[simp] theorem Segment.length_bytes (s : Segment) : s.bytes.length = s.payload.length + 4 := by
  simp only [Segment.bytes, length_cons, length_append, ByteOrder.length_short]
  omega

/-- One round of the scan moves from the byte before a segment to the segment's last byte. -/
theorem scanMarker_segment {x : UInt8} {s : Segment} {size : ℤ}
    {fuel p : ℕ} (hs : s.Passed) (hx : x ≠ 0xff) (hp : p = pre.length)
    (hsize : ((p + s.bytes.length + 1 : ℕ) : ℤ) < size) :
    scanMarker (pre ++ (x :: (s.bytes ++ post))) size mApp2 (fuel + 1) p =
      scanMarker (pre ++ (x :: (s.bytes ++ post))) size mApp2 fuel (p + s.bytes.length) := by
  rw [Segment.length_bytes] at hsize ⊢
  obtain ⟨l, l', hshort, hlen⟩ := ByteOrder.big.short_eq (s.payload.length + 2)
  have hbytes : pre ++ (x :: (s.bytes ++ post)) = pre ++ ([x, 0xff, s.marker, l, l'] ++ (s.payload ++ post)) := by
    rw [Segment.bytes, hshort]
    simp
  have hbyte : ∀ i < 5, byteAt (pre ++ (x :: (s.bytes ++ post))) (p + i) = [x, 0xff, s.marker, l, l'].getD i 0 := by
    intro i hi
    rw [hbytes]
    exact byteAt_block hp (by simpa using hi)
  have hfound : scanFF (pre ++ (x :: (s.bytes ++ post))) size (size.toNat - p) p = (0xff, p + 2) := by
    apply scanFF_next (by omega)
    · have hbyte0 := hbyte 0 (by decide)
      rw [Nat.add_zero] at hbyte0
      rw [hbyte0]
      exact hx
    · exact hbyte 1 (by decide)
    · push_cast at hsize ⊢
      omega
  have hmarker := hbyte 2 (by decide)
  simp only [getD_cons_succ, getD_cons_zero] at hmarker
  have hstandalone := s.is_segment
  have hsoi : s.marker ≠ mSoi := by
    intro h
    rw [h] at hstandalone
    exact absurd hstandalone (by decide)
  have heoi : s.marker ≠ mEoi := by
    intro h
    rw [h] at hstandalone
    exact absurd hstandalone (by decide)
  have hskip : p + 2 + readShortAddr (pre ++ (x :: (s.bytes ++ post))) (p + 2 + 1) = p + (s.payload.length + 4) := by
    rw [readShortAddr, hbyte 3 (by decide), hbyte 4 (by decide)]
    have hshort := s.short
    simp only [getD_cons_succ, getD_cons_zero]
    omega
  rw [scanMarker]
  simp only [hfound, hmarker, ne_eq, not_true_eq_false, if_false, hs.1, hsoi, heoi,
    not_false_eq_true, if_true, true_and, hskip]
  rw [if_pos]
  push_cast at hsize ⊢
  omega

theorem scanMarker_found {x : UInt8} {size : ℤ} {fuel p : ℕ}
    (hx : x ≠ 0xff) (hp : p = pre.length) (hsize : ((p + 2 : ℕ) : ℤ) < size) :
    scanMarker (pre ++ (x :: 0xff :: mApp2 :: post)) size mApp2 (fuel + 1) p = some (p + 3) := by
  have hbyte : ∀ i < 3, byteAt (pre ++ (x :: 0xff :: mApp2 :: post)) (p + i) = [x, 0xff, mApp2].getD i 0 := by
    intro i hi
    exact @byteAt_block pre [x, 0xff, mApp2] post p i hp (by simpa using hi)
  have hfound : scanFF (pre ++ (x :: 0xff :: mApp2 :: post)) size (size.toNat - p) p = (0xff, p + 2) := by
    apply scanFF_next (by omega)
    · have hbyte0 := hbyte 0 (by decide)
      rw [Nat.add_zero] at hbyte0
      rw [hbyte0]
      exact hx
    · exact hbyte 1 (by decide)
    · push_cast at hsize ⊢
      omega
  have hmarker := hbyte 2 (by decide)
  simp only [getD_cons_succ, getD_cons_zero] at hmarker
  rw [scanMarker]
  simp only [hfound, hmarker, ne_eq, not_true_eq_false, if_false, if_true]

theorem scanMarker_segments {post : List UInt8} {size : ℤ} :
    ∀ (segments : List Segment) {pre : List UInt8} {x : UInt8} {fuel p : ℕ},
      (∀ s ∈ segments, s.Passed) → x ≠ 0xff → p = pre.length → segments.length < fuel →
      ((p + (segments.flatMap Segment.bytes).length + 2 : ℕ) : ℤ) < size →
      scanMarker (pre ++ (x :: (segments.flatMap Segment.bytes ++ (0xff :: mApp2 :: post))))
        size mApp2 fuel p = some (p + (segments.flatMap Segment.bytes).length + 3) := by
  intro segments
  induction segments with
  | nil =>
    intro pre x fuel p _ hx hp hfuel hsize
    obtain ⟨fuel, rfl⟩ := Nat.exists_eq_add_of_lt hfuel
    exact scanMarker_found hx hp hsize
  | cons s segments ih =>
    intro pre x fuel p hpassed hx hp hfuel hsize
    obtain ⟨fuel, rfl⟩ := Nat.exists_eq_add_of_lt (Nat.zero_lt_of_lt hfuel)
    obtain ⟨front, y, hbytes, hfront, hy⟩ := (hpassed s mem_cons_self).split
    rw [flatMap_cons, length_append] at hsize ⊢
    rw [append_assoc, Nat.zero_add, scanMarker_segment (hpassed s mem_cons_self) hx hp (by push_cast at hsize ⊢; omega)]
    have hmoved : pre ++ (x :: (s.bytes ++ (segments.flatMap Segment.bytes ++
        (0xff :: mApp2 :: post)))) = (pre ++ x :: front) ++
        (y :: (segments.flatMap Segment.bytes ++ (0xff :: mApp2 :: post))) := by
      rw [hbytes]
      simp
    rw [hmoved, ih (fun s hs => hpassed s (mem_cons_of_mem _ hs)) hy]
    · rw [Nat.add_assoc p]
    · rw [Segment.length_bytes, length_append, length_cons, hfront, hp]
    · rw [length_cons] at hfuel
      omega
    · push_cast at hsize ⊢
      omega

/-- A primary image whose earlier segments the scan passes. -/
def Primary.Scanned (p : Primary) : Prop := ∀ s ∈ p.segments, s.Passed

theorem Primary.length_bytes (p : Primary) :
    p.bytes.length = p.entriesStart + 16 * p.mp.entries.length + p.mp.tail.length + p.rest.length := by
  simp only [Primary.bytes, length_append, MpHeader.length_bytes, Primary.entriesStart, Primary.mpStart]
  omega

theorem Primary.mpStart_eq (p : Primary) : p.mpStart = (p.segments.flatMap Segment.bytes).length + 10 := by
  simp [Primary.mpStart, Primary.before]

theorem length_segments_le (segments : List Segment) : segments.length ≤ (segments.flatMap Segment.bytes).length := by
  induction segments with
  | nil => exact le_rfl
  | cons s segments ih =>
    rw [flatMap_cons, length_append, length_cons, Segment.length_bytes]
    omega

/-- The scan finds the APP2 segment of a primary image. -/
theorem getAppMarker_primary {p : Primary} {post : List UInt8} (hscan : p.Scanned) :
    (getAppMarker (p.bytes ++ post) p.bytes.length mApp2).map getMpHeader = some p.mpStart := by
  have hlen := p.length_bytes
  have hstart := p.mpStart_eq
  have hentries : p.mpStart + 14 ≤ p.entriesStart := by
    rw [Primary.entriesStart, MpHeader.length_front]
    omega
  have hsegments := length_segments_le p.segments
  obtain ⟨tail, htail⟩ : ∃ tail, p.bytes ++ post = 0xff :: mSoi ::
      (p.segments.flatMap Segment.bytes ++ (0xff :: mApp2 :: tail)) := by
    refine ⟨ByteOrder.big.short (p.mp.bytes.length + 6) ++ ([0x4d, 0x50, 0x46, 0x00] ++
      ((p.mp.bytes ++ p.rest) ++ post)), ?_⟩
    simp [Primary.bytes, Primary.before]
  have hfound : scanFF (p.bytes ++ post) p.bytes.length ((p.bytes.length : ℤ).toNat - 0) 0 = (0xff, 1) := by
    have hfuel : (p.bytes.length : ℤ).toNat - 0 = (p.bytes.length - 1) + 1 := by omega
    rw [hfuel, scanFF, htail]
    exact if_neg fun h => h.1 rfl
  have hsoi : byteAt (p.bytes ++ post) 1 = mSoi := by
    rw [htail]
    rfl
  have hrounds : (p.bytes.length : ℤ).toNat = p.bytes.length := Int.toNat_natCast _
  rw [getAppMarker, scanMarker]
  simp only [hfound, hsoi, ne_eq, not_true_eq_false, if_false]
  rw [if_neg (by decide), if_pos ⟨by decide, by omega⟩, htail, hrounds]
  have hsegs := @scanMarker_segments tail p.bytes.length p.segments [0xff] mSoi p.bytes.length 1
    hscan (by decide) rfl (by omega) (by push_cast; omega)
  rw [singleton_append] at hsegs
  rw [hsegs, Option.map_some, getMpHeader, hstart]
  congr 1
  omega

theorem getAppMarker_negative {p : Primary} {post : List UInt8} {size : ℤ} (hsize : size < 0) :
    getAppMarker (p.bytes ++ post) size mApp2 = none := by
  obtain ⟨tail, htail⟩ : ∃ tail, p.bytes ++ post = 0xff :: mSoi :: tail := by
    refine ⟨(p.segments.flatMap Segment.bytes ++ (0xff :: mApp2 ::
      (ByteOrder.big.short (p.mp.bytes.length + 6) ++ [0x4d, 0x50, 0x46, 0x00]))) ++
      ((p.mp.bytes ++ p.rest) ++ post), ?_⟩
    simp [Primary.bytes, Primary.before]
  have hfuel : size.toNat = 0 := Int.toNat_of_nonpos hsize.le
  have hfound : scanFF (p.bytes ++ post) size 0 0 = (0xff, 1) := by
    rw [scanFF, htail]
    rfl
  have hsoi : byteAt (p.bytes ++ post) 1 = mSoi := by
    rw [htail]
    rfl
  rw [getAppMarker, hfuel, scanMarker, hfuel]
  simp only [hfound, hsoi, ne_eq, not_true_eq_false, if_false]
  rw [if_neg (by decide), if_neg]
  rintro ⟨-, h⟩
  omega

/-! ### Writing the entries -/

theorem toNat_mod (n : ℕ) : (((n : ℤ) % 2 ^ 32).toNat) = (UInt32.ofNat n).toNat := by
  rw [UInt32.toNat_ofNat']
  omega

/-- An entry with the size of its image written. -/
def MpEntry.withSize (e : MpEntry) (size : ℕ) : MpEntry := { e with size := UInt32.ofNat size }

/-- An entry with the size and the offset of its image written. -/
def MpEntry.withPlace (e : MpEntry) (size start : ℕ) : MpEntry :=
  { e with size := UInt32.ofNat size, dataOffset := UInt32.ofNat start }

/-- The entries of the auxiliary images, the first of which lies `start` behind the header. -/
def placeAux : ℕ → List (List UInt8) → List MpEntry → List MpEntry
  | start, image :: images, e :: es =>
    e.withPlace image.length start :: placeAux (start + image.length) images es
  | _, _, es => es

theorem writeLongIn_size {e : MpEntry} {n k size : ℕ}
    (order : ByteOrder) (hn : n = pre.length) (hfit : n + 8 ≤ uint32 size) :
    writeLongIn order ⟨pre ++ (e.bytes order ++ post), false⟩ (n + 4) size (k : ℤ) =
      ⟨pre ++ ((e.withSize k).bytes order ++ post), false⟩ := by
  have hwrite := @writeLongIn_block (pre ++ order.long e.attr.toNat) (order.long e.size.toNat)
    (order.long e.dataOffset.toNat ++ (order.short e.dependent1.toNat ++ order.short e.dependent2.toNat) ++ post)
    (n + 4) size k order (by simp [hn]) (by simp) (by omega)
  rw [toNat_mod] at hwrite
  simp only [MpEntry.bytes, MpEntry.withSize, append_assoc] at hwrite ⊢
  exact hwrite

theorem writeLongIn_offset {e : MpEntry} {n k m size : ℕ}
    (order : ByteOrder) (hn : n = pre.length) (hfit : n + 12 ≤ uint32 size) :
    writeLongIn order ⟨pre ++ ((e.withSize k).bytes order ++ post), false⟩ (n + 8) size (m : ℤ) =
      ⟨pre ++ ((e.withPlace k m).bytes order ++ post), false⟩ := by
  have hwrite := @writeLongIn_block (pre ++ (order.long e.attr.toNat ++ order.long (UInt32.ofNat k).toNat))
    (order.long e.dataOffset.toNat)
    ((order.short e.dependent1.toNat ++ order.short e.dependent2.toNat) ++ post)
    (n + 8) size m order (by simp [hn]) (by simp) (by omega)
  rw [toNat_mod] at hwrite
  simp only [MpEntry.bytes, MpEntry.withSize, MpEntry.withPlace, append_assoc] at hwrite ⊢
  exact hwrite

/-- The loop over the auxiliary images writes their entries, when the last offset field lies
inside the buffer. -/
theorem updateAux_placed {order : ByteOrder} {size mpHeader : ℕ} {post : List UInt8} :
    ∀ (images : List (List UInt8)) (es : List MpEntry) {pre : List UInt8} {entry start : ℕ},
      es.length = images.length → entry + 16 = pre.length →
      (images ≠ [] → entry + 16 * images.length + 12 ≤ uint32 size) →
      updateAux (writeLongIn order) size mpHeader images entry (mpHeader + start)
          ⟨pre ++ (es.flatMap (MpEntry.bytes order) ++ post), false⟩ =
        ⟨pre ++ ((placeAux start images es).flatMap (MpEntry.bytes order) ++ post), false⟩ := by
  have hsize := uint32_lt size
  intro images
  induction images with
  | nil =>
    intro es pre entry start hes _ _
    obtain rfl := eq_nil_of_length_eq_zero hes
    rfl
  | cons image images ih =>
    intro es pre entry start hes hpre hfit
    cases es with
    | nil => exact absurd hes (by simp)
    | cons e es =>
      have hfit := hfit (cons_ne_nil _ _)
      rw [length_cons] at hfit
      have hentry : uint32 (entry + 16) = pre.length := by
        rw [hpre]
        exact uint32_of_lt (by omega)
      have hoffset : uint32 (pre.length + 4) = pre.length + 4 := uint32_of_lt (by omega)
      have hoffset' : uint32 (pre.length + 4 + 4) = pre.length + 8 := uint32_of_lt (by omega)
      have hdiff : ((mpHeader + start : ℕ) : ℤ) - mpHeader = (start : ℕ) := by
        omega
      rw [updateAux]
      simp only [hentry, hoffset, hoffset', hdiff]
      rw [flatMap_cons, append_assoc, writeLongIn_size order rfl (by omega),
        writeLongIn_offset order rfl (by omega), Nat.add_assoc, ← append_assoc pre]
      rw [ih es (by simpa using hes) (by simp) (by
        intro hne
        have hpos := length_pos_iff.mpr hne
        omega)]
      rw [placeAux, flatMap_cons]
      simp only [append_assoc]

theorem updateAux_sticky {order : ByteOrder} {size mpHeader : ℕ} :
    ∀ (images : List (List UInt8)) {entry aux : ℕ} {s : Patch}, s.overflow = true →
      (updateAux (writeLongIn order) size mpHeader images entry aux s).overflow = true := by
  intro images
  induction images with
  | nil =>
    intro entry aux s h
    exact h
  | cons image images ih =>
    intro entry aux s h
    exact ih (writeLongIn_overflow (.inl (writeLongIn_overflow (.inl h))))

/-- The loop raises the flag when the last offset field lies outside the buffer. -/
theorem updateAux_overflow {order : ByteOrder} {size mpHeader : ℕ} :
    ∀ (images : List (List UInt8)) {entry aux : ℕ} {s : Patch}, images ≠ [] → entry + 16 * images.length + 12 < 2 ^ 32 →
      uint32 size < entry + 16 * images.length + 12 →
      (updateAux (writeLongIn order) size mpHeader images entry aux s).overflow = true := by
  intro images
  induction images with
  | nil =>
    intro entry aux s hne
    exact absurd rfl hne
  | cons image images ih =>
    intro entry aux s _ hlt hover
    rw [length_cons] at hlt hover
    have hentry : uint32 (entry + 16) = entry + 16 := uint32_of_lt (by omega)
    rw [updateAux]
    simp only [hentry]
    cases images with
    | nil =>
      have hlt' : entry + 28 < 2 ^ 32 := by simpa using hlt
      have hover' : uint32 size < entry + 28 := by simpa using hover
      apply updateAux_sticky
      apply writeLongIn_overflow
      right
      rw [uint32_of_lt (show entry + 16 + 4 < 2 ^ 32 by omega),
        uint32_of_lt (show entry + 16 + 4 + 4 < 2 ^ 32 by omega),
        uint32_of_lt (show entry + 16 + 4 + 4 + 3 < 2 ^ 32 by omega)]
      omega
    | cons image' images =>
      exact ih (cons_ne_nil _ _) (by omega) (by omega)

end Marlin.Mpo
