import Marlin.InPlace
import Marlin.StreamPlanes

/-!
# Converting a Raw Frame in Place

A frame of 10-bit pixels is converted to one of 16-bit pixels in the same buffer, from the last pixel to the first.
The rows of the 16-bit frame are as long as those of the 10-bit one or longer, so that a pixel is written behind
what the pixels before it are read from. The one exception, the first group of a MIPI frame, whose fifth byte goes
with the third pixel, is converted again from a copy.

## Conventions

* The buffer is the memory from its address on. Of this no more is accessed than the 16-bit frame (`turns_within`,
  `legacy_word`), which the buffer has to hold; its length is a length of a frame, of 32 bits.
* Numbers of 16 and of 64 bits stand in the buffer with the lowest byte first.
* What the source computes in 32 bits is reduced to them.

## Main results

* `pixels_disjoint`: no pixel is written where a later one is read, but for the first group.
* `raw16_exact`: after the conversion every 16-bit pixel is the 10-bit pixel of the frame before.
-/

namespace Marlin

namespace Raw16

open List Function StreamPlanes

/-- The bytes of the buffer. -/
abbrev Memory := ℕ → UInt8

/-- Number `i` of the buffer as an array of 16-bit numbers. -/
def load16 (m : Memory) (i : ℕ) : ℕ := (m (2 * i)).toNat + 2 ^ 8 * (m (2 * i + 1)).toNat

/-- Number `i` is written. -/
def store16 (m : Memory) (i v : ℕ) : Memory :=
  Function.update (Function.update m (2 * i) (UInt8.ofNat v)) (2 * i + 1) (UInt8.ofNat (v >>> 8))

/-- The 64-bit number at an address. -/
def load64 (m : Memory) (a : ℕ) : ℕ :=
  (m a).toNat + 2 ^ 8 * (m (a + 1)).toNat + 2 ^ 16 * (m (a + 2)).toNat + 2 ^ 24 * (m (a + 3)).toNat +
    2 ^ 32 * (m (a + 4)).toNat + 2 ^ 40 * (m (a + 5)).toNat + 2 ^ 48 * (m (a + 6)).toNat + 2 ^ 56 * (m (a + 7)).toNat

/-- `raw16_stride`. -/
def raw16Stride (width : ℕ) : ℕ := padToSize width 16

/-- The pixel `x` of a row of the opaque format, where six pixels stand in a word of 64 bits. -/
def legacyPixel (m : Memory) (row_start x : ℕ) : ℕ := 0x3FF &&& (load64 m (row_start + 8 * (x / 6)) >>> (10 * (x % 6)))

/-- The pixel `x` of a row of the MIPI format, where four pixels stand in five bytes. -/
def mipiPixel (m : Memory) (row_start x : ℕ) : ℕ :=
  let upper_8bit := (m (row_start + (5 * (x / 4) + x % 4))).toNat
  let lower_2bit := ((m (row_start + (5 * (x / 4) + 4))).toNat >>> ((x % 4) <<< 1)) &&& 0x3
  upper_8bit <<< 2 ||| lower_2bit

/-- The loop over the pixels of a row, from the last one on, with those still to do. -/
def rowLoop (convert : ℕ × ℕ → Memory → Memory) (y : ℕ) : ℕ → Memory → Memory
  | 0, m => m
  | x + 1, m => rowLoop convert y x (convert (y, x) m)

/-- The loop over the rows, from the last one on, with those still to do. -/
def frameLoop (convert : ℕ × ℕ → Memory → Memory) (width : ℕ) : ℕ → Memory → Memory
  | 0, m => m
  | y + 1, m => frameLoop convert width y (rowLoop convert y width m)

/-- The body of the loops of `convertLegacyToRaw16`. -/
def legacyStep (width stride_in_bytes : ℕ) (p : ℕ × ℕ) (m : Memory) : Memory :=
  store16 m ((p.1 * raw16Stride width + p.2) % 2 ^ 32) (legacyPixel m (p.1 * stride_in_bytes % 2 ^ 32 / 8 * 8) p.2)

/-- `convertLegacyToRaw16`. -/
def convertLegacyToRaw16 (dim : CamDimension) (stride_in_bytes : ℕ) (m : Memory) : Memory :=
  frameLoop (legacyStep dim.width stride_in_bytes) dim.width dim.height m

/-- The body of the loops of `convertMipiToRaw16`. -/
def mipiStep (width stride_in_bytes : ℕ) (p : ℕ × ℕ) (m : Memory) : Memory :=
  store16 m ((p.1 * raw16Stride width + p.2) % 2 ^ 32) (mipiPixel m (p.1 * stride_in_bytes % 2 ^ 32) p.2)

/-- `convertMipiToRaw16`. -/
def convertMipiToRaw16 (dim : CamDimension) (stride_in_bytes : ℕ) (m : Memory) : Memory :=
  let first_quintuple := fun i => (m i).toNat
  let m := frameLoop (mipiStep dim.width stride_in_bytes) dim.width dim.height m
  -- the loop has written the fifth byte before the first two pixels are read
  let m := store16 m 0 (first_quintuple 0 <<< 2 ||| (first_quintuple 4 &&& 0x3))
  store16 m 1 (first_quintuple 1 <<< 2 ||| ((first_quintuple 4 >>> 2) &&& 0x3))

/-! ### Numbers in the buffer -/

theorem store16_lo (m : Memory) (i v : ℕ) : store16 m i v (2 * i) = UInt8.ofNat v := by
  rw [store16, update_of_ne (Nat.ne_of_lt (Nat.lt_succ_self _)), update_self]

theorem store16_hi (m : Memory) (i v : ℕ) : store16 m i v (2 * i + 1) = UInt8.ofNat (v >>> 8) :=
  update_self ..

variable {m : Memory} {i v a : ℕ}

theorem store16_of_ne (h : a ≠ 2 * i ∧ a ≠ 2 * i + 1) : store16 m i v a = m a := by
  rw [store16, update_of_ne h.2, update_of_ne h.1]

theorem load16_store16 (m : Memory) (i : ℕ) (hv : v < 2 ^ 16) : load16 (store16 m i v) i = v := by
  rw [load16, store16_lo, store16_hi, UInt8.toNat_ofNat', UInt8.toNat_ofNat', Nat.shiftRight_eq_div_pow]
  omega

variable {m' : Memory}

theorem load16_congr (hlo : m (2 * i) = m' (2 * i)) (hhi : m (2 * i + 1) = m' (2 * i + 1)) :
    load16 m i = load16 m' i := by
  rw [load16, load16, hlo, hhi]

theorem load16_store16_of_ne (m : Memory) {j : ℕ} (h : i ≠ j) : load16 (store16 m j v) i = load16 m i :=
  load16_congr (store16_of_ne ⟨by omega, by omega⟩) (store16_of_ne ⟨by omega, by omega⟩)

/-! ### The pixels -/

theorem and_three_lt (n : ℕ) : n &&& 0x3 < 4 := Nat.lt_of_le_of_lt Nat.and_le_right (by decide)

theorem mipiPixel_lt (m : Memory) (row_start x : ℕ) : mipiPixel m row_start x < 2 ^ 16 := by
  have hupper := UInt8.toNat_lt (m (row_start + (5 * (x / 4) + x % 4)))
  refine Nat.or_lt_two_pow ?_ (Nat.lt_of_lt_of_le (and_three_lt _) (by decide))
  rw [Nat.shiftLeft_eq]
  omega

theorem legacyPixel_lt (m : Memory) (row_start x : ℕ) : legacyPixel m row_start x < 2 ^ 16 :=
  Nat.lt_of_le_of_lt Nat.and_le_left (by decide)

/-- The pixel `x` of a row as the MIPI format has it: its byte above two bits of the last byte of its group. -/
def mipi10 (m : Memory) (row_start x : ℕ) : ℕ :=
  4 * (m (row_start + (5 * (x / 4) + x % 4))).toNat + (m (row_start + (5 * (x / 4) + 4))).toNat / 4 ^ (x % 4) % 4

/-- The pixel `x` of a row as the opaque format has it: ten bits of its word. -/
def legacy10 (m : Memory) (row_start x : ℕ) : ℕ := load64 m (row_start + 8 * (x / 6)) / 2 ^ (10 * (x % 6)) % 2 ^ 10

theorem shift_or (upper lower k : ℕ) :
    upper <<< 2 ||| ((lower >>> (k <<< 1)) &&& 0x3) = 4 * upper + lower / 4 ^ k % 4 := by
  have hlow : (lower >>> (k <<< 1)) &&& 0x3 = lower / 4 ^ k % 4 := by
    rw [show 0x3 = 2 ^ 2 - 1 from rfl, Nat.and_two_pow_sub_one_eq_mod, Nat.shiftRight_eq_div_pow, Nat.shiftLeft_eq,
      Nat.mul_comm k, Nat.pow_mul]
  rw [hlow, ← Nat.shiftLeft_add_eq_or_of_lt (Nat.mod_lt _ (by decide)), Nat.shiftLeft_eq, Nat.mul_comm]

theorem mipiPixel_spec (m : Memory) (row_start x : ℕ) : mipiPixel m row_start x = mipi10 m row_start x := shift_or ..

theorem legacyPixel_spec (m : Memory) (row_start x : ℕ) : legacyPixel m row_start x = legacy10 m row_start x := by
  rw [legacyPixel, Nat.and_comm, show 0x3FF = 2 ^ 10 - 1 from rfl, Nat.and_two_pow_sub_one_eq_mod,
    Nat.shiftRight_eq_div_pow, legacy10]

variable {x : ℕ}

theorem mipiPixel_congr {row_start : ℕ}
    (hupper : m (row_start + (5 * (x / 4) + x % 4)) = m' (row_start + (5 * (x / 4) + x % 4)))
    (hlower : m (row_start + (5 * (x / 4) + 4)) = m' (row_start + (5 * (x / 4) + 4))) :
    mipiPixel m row_start x = mipiPixel m' row_start x := by
  rw [mipiPixel, mipiPixel, hupper, hlower]

/-- **The ten bits of a pixel of the opaque format** stand in two bytes of its word. -/
theorem legacyPixel_eq (m : Memory) (row_start x : ℕ) : legacyPixel m row_start x =
      ((m (row_start + 8 * (x / 6) + 10 * (x % 6) / 8)).toNat +
        2 ^ 8 * (m (row_start + 8 * (x / 6) + 10 * (x % 6) / 8 + 1)).toNat) / 2 ^ (10 * (x % 6) % 8) % 2 ^ 10 := by
  have hbyte (k : ℕ) := UInt8.toNat_lt (m (row_start + 8 * (x / 6) + k))
  have h0 := hbyte 0
  have h1 := hbyte 1
  have h2 := hbyte 2
  have h3 := hbyte 3
  have h4 := hbyte 4
  have h5 := hbyte 5
  have h6 := hbyte 6
  have h7 := hbyte 7
  rw [legacyPixel_spec, legacy10, load64]
  generalize row_start + 8 * (x / 6) = a at *
  have hx : x % 6 = 0 ∨ x % 6 = 1 ∨ x % 6 = 2 ∨ x % 6 = 3 ∨ x % 6 = 4 ∨ x % 6 = 5 := by omega
  rcases hx with hx | hx | hx | hx | hx | hx
  · rw [hx]
    change _ = ((m (a)).toNat + 2 ^ 8 * (m (a + 1)).toNat) / 2 ^ 0 % 2 ^ 10
    omega
  · rw [hx]
    change _ = ((m (a + 1)).toNat + 2 ^ 8 * (m (a + 2)).toNat) / 2 ^ 2 % 2 ^ 10
    omega
  · rw [hx]
    change _ = ((m (a + 2)).toNat + 2 ^ 8 * (m (a + 3)).toNat) / 2 ^ 4 % 2 ^ 10
    omega
  · rw [hx]
    change _ = ((m (a + 3)).toNat + 2 ^ 8 * (m (a + 4)).toNat) / 2 ^ 6 % 2 ^ 10
    omega
  · rw [hx]
    change _ = ((m (a + 5)).toNat + 2 ^ 8 * (m (a + 6)).toNat) / 2 ^ 0 % 2 ^ 10
    omega
  · rw [hx]
    change _ = ((m (a + 6)).toNat + 2 ^ 8 * (m (a + 7)).toNat) / 2 ^ 2 % 2 ^ 10
    omega

theorem legacyPixel_congr {row_start : ℕ}
    (hfirst : m (row_start + (8 * (x / 6) + 10 * (x % 6) / 8)) = m' (row_start + (8 * (x / 6) + 10 * (x % 6) / 8)))
    (hsecond : m (row_start + (8 * (x / 6) + 10 * (x % 6) / 8 + 1)) =
      m' (row_start + (8 * (x / 6) + 10 * (x % 6) / 8 + 1))) :
    legacyPixel m row_start x = legacyPixel m' row_start x := by
  rw [legacyPixel_eq, legacyPixel_eq, Nat.add_assoc row_start, Nat.add_assoc row_start, hfirst, hsecond]

/-! ### The order of the pixels -/

/-- The pixels of a row, from the last one on. -/
def rowPixels (y : ℕ) : ℕ → List (ℕ × ℕ)
  | 0 => []
  | x + 1 => (y, x) :: rowPixels y x

/-- The pixels of a frame, from the last one on. -/
def framePixels (width : ℕ) : ℕ → List (ℕ × ℕ)
  | 0 => []
  | y + 1 => rowPixels y width ++ framePixels width y

variable {p : ℕ × ℕ}

theorem mem_rowPixels {y n : ℕ} : p ∈ rowPixels y n ↔ p.1 = y ∧ p.2 < n := by
  induction n with
  | zero => exact iff_of_false not_mem_nil fun h => Nat.not_lt_zero _ h.2
  | succ n ih =>
    rw [rowPixels, mem_cons, ih, Prod.ext_iff]
    dsimp only
    omega

theorem mem_framePixels {width height : ℕ} :
    p ∈ framePixels width height ↔ p.1 < height ∧ p.2 < width := by
  induction height with
  | zero => exact iff_of_false not_mem_nil fun h => Nat.not_lt_zero _ h.1
  | succ height ih =>
    rw [framePixels, mem_append, ih, mem_rowPixels]
    omega

/-- A pixel that comes earlier: in a later row, or behind in the same one. -/
def Before (p q : ℕ × ℕ) : Prop := q.1 < p.1 ∨ (q.1 = p.1 ∧ q.2 < p.2)

theorem pairwise_rowPixels (y n : ℕ) : (rowPixels y n).Pairwise Before := by
  induction n with
  | zero => exact List.Pairwise.nil
  | succ n ih => exact pairwise_cons.mpr ⟨fun q hq => .inr (mem_rowPixels.mp hq), ih⟩

theorem pairwise_framePixels (width height : ℕ) : (framePixels width height).Pairwise Before := by
  induction height with
  | zero => exact List.Pairwise.nil
  | succ height ih =>
    refine pairwise_append.mpr ⟨pairwise_rowPixels .., ih, fun p hp q hq => .inl ?_⟩
    rw [(mem_rowPixels.mp hp).1]
    exact (mem_framePixels.mp hq).1

theorem rowLoop_eq (convert : ℕ × ℕ → Memory → Memory) (y n : ℕ) (m : Memory) :
    rowLoop convert y n m = (rowPixels y n).foldl (fun m' p => convert p m') m := by
  induction n generalizing m with
  | zero => rfl
  | succ n ih => exact ih _

theorem frameLoop_eq (convert : ℕ × ℕ → Memory → Memory) (width height : ℕ) (m : Memory) :
    frameLoop convert width height m = (framePixels width height).foldl (fun m' p => convert p m') m := by
  induction height generalizing m with
  | zero => rfl
  | succ height ih => rw [frameLoop, ih, framePixels, foldl_append, rowLoop_eq]

/-! ### Reading and writing -/

/-- The number of a pixel in the 16-bit frame. -/
def index (width : ℕ) (p : ℕ × ℕ) : ℕ := p.1 * raw16Stride width + p.2

/-- Where the two bytes of a pixel are read: in which row, and where in it. -/
structure Source where
  stride : ℕ
  first : ℕ → ℕ
  second : ℕ → ℕ

/-- A pixel is what its two bytes say. -/
def Source.Determines (src : Source) (pixel : Memory → ℕ × ℕ → ℕ) : Prop :=
  ∀ m m' p, m (p.1 * src.stride + src.first p.2) = m' (p.1 * src.stride + src.first p.2) →
    m (p.1 * src.stride + src.second p.2) = m' (p.1 * src.stride + src.second p.2) → pixel m p = pixel m' p

/-- The turns of a conversion. -/
def turns (width : ℕ) {src : Source} {pixel : Memory → ℕ × ℕ → ℕ} (hpixel : src.Determines pixel) :
    InPlace (ℕ × ℕ) ℕ UInt8 where
  reads p := {p.1 * src.stride + src.first p.2, p.1 * src.stride + src.second p.2}
  writes p := {2 * index width p, 2 * index width p + 1}
  run p m := store16 m (index width p) (pixel m p)
  frame p m a ha := store16_of_ne (not_or.mp ha)
  local_reads p m m' h a ha := by
    have hsame := hpixel m m' p (h _ (.inl rfl)) (h _ (.inr rfl))
    rcases ha with rfl | rfl
    · rw [store16_lo, store16_lo, hsame]
    · rw [store16_hi, store16_hi, hsame]

/-- What a conversion needs of its rows: they are no longer than those of the 16-bit frame, they hold their pixels,
and a pixel is written behind what the pixels before it in the row are read from, if these are to be right. -/
structure Source.Trails (src : Source) (width : ℕ) (right : ℕ × ℕ → Prop) : Prop where
  stride : src.stride ≤ 2 * raw16Stride width
  holds : ∀ x < width, src.first x < src.stride ∧ src.second x < src.stride
  behind : ∀ y x x', x' < x → x < width → right (y, x') →
    y * src.stride + src.first x' < 2 * (y * raw16Stride width + x) ∧
      y * src.stride + src.second x' < 2 * (y * raw16Stride width + x)

variable {width height : ℕ} {src : Source} {pixel : Memory → ℕ × ℕ → ℕ} {right : ℕ × ℕ → Prop}

theorem le_raw16Stride (width : ℕ) : width ≤ raw16Stride width := le_padToSize ⟨4, rfl⟩ width

theorem index_lt {q : ℕ × ℕ} (hq : q.2 < width) (h : Before p q) : index width q < index width p := by
  have hle := le_raw16Stride width
  rcases h with hrow | ⟨hrow, hcol⟩
  · have hmul := Nat.mul_le_mul_right (raw16Stride width) (Nat.succ_le_of_lt hrow)
    rw [Nat.succ_mul] at hmul
    rw [index, index]
    omega
  · rw [index, index, hrow]
    omega

theorem Source.Trails.read_lt (hpixel : src.Determines pixel) (h : src.Trails width right)
    (hcol : p.2 < width) (ha : a ∈ (turns width hpixel).reads p) : a < (p.1 + 1) * src.stride := by
  obtain ⟨hfirst, hsecond⟩ := h.holds p.2 hcol
  rw [Nat.succ_mul]
  rcases ha with rfl | rfl <;> omega

/-- **No pixel is written where a later one is read**, if that is to be right, nor where it is written. -/
theorem pixels_disjoint (hpixel : src.Determines pixel) (h : src.Trails width right) :
    (framePixels width height).Pairwise ((turns width hpixel).Undisturbed right) := by
  refine (pairwise_framePixels width height).imp_of_mem fun {p q} hp hq hbefore => ⟨fun hright a ha ha' => ?_, ?_⟩
  · have hpw := (mem_framePixels.mp hp).2
    have hqw := (mem_framePixels.mp hq).2
    have hlt : a < 2 * index width p := by
      rw [index]
      rcases hbefore with hrow | ⟨hrow, hcol⟩
      · -- all of an earlier row of the 10-bit frame lies before the row that is written
        have hread := h.read_lt hpixel hqw ha
        have hmul : (q.1 + 1) * src.stride ≤ p.1 * (2 * raw16Stride width) := Nat.mul_le_mul hrow h.stride
        rw [Nat.mul_left_comm] at hmul
        rw [Nat.mul_add]
        omega
      · obtain ⟨hfirst, hsecond⟩ := h.behind p.1 p.2 q.2 hcol hpw (hrow ▸ hright)
        rw [← hrow] at hfirst hsecond ⊢
        rcases ha with rfl | rfl
        · exact hfirst
        · exact hsecond
    have hwrites : a = 2 * index width p ∨ a = 2 * index width p + 1 := ha'
    omega
  · intro a ha ha'
    have hlt := index_lt (mem_framePixels.mp hq).2 hbefore
    have hq' : a = 2 * index width q ∨ a = 2 * index width q + 1 := ha
    have hp' : a = 2 * index width p ∨ a = 2 * index width p + 1 := ha'
    omega

/-- What is read and written for the pixels lies in the 16-bit frame. -/
theorem turns_within (hpixel : src.Determines pixel) (h : src.Trails width right) (hp : p ∈ framePixels width height)
    (ha : a ∈ (turns width hpixel).reads p ∨ a ∈ (turns width hpixel).writes p) :
    a < height * (2 * raw16Stride width) := by
  obtain ⟨hrow, hcol⟩ := mem_framePixels.mp hp
  rcases ha with ha | ha
  · exact Nat.lt_of_lt_of_le (h.read_lt hpixel hcol ha) (Nat.mul_le_mul hrow h.stride)
  · have hlt : index width p < height * raw16Stride width := index_lt (p := (height, 0)) hcol (.inl hrow)
    have hwrites : a = 2 * index width p ∨ a = 2 * index width p + 1 := ha
    rw [Nat.mul_left_comm]
    omega

/-- **After the loops every pixel that is to be right** stands for what it stood for before. -/
theorem frameLoop_exact (hpixel : src.Determines pixel) (h : src.Trails width right)
    (hlt : ∀ m p, pixel m p < 2 ^ 16) {convert : ℕ × ℕ → Memory → Memory}
    (hconvert : ∀ p, p.1 < height → p.2 < width → ∀ m, convert p m = store16 m (index width p) (pixel m p))
    (m : Memory) (hrow : p.1 < height) (hcol : p.2 < width) (hright : right p) :
    load16 (frameLoop convert width height m) (index width p) = pixel m p := by
  have hloop : frameLoop convert width height m = (turns width hpixel).loop (framePixels width height) m := by
    rw [frameLoop_eq]
    refine foldl_ext _ _ _ fun m' q hq => ?_
    exact hconvert q (mem_framePixels.mp hq).1 (mem_framePixels.mp hq).2 m'
  have hmem : p ∈ framePixels width height := mem_framePixels.mpr ⟨hrow, hcol⟩
  have hcell {a : ℕ} (ha : a = 2 * index width p ∨ a = 2 * index width p + 1) :=
    (turns width hpixel).foldl_eq (pixels_disjoint hpixel h) hmem hright m (a := a) ha
  rw [hloop]
  exact (load16_congr (hcell (.inl rfl)) (hcell (.inr rfl))).trans (load16_store16 m _ (hlt m p))

/-! ### The two formats -/

/-- The 10-bit frames in the MIPI format: the rows as the stream's layout has them, for each pixel its byte and the
last one of its group. -/
def mipiSource (width : ℕ) : Source where
  stride := padToSize (padToSize width 4 * 5 / 4) 8
  first x := 5 * (x / 4) + x % 4
  second x := 5 * (x / 4) + 4

/-- The 10-bit frames in the opaque format. -/
def legacySource (width : ℕ) : Source where
  stride := (width + 11) / 12 * 12 * 8 / 6
  first x := 8 * (x / 6) + 10 * (x % 6) / 8
  second x := 8 * (x / 6) + 10 * (x % 6) / 8 + 1

theorem mipiSource_stride (width : ℕ) : (mipiSource width).stride = ((width + 3) / 4 * 4 * 5 / 4 + 7) / 8 * 8 := by
  change padToSize (padToSize width 4 * 5 / 4) 8 = _
  rw [padToSize_eq ⟨3, rfl⟩, padToSize_eq ⟨2, rfl⟩]

theorem raw16Stride_eq (width : ℕ) : raw16Stride width = (width + 15) / 16 * 16 := padToSize_eq ⟨4, rfl⟩ width

theorem mipi_trails (width : ℕ) : (mipiSource width).Trails width fun p => 0 < p.1 ∨ 1 < p.2 where
  stride := by
    rw [mipiSource_stride, raw16Stride_eq]
    omega
  holds x hx := by
    rw [mipiSource_stride]
    change 5 * (x / 4) + x % 4 < _ ∧ 5 * (x / 4) + 4 < _
    omega
  behind y x x' hlt hx hright := by
    have hgap : 0 < y → y * (mipiSource width).stride + 8 ≤ y * (2 * raw16Stride width) := by
      intro hy
      have hrow : (mipiSource width).stride + 8 ≤ 2 * raw16Stride width := by
        rw [mipiSource_stride, raw16Stride_eq]
        omega
      calc y * (mipiSource width).stride + 8 ≤ y * (mipiSource width).stride + y * 8 :=
            Nat.add_le_add_left (Nat.le_mul_of_pos_left 8 hy) _
        _ = y * ((mipiSource width).stride + 8) := (Nat.mul_add ..).symm
        _ ≤ y * (2 * raw16Stride width) := Nat.mul_le_mul_left y hrow
    change y * (mipiSource width).stride + (5 * (x' / 4) + x' % 4) < _ ∧
      y * (mipiSource width).stride + (5 * (x' / 4) + 4) < _
    rw [Nat.mul_add, Nat.mul_left_comm]
    rcases Nat.eq_zero_or_pos y with rfl | hy
    · have hcol : 1 < x' := hright.resolve_left (Nat.lt_irrefl 0)
      omega
    · have := hgap hy
      omega

theorem legacySource_stride (width : ℕ) : (legacySource width).stride = 16 * ((width + 11) / 12) := by
  change (width + 11) / 12 * 12 * 8 / 6 = _
  omega

theorem legacySource_le (width : ℕ) : (legacySource width).stride ≤ 2 * raw16Stride width := by
  rw [legacySource_stride, raw16Stride_eq]
  omega

theorem legacy_trails (width : ℕ) : (legacySource width).Trails width fun _ => True where
  stride := legacySource_le width
  holds x hx := by
    rw [legacySource_stride]
    change 8 * (x / 6) + 10 * (x % 6) / 8 < _ ∧ 8 * (x / 6) + 10 * (x % 6) / 8 + 1 < _
    omega
  behind y x x' hlt hx _ := by
    have hrow := Nat.mul_le_mul_left y (legacySource_le width)
    change y * (legacySource width).stride + (8 * (x' / 6) + 10 * (x' % 6) / 8) < _ ∧
      y * (legacySource width).stride + (8 * (x' / 6) + 10 * (x' % 6) / 8 + 1) < _
    rw [Nat.mul_add, Nat.mul_left_comm]
    omega

/-- The word of a pixel lies in its row. -/
theorem legacy_word {width : ℕ} (hx : x < width) : 8 * (x / 6) + 7 < (legacySource width).stride := by
  rw [legacySource_stride]
  omega

theorem mipi_determines (width : ℕ) :
    (mipiSource width).Determines fun m p => mipiPixel m (p.1 * (mipiSource width).stride) p.2 :=
  fun _ _ _ => mipiPixel_congr

theorem legacy_determines (width : ℕ) :
    (legacySource width).Determines fun m p => legacyPixel m (p.1 * (legacySource width).stride) p.2 :=
  fun _ _ _ => legacyPixel_congr

/-! ### Numbers of 32 bits -/

variable {frame_len : UInt32}

theorem index_mod (hbuffer : height * (2 * raw16Stride width) ≤ frame_len.toNat)
    (hrow : p.1 < height) (hcol : p.2 < width) : (p.1 * raw16Stride width + p.2) % 2 ^ 32 = index width p := by
  have hframe : index width p < height * raw16Stride width := index_lt (p := (height, 0)) hcol (.inl hrow)
  have hlen := frame_len.toNat_lt
  rw [Nat.mul_left_comm] at hbuffer
  exact Nat.mod_eq_of_lt (show index width p < 2 ^ 32 by omega)

theorem row_mod (hbuffer : height * (2 * raw16Stride width) ≤ frame_len.toNat)
    (h : src.Trails width right) {y : ℕ} (hy : y < height) : y * src.stride % 2 ^ 32 = y * src.stride :=
  Nat.mod_eq_of_lt (Nat.lt_of_le_of_lt ((Nat.mul_le_mul (Nat.le_of_lt hy) h.stride).trans hbuffer) frame_len.toNat_lt)

theorem mipiStep_eq (hbuffer : height * (2 * raw16Stride width) ≤ frame_len.toNat)
    (hrow : p.1 < height) (hcol : p.2 < width) (m : Memory) :
    mipiStep width (mipiSource width).stride p m =
      store16 m (index width p) (mipiPixel m (p.1 * (mipiSource width).stride) p.2) := by
  rw [mipiStep, index_mod hbuffer hrow hcol, row_mod hbuffer (mipi_trails width) hrow]

theorem legacyStep_eq (hbuffer : height * (2 * raw16Stride width) ≤ frame_len.toNat)
    (hrow : p.1 < height) (hcol : p.2 < width) (m : Memory) :
    legacyStep width (legacySource width).stride p m =
      store16 m (index width p) (legacyPixel m (p.1 * (legacySource width).stride) p.2) := by
  -- the rows start with a word
  have hword : 8 ∣ p.1 * (legacySource width).stride := by
    rw [legacySource_stride]
    exact Nat.dvd_mul_left_of_dvd (Nat.dvd_mul_right_of_dvd (by decide) _) _
  rw [legacyStep, index_mod hbuffer hrow hcol, row_mod hbuffer (legacy_trails width) hrow, Nat.div_mul_cancel hword]

theorem mipi_exact {dim : CamDimension}
    (hbuffer : dim.height * (2 * raw16Stride dim.width) ≤ frame_len.toNat) (m : Memory)
    (hrow : p.1 < dim.height) (hcol : p.2 < dim.width) :
    load16 (convertMipiToRaw16 dim (mipiSource dim.width).stride m) (index dim.width p) =
      mipi10 m (p.1 * (mipiSource dim.width).stride) p.2 := by
  obtain ⟨y, x⟩ := p
  by_cases hfirst : y = 0 ∧ x < 2
  · obtain ⟨rfl, hx⟩ := hfirst
    have hx : x = 0 ∨ x = 1 := by omega
    rw [index, Nat.zero_mul, Nat.zero_mul, Nat.zero_add, convertMipiToRaw16]
    rcases hx with rfl | rfl
    · rw [load16_store16_of_ne _ Nat.zero_ne_one, ← mipiPixel_spec]
      exact load16_store16 _ 0 (mipiPixel_lt m 0 0)
    · rw [← mipiPixel_spec]
      exact load16_store16 _ 1 (mipiPixel_lt m 0 1)
  · have hright : 0 < y ∨ 1 < x := by omega
    have hindex : 1 < index dim.width (y, x) := by
      rcases hright with hy | hx
      · have hstride := raw16Stride_eq dim.width
        have hrows : raw16Stride dim.width ≤ y * raw16Stride dim.width := Nat.le_mul_of_pos_left _ hy
        have hwidth : x < dim.width := hcol
        change 1 < y * raw16Stride dim.width + x
        omega
      · exact Nat.lt_of_lt_of_le hx (Nat.le_add_left ..)
    rw [convertMipiToRaw16, load16_store16_of_ne _ (Nat.ne_of_gt hindex),
      load16_store16_of_ne _ (Nat.ne_of_gt (Nat.zero_lt_of_lt hindex)), ← mipiPixel_spec]
    exact frameLoop_exact (mipi_determines dim.width) (mipi_trails dim.width) (fun m p => mipiPixel_lt ..)
      (fun p hrow hcol m => mipiStep_eq hbuffer hrow hcol m) m hrow hcol hright

theorem legacy_exact {dim : CamDimension}
    (hbuffer : dim.height * (2 * raw16Stride dim.width) ≤ frame_len.toNat) (m : Memory)
    (hrow : p.1 < dim.height) (hcol : p.2 < dim.width) :
    load16 (convertLegacyToRaw16 dim (legacySource dim.width).stride m) (index dim.width p) =
      legacy10 m (p.1 * (legacySource dim.width).stride) p.2 := by
  rw [← legacyPixel_spec]
  exact frameLoop_exact (legacy_determines dim.width) (legacy_trails dim.width) (fun m p => legacyPixel_lt ..)
    (fun p hrow hcol m => legacyStep_eq hbuffer hrow hcol m) m hrow hcol trivial

/-! ### The conversions -/

/-- `stride_in_bytes` as the layout of a raw stream has it. -/
def strideInBytes (packing : BayerPacking) (order : BayerOrder) (dim : CamDimension) (padding : CamPaddingInfo)
    (b : CamFrameLenOffset) : ℕ :=
  ((calcOffset .raw (.bayer packing order) dim padding b).2.mp 0).stride_in_bytes.toNat

variable (order : BayerOrder) (dim : CamDimension) (padding : CamPaddingInfo) (b : CamFrameLenOffset)

theorem strideInBytes_mipi {packing : BayerPacking} (h : packing = .mipiRaw10Bpp ∨ packing = .idealRawMipi10Bpp) :
    strideInBytes packing order dim padding b = (mipiSource dim.width).stride := by
  rcases h with rfl | rfl <;> rfl

theorem strideInBytes_legacy {packing : BayerPacking} (h : packing = .qcomRaw10Bpp ∨ packing = .idealRawQcom10Bpp) :
    strideInBytes packing order dim padding b = (legacySource dim.width).stride := by
  rcases h with rfl | rfl <;> rfl

/-- **The conversion in place is exact**: in a buffer that holds the 16-bit frame, every pixel of this is the 10-bit
pixel that stood there before. -/
theorem raw16_exact (packing : BayerPacking) (order : BayerOrder) (dim : CamDimension) (padding : CamPaddingInfo)
    (b : CamFrameLenOffset) (frame_len : UInt32)
    (hbuffer : dim.height * (2 * raw16Stride dim.width) ≤ frame_len.toNat) (m : Memory) (x y : ℕ)
    (hx : x < dim.width) (hy : y < dim.height) :
    let stride_in_bytes := strideInBytes packing order dim padding b
    (packing = .mipiRaw10Bpp ∨ packing = .idealRawMipi10Bpp →
      load16 (convertMipiToRaw16 dim stride_in_bytes m) (y * raw16Stride dim.width + x) =
        mipi10 m (y * stride_in_bytes) x) ∧
    (packing = .qcomRaw10Bpp ∨ packing = .idealRawQcom10Bpp →
      load16 (convertLegacyToRaw16 dim stride_in_bytes m) (y * raw16Stride dim.width + x) =
        legacy10 m (y * stride_in_bytes) x) := by
  refine ⟨fun h => ?_, fun h => ?_⟩
  · rw [strideInBytes_mipi order dim padding b h]
    exact mipi_exact hbuffer m (p := (y, x)) hy hx
  · rw [strideInBytes_legacy order dim padding b h]
    exact legacy_exact hbuffer m (p := (y, x)) hy hx

/-- A frame of 20 × 2 pixels, and the pixel at its end. -/
theorem small_frame_exact :
    load16 (convertMipiToRaw16 ⟨20, 2⟩ (strideInBytes .mipiRaw10Bpp .rggb ⟨20, 2⟩ ⟨1, 1, 1, 0, 0, 0, 0⟩ {})
        fun a => UInt8.ofNat (3 * a)) (1 * raw16Stride 20 + 19) = 662 ∧
      load16 (convertLegacyToRaw16 ⟨20, 2⟩ (strideInBytes .qcomRaw10Bpp .rggb ⟨20, 2⟩ ⟨1, 1, 1, 0, 0, 0, 0⟩ {})
        fun a => UInt8.ofNat (3 * a)) (1 * raw16Stride 20 + 19) = 938 :=
  have hbuffer : 2 * (2 * raw16Stride 20) ≤ (128 : UInt32).toNat := by decide +kernel
  ⟨((raw16_exact .mipiRaw10Bpp .rggb ⟨20, 2⟩ ⟨1, 1, 1, 0, 0, 0, 0⟩ {} 128 hbuffer _ 19 1 (by decide)
      (by decide)).1 (.inl rfl)).trans (by decide +kernel),
    ((raw16_exact .qcomRaw10Bpp .rggb ⟨20, 2⟩ ⟨1, 1, 1, 0, 0, 0, 0⟩ {} 128 hbuffer _ 19 1 (by decide)
      (by decide)).2 (.inl rfl)).trans (by decide +kernel)⟩

end Raw16

end Marlin
