import Marlin.FixedWidth

/-!
# Crop Regions in Two Spaces

`QCamera3CropRegionMapper` maps rectangles between the active array and the output of the sensor, which is not
larger: each number is multiplied by the size in the one space and divided by that in the other, and the result
is bounded to the size of the space. Bounding moves a negative origin to 0 without taking the part outside off
the size, and takes the origin as it is where it is past the other end, so that the size becomes negative.

## Conventions

The two axes are treated alike and do not depend on each other: `boundAxis` and `mapAxis` are what happens on
one. Signed sums and products that do not fit wrap around.

## Main results

* `boundAxis_inside_iff`, `boundAxis_eq`: what bounding does on one axis.
* `mapAxis_iff`: when the image on one axis is as it should be.
* `roundTrip_axis`: how far a number moves on the way to the sensor and back.
* `maps_iff`: all this, for the rectangles.
-/

namespace Marlin

open FixedWidth

/-- A rectangle. -/
structure CropRect where
  left : ℤ
  top : ℤ
  width : ℤ
  height : ℤ
  deriving DecidableEq

/-- `QCamera3CropRegionMapper`. -/
structure CropRegionMapper where
  mSensorW : ℤ := 0
  mSensorH : ℤ := 0
  mActiveArrayW : ℤ := 0
  mActiveArrayH : ℤ := 0
  deriving DecidableEq

namespace CropRegionMapper

/-- `update`, with unsigned sizes, which are kept as signed ones. -/
def update (m : CropRegionMapper) (active_array_w active_array_h sensor_w sensor_h : ℕ) : CropRegionMapper :=
  if active_array_w = 0 ∨ active_array_h = 0 ∨ sensor_w = 0 ∨ sensor_h = 0 then m
  else if active_array_w < sensor_w ∨ active_array_h < sensor_h then m
  else
    { mSensorW := toInt32 sensor_w
      mSensorH := toInt32 sensor_h
      mActiveArrayW := toInt32 active_array_w
      mActiveArrayH := toInt32 active_array_h }

/-- `boundToSize` on one axis. -/
def boundAxis (pos len bound : ℤ) : ℤ × ℤ :=
  let pos := if pos < 0 then 0 else pos
  if bound < toInt32 (pos + len) then (pos, toInt32 (bound - pos)) else (pos, len)

/-- `boundToSize`. -/
def boundToSize (r : CropRect) (bound_w bound_h : ℤ) : CropRect :=
  let h := boundAxis r.left r.width bound_w
  let v := boundAxis r.top r.height bound_h
  ⟨h.1, v.1, h.2, v.2⟩

/-- A number in the one space, brought to the other. -/
def scale (x num den : ℤ) : ℤ := (toInt32 (x * num)).tdiv den

/-- A rectangle in a space of size `src`, brought to the space of size `dst`. -/
def mapRect (dst src : ℤ × ℤ) (r : CropRect) : CropRect :=
  boundToSize ⟨scale r.left dst.1 src.1, scale r.top dst.2 src.2, scale r.width dst.1 src.1, scale r.height dst.2 src.2⟩
    dst.1 dst.2

/-- Some size has not been set. -/
def unset (m : CropRegionMapper) : Bool :=
  m.mSensorW == 0 || m.mSensorH == 0 || m.mActiveArrayW == 0 || m.mActiveArrayH == 0

/-- The size of the sensor output. -/
def sensor (m : CropRegionMapper) : ℤ × ℤ := (m.mSensorW, m.mSensorH)

/-- The size of the active array. -/
def activeArray (m : CropRegionMapper) : ℤ × ℤ := (m.mActiveArrayW, m.mActiveArrayH)

/-- `toActiveArray`. -/
def toActiveArray (m : CropRegionMapper) (r : CropRect) : CropRect :=
  if m.unset then r else mapRect m.activeArray m.sensor r

/-- `toSensor`. -/
def toSensor (m : CropRegionMapper) (r : CropRect) : CropRect :=
  if m.unset then r else mapRect m.sensor m.activeArray r

/-- The sizes are positive, and the sensor is not larger than the active array. -/
structure Sized (m : CropRegionMapper) : Prop where
  sensorW : 0 < m.mSensorW
  sensorH : 0 < m.mSensorH
  widths : m.mSensorW ≤ m.mActiveArrayW
  heights : m.mSensorH ≤ m.mActiveArrayH
  activeW : m.mActiveArrayW < 2 ^ 31
  activeH : m.mActiveArrayH < 2 ^ 31

/-! ### One axis -/

/-- What happens on one axis. -/
def mapAxis (n d pos len : ℤ) : ℤ × ℤ := boundAxis (scale pos n d) (scale len n d) n

/-- The image on one axis is as it should be: it lies within the bounds and has a size, and neither end is a
whole pixel or more outside the exact image. -/
structure AxisMapped (n d pos len : ℤ) (r : ℤ × ℤ) : Prop where
  inside : 0 ≤ r.1 ∧ 0 ≤ r.2 ∧ r.1 + r.2 ≤ n
  low : pos * n < (r.1 + 1) * d
  high : (r.1 + r.2) * d < (pos + len) * n + d

/-- When it is: the size is not negative, by a pixel or more; the rectangle does not start past the bounds; its
end can be kept in 32 bits; and where it starts below 0, what lies there is less than a pixel, or it goes on
to the end of the bounds. -/
def AxisFits (n d pos len : ℤ) : Prop :=
  -d < len * n ∧ pos * n < (n + 1) * d ∧ (pos + len) * n < 2 ^ 31 * d ∧
    (0 ≤ pos ∨ -(pos * n) < d + (len * n).tmod d ∨ n * d < (pos + len) * n + d)

section Axis

variable {n d pos len a b : ℤ}

/-- **When bounding leaves a part of the bounds.** -/
theorem boundAxis_inside_iff (hn : 0 ≤ n) (hn' : n < 2 ^ 31) (ha : InInt32 a) (hb : InInt32 b) :
    (0 ≤ (boundAxis a b n).1 ∧ 0 ≤ (boundAxis a b n).2 ∧ (boundAxis a b n).1 + (boundAxis a b n).2 ≤ n) ↔
      0 ≤ b ∧ a ≤ n ∧ (0 ≤ a → a + b < 2 ^ 31) := by
  obtain ⟨halow, hahigh⟩ := ha
  obtain ⟨hblow, hbhigh⟩ := hb
  rw [boundAxis]
  generalize hpos : (if a < 0 then 0 else a) = p
  have hp : (a < 0 ∧ p = 0) ∨ (0 ≤ a ∧ p = a) := by
    split at hpos <;> omega
  by_cases hwrap : 2 ^ 31 ≤ p + b
  · rw [toInt32_of_le hwrap (by omega), if_neg (by omega)]
    omega
  · rw [toInt32_eq ⟨by omega, by omega⟩]
    split
    · rw [toInt32_eq ⟨by omega, by omega⟩]
      omega
    · omega

/-- What bounding leaves there. -/
theorem boundAxis_eq (hn : 0 ≤ n) (hn' : n < 2 ^ 31) (hb : 0 ≤ b) (ha : a ≤ n) (hb' : b < 2 ^ 31)
    (hab : 0 ≤ a → a + b < 2 ^ 31) : boundAxis a b n = (max a 0, min b (n - max a 0)) := by
  rw [boundAxis]
  have hp : (if a < 0 then 0 else a) = max a 0 := by
    split <;> omega
  rw [hp]
  rw [toInt32_eq ⟨by omega, by omega⟩, toInt32_eq ⟨by omega, by omega⟩]
  split
  · exact Prod.ext rfl (by dsimp only; omega)
  · exact Prod.ext rfl (by dsimp only; omega)

theorem inInt32_tdiv (hd : 0 < d) (ha : InInt32 a) : InInt32 (a.tdiv d) := by
  have hbound := Int.natAbs_tdiv_le_natAbs a d
  obtain ⟨hlow, hhigh⟩ := ha
  by_cases h : 0 ≤ a
  · have hq := Int.tdiv_nonneg h (Int.le_of_lt hd)
    exact ⟨by omega, by omega⟩
  · have hq := (tdiv_le_iff (n := 0) hd (Int.le_refl 0)).mpr (by omega : a < (0 + 1) * d)
    exact ⟨by omega, by omega⟩

theorem tdiv_add_lt_iff (hd : 0 < d) (ha : InInt32 a) (hb : InInt32 b) (hb' : 0 ≤ b.tdiv d) :
    (0 ≤ a.tdiv d → a.tdiv d + b.tdiv d < 2 ^ 31) ↔ a + b < 2 ^ 31 * d := by
  obtain ⟨halow, hahigh⟩ := ha
  obtain ⟨hblow, hbhigh⟩ := hb
  by_cases hone : d = 1
  · rw [hone, Int.tdiv_one, Int.tdiv_one]
    omega
  · refine iff_of_true (fun ha' => ?_) (by omega)
    have hdouble {x : ℤ} (hx : 0 ≤ x.tdiv d) (hlt : x < 2 ^ 31) : x.tdiv d * 2 < 2 ^ 31 := by
      rcases Int.le_total 0 x with hx' | hx'
      · have hmul : x.tdiv d * 2 ≤ x.tdiv d * d := Int.mul_le_mul_of_nonneg_left (by omega) hx
        have hle := (tdiv_mul_le hd hx').1
        omega
      · have hq := (tdiv_le_iff (a := x) (n := 0) hd (Int.le_refl 0)).mpr (by omega)
        omega
    have h₁ := hdouble ha' hahigh
    have h₂ := hdouble hb' hbhigh
    omega

theorem image_high_iff (hd : 0 < d) : (max (a.tdiv d) 0 + min (b.tdiv d) (n - max (a.tdiv d) 0)) * d < a + b + d ↔
      0 ≤ a ∨ -a < d + b.tmod d ∨ n * d < a + b + d := by
  have hrest := tdiv_mul_eq b d
  rcases Int.lt_or_le a 0 with hneg | hpos
  · have hq := (tdiv_le_iff (a := a) (n := 0) hd (Int.le_refl 0)).mpr (by omega)
    have hzero : max (a.tdiv d) 0 = 0 := by omega
    rw [hzero, Int.zero_add, Int.sub_zero]
    rcases Int.le_total (b.tdiv d) n with hle | hle
    · have hmul : b.tdiv d * d ≤ n * d := Int.mul_le_mul_of_nonneg_right hle (Int.le_of_lt hd)
      rw [Int.min_eq_left hle]
      omega
    · have hmul : n * d ≤ b.tdiv d * d := Int.mul_le_mul_of_nonneg_right hle (Int.le_of_lt hd)
      rw [Int.min_eq_right hle]
      omega
  · refine iff_of_true ?_ (.inl hpos)
    have hq : 0 ≤ a.tdiv d := Int.tdiv_nonneg hpos (Int.le_of_lt hd)
    have hle : max (a.tdiv d) 0 + min (b.tdiv d) (n - max (a.tdiv d) 0) ≤ a.tdiv d + b.tdiv d := by omega
    have hmul := Int.mul_le_mul_of_nonneg_right hle (Int.le_of_lt hd)
    rw [Int.add_mul (a.tdiv d)] at hmul
    have hfirst := (tdiv_mul_le hd hpos).1
    have hgt := Int.lt_tmod_of_pos b hd
    omega

/-- **When the image on one axis is as it should be.** -/
theorem mapAxis_iff (hn : 0 < n) (hn' : n < 2 ^ 31) (hd : 0 < d) (hpos : InInt32 (pos * n))
    (hlen : InInt32 (len * n)) : AxisMapped n d pos len (mapAxis n d pos len) ↔ AxisFits n d pos len := by
  have hstart : 0 ≤ pos ↔ 0 ≤ pos * n := (Int.mul_nonneg_iff_of_pos_right hn).symm
  have hmapped : AxisMapped n d pos len (mapAxis n d pos len) ↔
      (0 ≤ (mapAxis n d pos len).1 ∧ 0 ≤ (mapAxis n d pos len).2 ∧
        (mapAxis n d pos len).1 + (mapAxis n d pos len).2 ≤ n) ∧
      pos * n < ((mapAxis n d pos len).1 + 1) * d ∧
      ((mapAxis n d pos len).1 + (mapAxis n d pos len).2) * d < (pos + len) * n + d :=
    ⟨fun h => ⟨h.inside, h.low, h.high⟩, fun h => ⟨h.1, h.2.1, h.2.2⟩⟩
  rw [hmapped, AxisFits, hstart, mapAxis, scale, scale, toInt32_eq hpos, toInt32_eq hlen, Int.add_mul pos]
  generalize hP : pos * n = P at hpos
  generalize hQ : len * n = Q at hlen
  have hfits := inInt32_tdiv hd hlen
  rw [boundAxis_inside_iff (Int.le_of_lt hn) hn' (inInt32_tdiv hd hpos) hfits, nonneg_tdiv_iff hd,
    tdiv_le_iff hd (Int.le_of_lt hn), and_assoc, and_assoc]
  refine and_congr_right fun hsize => and_congr_right fun hin => ?_
  have hb : 0 ≤ Q.tdiv d := (nonneg_tdiv_iff hd).mpr hsize
  have ha : P.tdiv d ≤ n := (tdiv_le_iff hd (Int.le_of_lt hn)).mpr hin
  rw [tdiv_add_lt_iff hd hpos hlen hb]
  refine and_congr_right fun hend => ?_
  rw [boundAxis_eq (Int.le_of_lt hn) hn' hb ha hfits.2 ((tdiv_add_lt_iff hd hpos hlen hb).mpr hend), image_high_iff hd]
  refine and_iff_right ?_
  change P < (max (P.tdiv d) 0 + 1) * d
  rw [Int.add_mul, Int.one_mul]
  rcases Int.lt_or_le P 0 with hneg | hnonneg
  · have hmul : 0 ≤ max (P.tdiv d) 0 * d := Int.mul_nonneg (Int.le_max_right _ _) (Int.le_of_lt hd)
    omega
  · have hmul : P.tdiv d * d ≤ max (P.tdiv d) 0 * d :=
      Int.mul_le_mul_of_nonneg_right (Int.le_max_left _ _) (Int.le_of_lt hd)
    have hlt := (tdiv_mul_le hd hnonneg).2
    omega

theorem mapAxis_of_inside (hn : 0 < n) (hn' : n < 2 ^ 31) (hd : 0 < d) (hpos : 0 ≤ pos) (hlen : 0 ≤ len)
    (hin : pos + len ≤ d) (hposFits : pos * n < 2 ^ 31) (hlenFits : len * n < 2 ^ 31) :
    mapAxis n d pos len = ((pos * n).tdiv d, (len * n).tdiv d) ∧ (pos * n).tdiv d + (len * n).tdiv d ≤ n := by
  have hP : 0 ≤ pos * n := Int.mul_nonneg hpos (Int.le_of_lt hn)
  have hQ : 0 ≤ len * n := Int.mul_nonneg hlen (Int.le_of_lt hn)
  have hPfits : InInt32 (pos * n) := ⟨by omega, hposFits⟩
  have hQfits : InInt32 (len * n) := ⟨by omega, hlenFits⟩
  have ha := Int.tdiv_nonneg hP (Int.le_of_lt hd)
  have hb := Int.tdiv_nonneg hQ (Int.le_of_lt hd)
  have hsum : (pos * n).tdiv d + (len * n).tdiv d ≤ n := by
    have hend : (pos + len) * n ≤ d * n := Int.mul_le_mul_of_nonneg_right hin (Int.le_of_lt hn)
    have hfirst := (tdiv_mul_le hd hP).1
    have hsecond := (tdiv_mul_le hd hQ).1
    refine Int.le_of_mul_le_mul_right ?_ hd
    rw [Int.add_mul] at hend ⊢
    rw [Int.mul_comm n d]
    omega
  rw [mapAxis, scale, scale, toInt32_eq hPfits, toInt32_eq hQfits,
    boundAxis_eq (Int.le_of_lt hn) hn' hb (by omega) (inInt32_tdiv hd hQfits).2 (by omega)]
  exact ⟨Prod.ext (by dsimp only; omega) (by dsimp only; omega), hsum⟩

/-- The number moves down, if at all, and by less than the step of the smaller space and one more. -/
def MovesLess (n d x y : ℤ) : Prop := y ≤ x ∧ (x - y) * n < d + n

theorem movesLess_tdiv (hn : 0 < n) (hd : 0 < d) (ha : 0 ≤ a) : MovesLess n d a (((a * n).tdiv d * d).tdiv n) := by
  have hP : 0 ≤ a * n := Int.mul_nonneg ha (Int.le_of_lt hn)
  obtain ⟨hlow, hhigh⟩ := tdiv_mul_le hd hP
  obtain ⟨hlow', hhigh'⟩ := tdiv_mul_le (a := (a * n).tdiv d * d) hn
    (Int.mul_nonneg (Int.tdiv_nonneg hP (Int.le_of_lt hd)) (Int.le_of_lt hd))
  refine ⟨Int.le_of_mul_le_mul_right (by omega) hn, ?_⟩
  rw [Int.sub_mul]
  omega

/-- **How far the numbers of an axis move** on the way to the sensor and back. -/
theorem roundTrip_axis (hn : 0 < n) (hnd : n ≤ d) (hd' : d < 2 ^ 31) (hpos : 0 ≤ pos) (hlen : 0 ≤ len)
    (hin : pos + len ≤ d) (hposFits : pos * n < 2 ^ 31) (hlenFits : len * n < 2 ^ 31) :
    MovesLess n d pos (mapAxis d n (mapAxis n d pos len).1 (mapAxis n d pos len).2).1 ∧
      MovesLess n d len (mapAxis d n (mapAxis n d pos len).1 (mapAxis n d pos len).2).2 := by
  have hd : 0 < d := by omega
  have hP : 0 ≤ pos * n := Int.mul_nonneg hpos (Int.le_of_lt hn)
  have hQ : 0 ≤ len * n := Int.mul_nonneg hlen (Int.le_of_lt hn)
  obtain ⟨hthere, hsum⟩ := mapAxis_of_inside hn (by omega) hd hpos hlen hin hposFits hlenFits
  have hback := (mapAxis_of_inside hd hd' hn (Int.tdiv_nonneg hP (Int.le_of_lt hd))
    (Int.tdiv_nonneg hQ (Int.le_of_lt hd)) hsum (Int.lt_of_le_of_lt (tdiv_mul_le hd hP).1 hposFits)
    (Int.lt_of_le_of_lt (tdiv_mul_le hd hQ).1 hlenFits)).1
  rw [hthere, hback]
  exact ⟨movesLess_tdiv hn hd hpos, movesLess_tdiv hn hd hlen⟩

end Axis

/-! ### The rectangles -/

/-- The products of the numbers of a rectangle with the sizes of the space that it is brought to fit. -/
def ProductsFit (dst : ℤ × ℤ) (r : CropRect) : Prop :=
  InInt32 (r.left * dst.1) ∧ InInt32 (r.width * dst.1) ∧ InInt32 (r.top * dst.2) ∧ InInt32 (r.height * dst.2)

/-- The image of a rectangle is as it should be. -/
def Mapped (dst src : ℤ × ℤ) (r r' : CropRect) : Prop :=
  AxisMapped dst.1 src.1 r.left r.width (r'.left, r'.width) ∧ AxisMapped dst.2 src.2 r.top r.height (r'.top, r'.height)

/-- When it is. -/
def Fits (dst src : ℤ × ℤ) (r : CropRect) : Prop :=
  AxisFits dst.1 src.1 r.left r.width ∧ AxisFits dst.2 src.2 r.top r.height

/-- The rectangle lies within the bounds. -/
def Within (size : ℤ × ℤ) (r : CropRect) : Prop :=
  (0 ≤ r.left ∧ 0 ≤ r.width ∧ r.left + r.width ≤ size.1) ∧ 0 ≤ r.top ∧ 0 ≤ r.height ∧ r.top + r.height ≤ size.2

/-- No number of a rectangle moves far. -/
def Near (small large : ℤ × ℤ) (r r' : CropRect) : Prop :=
  (MovesLess small.1 large.1 r.left r'.left ∧ MovesLess small.1 large.1 r.width r'.width) ∧
    MovesLess small.2 large.2 r.top r'.top ∧ MovesLess small.2 large.2 r.height r'.height

theorem Sized.unset {m : CropRegionMapper} (h : m.Sized) : m.unset = false := by
  have hw := h.sensorW
  have hh := h.sensorH
  have hw' := h.widths
  have hh' := h.heights
  rw [CropRegionMapper.unset, Bool.or_eq_false_iff, Bool.or_eq_false_iff, Bool.or_eq_false_iff]
  refine ⟨⟨⟨?_, ?_⟩, ?_⟩, ?_⟩ <;> exact beq_false_of_ne (by omega)

/-- **When the images of rectangles are as they should be**: those of the active array on the sensor, those of
the sensor on the active array, and of those within the active array that come back from the sensor. -/
theorem maps_iff (m : CropRegionMapper) (hm : m.Sized) (r : CropRect) : (ProductsFit m.sensor r →
      (Mapped m.sensor m.activeArray r (m.toSensor r) ↔ Fits m.sensor m.activeArray r)) ∧
    (ProductsFit m.activeArray r →
      (Mapped m.activeArray m.sensor r (m.toActiveArray r) ↔ Fits m.activeArray m.sensor r)) ∧
    (ProductsFit m.sensor r → Within m.activeArray r →
      Near m.sensor m.activeArray r (m.toActiveArray (m.toSensor r))) := by
  obtain ⟨hsw, hsh, hw, hh, haw, hah⟩ := id hm
  have hset : ¬ m.unset = true := by
    rw [hm.unset]
    exact Bool.false_ne_true
  rw [toSensor, if_neg hset, toActiveArray, if_neg hset, toActiveArray, if_neg hset]
  refine ⟨fun hfits => ?_, fun hfits => ?_, fun hfits hin => ⟨?_, ?_⟩⟩
  · obtain ⟨hleft, hwidth, htop, hheight⟩ := hfits
    exact and_congr (mapAxis_iff hsw (Int.lt_of_le_of_lt hw haw) (Int.lt_of_lt_of_le hsw hw) hleft hwidth)
      (mapAxis_iff hsh (Int.lt_of_le_of_lt hh hah) (Int.lt_of_lt_of_le hsh hh) htop hheight)
  · obtain ⟨hleft, hwidth, htop, hheight⟩ := hfits
    exact and_congr (mapAxis_iff (Int.lt_of_lt_of_le hsw hw) haw hsw hleft hwidth)
      (mapAxis_iff (Int.lt_of_lt_of_le hsh hh) hah hsh htop hheight)
  · exact roundTrip_axis hsw hw haw hin.1.1 hin.1.2.1 hin.1.2.2 hfits.1.2 hfits.2.1.2
  · exact roundTrip_axis hsh hh hah hin.2.1 hin.2.2.1 hin.2.2.2 hfits.2.2.1.2 hfits.2.2.2.2

/-- A sensor output of half the size of the active array. -/
def halfSensor : CropRegionMapper where
  mSensorW := 2000
  mSensorH := 1500
  mActiveArrayW := 4000
  mActiveArrayH := 3000

theorem halfSensor_sized : halfSensor.Sized := by
  constructor <;> decide

/-- A rectangle that starts above and left of the active array and goes on to its other end, and one within it
that comes back. -/
theorem whole_array_maps : Mapped halfSensor.sensor halfSensor.activeArray ⟨-20, -20, 5000, 5000⟩
      (halfSensor.toSensor ⟨-20, -20, 5000, 5000⟩) ∧
    Near halfSensor.sensor halfSensor.activeArray ⟨13, 7, 101, 99⟩
      (halfSensor.toActiveArray (halfSensor.toSensor ⟨13, 7, 101, 99⟩)) :=
  ⟨((maps_iff halfSensor halfSensor_sized ⟨-20, -20, 5000, 5000⟩).1 ⟨by decide, by decide, by decide, by decide⟩).mpr
        ⟨⟨by decide, by decide, by decide, by decide⟩, by decide, by decide, by decide, by decide⟩,
    (maps_iff halfSensor halfSensor_sized ⟨13, 7, 101, 99⟩).2.2 ⟨by decide, by decide, by decide, by decide⟩
      ⟨⟨by decide, by decide, by decide⟩, by decide, by decide, by decide⟩⟩

/-- A rectangle right of the active array has a negative width on the sensor. -/
theorem width_becomes_negative : halfSensor.toSensor ⟨4400, 0, 100, 100⟩ = ⟨2200, 0, -200, 50⟩ ∧
    ¬ Mapped halfSensor.sensor halfSensor.activeArray ⟨4400, 0, 100, 100⟩
      (halfSensor.toSensor ⟨4400, 0, 100, 100⟩) := by
  have hvalue : halfSensor.toSensor ⟨4400, 0, 100, 100⟩ = ⟨2200, 0, -200, 50⟩ := by decide
  refine ⟨hvalue, fun h => ?_⟩
  rw [hvalue] at h
  exact absurd h.1.inside.2.1 (by decide)

-- A rectangle left of the active array keeps its width, although nothing of its image is in the bounds.
example : halfSensor.toSensor ⟨-400, 0, 100, 100⟩ = ⟨0, 0, 50, 50⟩ := by decide

end CropRegionMapper

end Marlin
