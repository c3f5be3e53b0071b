import Mathlib.Data.Int.ModEq
import Mathlib.Data.Nat.Bitwise
import Mathlib.Data.Nat.Find
import Marlin.Loop

/-!
# The Analysis Information

`getAnalysisInfo` merges what two consumers of the analysis stream need: the paddings by their least common multiples,
and the strides aligned to these.

## Conventions

* A `uint32_t` is a vector of 32 bits, and as an `int32_t` it is its integer.

## Main results

* `calculateLCM_isSome`: the loop over the multiples is left for all arguments.
* `merged_padding_iff`: when the merged information is right for both consumers.
-/

namespace Marlin

open BitVec

/-- `calculateLCM`; `none` would be a loop that goes on. -/
def calculateLCM (num1 num2 : BitVec 32) : Option (BitVec 32) :=
  if num1.toInt < 1 ∧ num2.toInt < 1 then some 0
  else if num1.toInt < 1 then some num2
  else if num2.toInt < 1 then some num1
  else
    let temp := if num2.toInt < num1.toInt then num1 else num2
    Loop.run (fun lcm => if lcm % num1 = 0 ∧ lcm % num2 = 0 then .done lcm else .yield (lcm + temp)) (2 ^ 32) temp

section

variable {a b t : BitVec 32}

theorem toNat_iterate_add (t : BitVec 32) (k : ℕ) : ((· + t)^[k] t).toNat = (k + 1) * t.toNat % 2 ^ 32 := by
  induction k with
  | zero => simpa using (Nat.mod_eq_of_lt t.isLt).symm
  | succ k ih =>
    rw [Function.iterate_succ_apply', toNat_add, ih, Nat.mod_add_mod]
    exact congrArg (· % 2 ^ 32) (Nat.succ_mul ..).symm

theorem umod_eq_zero_iff (x a : BitVec 32) : x % a = 0 ↔ a.toNat ∣ x.toNat := by
  rw [← toNat_inj, toNat_umod]
  exact Nat.dvd_iff_mod_eq_zero.symm

/-- **The loop is left**, when the multiples have wrapped around to 0 at the latest. -/
theorem calculateLCM_isSome (num1 num2 : BitVec 32) : (calculateLCM num1 num2).isSome := by
  rw [calculateLCM]
  split
  · rfl
  split
  · rfl
  split
  · rfl
  generalize (if num2.toInt < num1.toInt then num1 else num2) = temp
  have hzero : ∀ n, (· + temp)^[2 ^ 32 - 1] temp % n = 0 := fun n => by
    rw [umod_eq_zero_iff, toNat_iterate_add]
    exact (Nat.mul_mod_right ..).symm ▸ Nat.dvd_zero _
  have hex : ∃ k, (· + temp)^[k] temp % num1 = 0 ∧ (· + temp)^[k] temp % num2 = 0 := ⟨_, hzero num1, hzero num2⟩
  classical
  have hle : Nat.find hex ≤ 2 ^ 32 - 1 := Nat.find_min' hex ⟨hzero num1, hzero num2⟩
  dsimp only
  rw [Loop.run_until (Nat.find_spec hex) (fun j hj => Nat.find_min hex hj) (by omega)]
  rfl

theorem calculateLCM_eq (ha : 0 < a.toNat) (hb : 0 < b.toNat) (hfit : a.toNat.lcm b.toNat < 2 ^ 31) :
    calculateLCM a b = some (BitVec.ofNat 32 (a.toNat.lcm b.toNat)) := by
  have hpos := Nat.lcm_pos ha hb
  have hale := Nat.le_of_dvd hpos (Nat.dvd_lcm_left a.toNat b.toNat)
  have hble := Nat.le_of_dvd hpos (Nat.dvd_lcm_right a.toNat b.toNat)
  have haInt : a.toInt = a.toNat := toInt_eq_toNat_of_lt (by omega)
  have hbInt : b.toInt = b.toNat := toInt_eq_toNat_of_lt (by omega)
  rw [calculateLCM, if_neg (by omega), if_neg (by omega), if_neg (by omega)]
  dsimp only
  obtain ⟨temp, htemp, hdvd, ht⟩ : ∃ temp : BitVec 32, (if b.toInt < a.toInt then a else b) = temp ∧
      temp.toNat ∣ a.toNat.lcm b.toNat ∧ 0 < temp.toNat := by
    refine ⟨_, rfl, ?_⟩
    split
    · exact ⟨Nat.dvd_lcm_left .., ha⟩
    · exact ⟨Nat.dvd_lcm_right .., hb⟩
  obtain ⟨m, hm⟩ := hdvd
  have hmpos : 0 < m := Nat.pos_of_mul_pos_left (hm ▸ hpos)
  have hmle : m ≤ temp.toNat * m := Nat.le_mul_of_pos_left m ht
  have hat : ∀ j < m, ((· + temp)^[j] temp).toNat = temp.toNat * (j + 1) := by
    intro j hj
    have hle : temp.toNat * (j + 1) ≤ temp.toNat * m := Nat.mul_le_mul_left _ hj
    rw [toNat_iterate_add, Nat.mul_comm]
    exact Nat.mod_eq_of_lt (by omega)
  have hlast : ((· + temp)^[m - 1] temp).toNat = a.toNat.lcm b.toNat := by
    rw [hat _ (by omega), hm, Nat.sub_add_cancel hmpos]
  rw [htemp, Loop.run_until (k := m - 1)]
  · exact congrArg some (eq_of_toNat_eq (by simpa using hlast.trans (Nat.mod_eq_of_lt (by omega)).symm))
  · rw [umod_eq_zero_iff, umod_eq_zero_iff, hlast]
    exact ⟨Nat.dvd_lcm_left .., Nat.dvd_lcm_right ..⟩
  · intro j hj
    rw [umod_eq_zero_iff, umod_eq_zero_iff, hat j (by omega)]
    rintro ⟨hja, hjb⟩
    have hle := Nat.le_of_dvd (Nat.mul_pos ht (Nat.succ_pos j)) (Nat.lcm_dvd hja hjb)
    rw [hm] at hle
    have := Nat.le_of_mul_le_mul_left hle ht
    omega
  · omega

/-- `ALIGN`. -/
def align (a b : BitVec 32) : BitVec 32 := (a + b) &&& ~~~b

/-- `MAX`, of two `uint32_t`. -/
def maxU32 (a b : BitVec 32) : BitVec 32 := if b < a then a else b

theorem toNat_maxU32 (a b : BitVec 32) : (maxU32 a b).toNat = max a.toNat b.toNat := by
  rw [maxU32]
  split
  · rename_i hlt
    exact (Nat.max_eq_left (Nat.le_of_lt (lt_def.mp hlt))).symm
  · rename_i hge
    exact (Nat.max_eq_right (Nat.not_lt.mp fun hlt => hge (lt_def.mpr hlt))).symm

/-- **When a number is aligned**: with the alignment added it does not wrap around, and the bits that are cleared leave
a multiple. -/
def Aligns (m w : ℕ) : Prop := m + w < 2 ^ 32 ∧ ((m + w) &&& w) % w = m % w

theorem toNat_align (a b : BitVec 32) : (align a b).toNat = (a + b).toNat - ((a + b).toNat &&& b.toNat) := by
  have hdisjoint : (a + b) &&& b &&& align a b = 0#32 := by
    ext i
    simp only [align, getElem_and, getElem_not, getElem_zero]
    cases b[i] <;> simp
  have hsum : ((a + b) &&& b) + align a b = a + b := by
    rw [add_eq_or_of_and_eq_zero _ _ hdisjoint]
    ext i
    simp only [align, getElem_or, getElem_and, getElem_not]
    cases b[i] <;> simp
  have hnat := toNat_add_of_and_eq_zero hdisjoint
  rw [hsum, toNat_and] at hnat
  omega

theorem align_iff (m w : BitVec 32) :
    m.toNat ≤ (align m w).toNat ∧ w.toNat ∣ (align m w).toNat ↔ Aligns m.toNat w.toNat := by
  rw [toNat_align, Aligns, toNat_add]
  by_cases hfit : m.toNat + w.toNat < 2 ^ 32
  · have hle : (m.toNat + w.toNat) &&& w.toNat ≤ w.toNat := Nat.and_le_right
    rw [Nat.mod_eq_of_lt hfit, ← Nat.modEq_iff_dvd' (by omega), Nat.ModEq, Nat.add_mod_right]
    exact and_congr_left fun _ => iff_of_true (by omega) hfit
  · have hw := w.isLt
    exact iff_of_false (fun h => by omega) fun h => hfit h.1

end

/-! ### The information -/

/-- `cam_padding_info_t`, without the offsets. -/
structure CamAnalysisInfo.CamPaddingInfo where
  width_padding : BitVec 32
  height_padding : BitVec 32
  plane_padding : BitVec 32
  min_stride : BitVec 32
  min_scanline : BitVec 32

/-- `cam_analysis_info_t`, without the format; a resolution is its width and its height. -/
structure CamAnalysisInfo where
  valid : Bool
  hw_analysis_supported : BitVec 8
  analysis_max_res : ℤ × ℤ
  analysis_recommended_res : ℤ × ℤ
  analysis_padding_info : CamAnalysisInfo.CamPaddingInfo

namespace CamAnalysisInfo

/-- The information is merged with that of the second consumer. -/
def merge (info paaf : CamAnalysisInfo) : Option CamAnalysisInfo := do
  let a := info.analysis_padding_info
  let b := paaf.analysis_padding_info
  let height ← calculateLCM a.height_padding b.height_padding
  let width ← calculateLCM a.width_padding b.width_padding
  let plane ← calculateLCM a.plane_padding b.plane_padding
  some { info with
    analysis_max_res := (max info.analysis_max_res.1 paaf.analysis_max_res.1,
      max info.analysis_max_res.2 paaf.analysis_max_res.2)
    analysis_padding_info :=
      { width_padding := width
        height_padding := height
        plane_padding := plane
        min_stride := align (maxU32 a.min_stride b.min_stride) width
        min_scanline := align (maxU32 a.min_scanline b.min_scanline) height }
    hw_analysis_supported := info.hw_analysis_supported ||| paaf.hw_analysis_supported }

/-- The entry for the faces, of a video or a still. -/
def select (info still video : CamAnalysisInfo) (fdVideoEnabled hal3 : Bool) : CamAnalysisInfo :=
  if fdVideoEnabled && !hal3 && video.hw_analysis_supported != 0 && video.valid then video
  else if still.valid then
    if hal3 then { still with analysis_max_res := still.analysis_recommended_res } else still
  else { info with valid := false }

/-- `getAnalysisInfo`, with `CAM_QCOM_FEATURE_PAAF` in the mask or not: whether the information is valid, and what it
is. `info` is what was there before. -/
def getAnalysisInfo (info still video paaf : CamAnalysisInfo) (fdVideoEnabled hal3 featurePaaf : Bool) :
    Option (Bool × CamAnalysisInfo) := do
  let info := info.select still video fdVideoEnabled hal3
  let info ← if featurePaaf && paaf.valid then if info.valid then info.merge paaf else some paaf else some info
  some (info.valid, info)

/-- A padding that is the least common multiple, and a minimum that is at least both and aligned to it. -/
def MergedIn (a b r : CamAnalysisInfo) (padding minimum : CamPaddingInfo → BitVec 32) : Prop :=
  (padding r.analysis_padding_info).toNat =
      (padding a.analysis_padding_info).toNat.lcm (padding b.analysis_padding_info).toNat ∧
    max (minimum a.analysis_padding_info).toNat (minimum b.analysis_padding_info).toNat ≤
      (minimum r.analysis_padding_info).toNat ∧
    (padding r.analysis_padding_info).toNat ∣ (minimum r.analysis_padding_info).toNat

/-- **The merged information is right** for both. -/
def Merged (a b r : CamAnalysisInfo) : Prop :=
  r.analysis_padding_info.plane_padding.toNat =
      a.analysis_padding_info.plane_padding.toNat.lcm b.analysis_padding_info.plane_padding.toNat ∧
    MergedIn a b r CamPaddingInfo.width_padding CamPaddingInfo.min_stride ∧
    MergedIn a b r CamPaddingInfo.height_padding CamPaddingInfo.min_scanline

/-- The least common multiple of two positive paddings fits in 31 bits. -/
def LcmFits (a b : CamAnalysisInfo) (padding : CamPaddingInfo → BitVec 32) : Prop :=
  0 < (padding a.analysis_padding_info).toNat ∧ 0 < (padding b.analysis_padding_info).toNat ∧
    (padding a.analysis_padding_info).toNat.lcm (padding b.analysis_padding_info).toNat < 2 ^ 31

/-- **The condition**: the larger minimum is aligned to the least common multiple. -/
def AlignsIn (a b : CamAnalysisInfo) (padding minimum : CamPaddingInfo → BitVec 32) : Prop :=
  Aligns (max (minimum a.analysis_padding_info).toNat (minimum b.analysis_padding_info).toNat)
    ((padding a.analysis_padding_info).toNat.lcm (padding b.analysis_padding_info).toNat)

instance (a b : CamAnalysisInfo) (padding minimum : CamPaddingInfo → BitVec 32) :
    Decidable (AlignsIn a b padding minimum) :=
  inferInstanceAs (Decidable (_ ∧ _))

variable {a b : CamAnalysisInfo}

theorem mergedIn_iff {r : CamAnalysisInfo} {padding minimum : CamPaddingInfo → BitVec 32} (hfit : LcmFits a b padding)
    (hpadding : padding r.analysis_padding_info = BitVec.ofNat 32
      ((padding a.analysis_padding_info).toNat.lcm (padding b.analysis_padding_info).toNat))
    (hminimum : minimum r.analysis_padding_info = align
      (maxU32 (minimum a.analysis_padding_info) (minimum b.analysis_padding_info))
      (padding r.analysis_padding_info)) :
    MergedIn a b r padding minimum ↔ AlignsIn a b padding minimum := by
  have hlcm : (padding r.analysis_padding_info).toNat =
      (padding a.analysis_padding_info).toNat.lcm (padding b.analysis_padding_info).toNat := by
    rw [hpadding, toNat_ofNat]
    exact Nat.mod_eq_of_lt (by have := hfit.2.2; omega)
  rw [MergedIn, hminimum, ← toNat_maxU32, align_iff, toNat_maxU32, hlcm, AlignsIn, and_iff_right rfl]

variable {info still video paaf : CamAnalysisInfo} {fdVideoEnabled hal3 : Bool}

theorem getAnalysisInfo_merge (ha : info.select still video fdVideoEnabled hal3 = a) (hvalid : a.valid = true)
    (hpaaf : paaf.valid = true)
    (hfits : ∀ padding ∈ [CamPaddingInfo.width_padding, CamPaddingInfo.height_padding, CamPaddingInfo.plane_padding],
      LcmFits a paaf padding) :
    ∃ r, info.getAnalysisInfo still video paaf fdVideoEnabled hal3 true = some (true, r) ∧
      (Merged a paaf r ↔ AlignsIn a paaf CamPaddingInfo.width_padding CamPaddingInfo.min_stride ∧
        AlignsIn a paaf CamPaddingInfo.height_padding CamPaddingInfo.min_scanline) := by
  have hlcm : ∀ padding ∈ [CamPaddingInfo.width_padding, CamPaddingInfo.height_padding, CamPaddingInfo.plane_padding],
      calculateLCM (padding a.analysis_padding_info) (padding paaf.analysis_padding_info) = some (BitVec.ofNat 32
        ((padding a.analysis_padding_info).toNat.lcm (padding paaf.analysis_padding_info).toNat)) := fun padding hp =>
    calculateLCM_eq (hfits padding hp).1 (hfits padding hp).2.1 (hfits padding hp).2.2
  simp only [List.forall_mem_cons] at hfits hlcm
  obtain ⟨hwidth, hheight, hplane, -⟩ := hfits
  obtain ⟨hwidth', hheight', hplane', -⟩ := hlcm
  simp only [getAnalysisInfo, ha, hpaaf, Bool.and_self, if_true, hvalid, merge, hwidth', hheight', hplane',
    Option.bind_eq_bind, Option.bind_some]
  refine ⟨_, rfl, ?_⟩
  rw [Merged, mergedIn_iff hwidth rfl rfl, mergedIn_iff hheight rfl rfl]
  refine and_iff_right ?_
  exact (toNat_ofNat ..).trans (Nat.mod_eq_of_lt (by have := hplane.2.2; omega))

/-- **When the merged information is right**: exactly if both minima are aligned. -/
theorem merged_padding_iff (hvalid : (info.select still video fdVideoEnabled hal3).valid = true)
    (hpaaf : paaf.valid = true)
    (hfits : ∀ padding ∈ [CamPaddingInfo.width_padding, CamPaddingInfo.height_padding, CamPaddingInfo.plane_padding],
      LcmFits (info.select still video fdVideoEnabled hal3) paaf padding) :
    let a := info.select still video fdVideoEnabled hal3
    (∀ num1 num2, (calculateLCM num1 num2).isSome) ∧
      ∃ r, info.getAnalysisInfo still video paaf fdVideoEnabled hal3 true = some (true, r) ∧
        (Merged a paaf r ↔ AlignsIn a paaf CamPaddingInfo.width_padding CamPaddingInfo.min_stride ∧
          AlignsIn a paaf CamPaddingInfo.height_padding CamPaddingInfo.min_scanline) :=
  ⟨calculateLCM_isSome, getAnalysisInfo_merge rfl hvalid hpaaf hfits⟩

/-- An entry with the same padding for the width and the height, and the same minimum for both. -/
def square (padding minimum : BitVec 32) : CamAnalysisInfo where
  valid := true
  hw_analysis_supported := 1
  analysis_max_res := (640, 480)
  analysis_recommended_res := (640, 480)
  analysis_padding_info :=
    { width_padding := padding, height_padding := padding, plane_padding := 1, min_stride := minimum,
      min_scanline := minimum }

/-- With the paddings 32 and 16 and the minimum 64. -/
theorem merged_padding_aligned : ∃ r,
    (square 32 64).getAnalysisInfo (square 32 64) (square 32 64) (square 16 64) false false true = some (true, r) ∧
      Merged (square 32 64) (square 16 64) r :=
  (@merged_padding_iff (square 32 64) (square 32 64) (square 32 64) (square 16 64) false false rfl rfl
    (by simp only [LcmFits]; decide)).2.imp fun _ h => ⟨h.1, h.2.mpr (by decide)⟩

/-- The minimum 33 is not aligned to 32: it becomes 65. -/
theorem not_merged_padding : ∃ r,
    (square 32 33).getAnalysisInfo (square 32 33) (square 32 33) (square 16 33) false false true = some (true, r) ∧
      ¬ Merged (square 32 33) (square 16 33) r :=
  (getAnalysisInfo_merge rfl rfl rfl (by simp only [LcmFits]; decide)).imp fun _ h =>
    ⟨h.1, fun hmerged => absurd (h.2.mp hmerged) (by decide)⟩

end CamAnalysisInfo

end Marlin
