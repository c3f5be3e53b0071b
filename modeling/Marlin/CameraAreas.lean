import Marlin.Decimal
import Marlin.FixedWidth

/-!
# Focus Areas from Text

`setFocusAreas` of `QCameraParameters` takes areas as text, `(left, top, right, bottom, weight),...`, in coordinates
from -1000 to 1000. `parseCameraAreaString` copies each area into `area_str`, 32 bytes, without a look at its length. A
difference that is no `int` is wrapped.

## Main results

* `setFocusAreas_text`: areas that are printed are what the lower layer gets, as long as each fits in `area_str`; it
  does without blanks, and with a blank behind each comma it does not always.
-/

namespace Marlin.CameraAreas

open List Decimal FixedWidth

/-- `cam_area_t`. -/
structure CamArea where
  left : ℤ
  top : ℤ
  width : ℤ
  height : ℤ
  weight : ℤ
deriving DecidableEq

/-- The area that stands for none. -/
def default : CamArea := ⟨0, 0, 0, 0, 0⟩

/-- The turns of `parseNDimVector` that are left. -/
def parseNumbers (w : ℕ) : ℕ → List UInt8 → Option (List ℤ)
  | 0, _ => some []
  | n + 1, start =>
    let num := strtol w start
    if num.2.head? ≠ some 44 ∧ 0 < n then none else (parseNumbers w n num.2.tail).map (toInt32 num.1 :: ·)

def parseNDimVector (w : ℕ) (str : List UInt8) (N : ℕ) : Option (List ℤ) :=
  if str.head? ≠ some 40 ∨ str.getLast? ≠ some 41 then none else parseNumbers w N str.tail

/-- What a turn stores. -/
def areaOf (values : List ℤ) : CamArea where
  left := values.getD 0 0
  top := values.getD 1 0
  width := toInt32 (values.getD 2 0 - values.getD 0 0)
  height := toInt32 (values.getD 3 0 - values.getD 1 0)
  weight := values.getD 4 0

/-- What a call comes to. -/
inductive Parsed
  /-- It wrote behind `area_str`. -/
  | overrun
  /-- `BAD_VALUE`. -/
  | badValue
  | areas (found : List CamArea)
deriving DecidableEq

/-- `parseCameraAreaString` from `start` on. -/
def parseCameraAreaString (w max : ℕ) (found : List CamArea) (start : List UInt8) : Parsed :=
  if _ : start.head? ≠ some 40 then .badValue
  else if 41 ∉ start then .badValue
  else
    let area := start.takeWhile (· != 41) ++ [41]
    if 32 < area.length + 1 then .overrun
    else
      match parseNDimVector w area 5 with
      | none => .badValue
      | some values =>
        if max ≤ found.length then .badValue
        else
          let next := (start.dropWhile (· != 41)).dropWhile (· != 40)
          if next = [] then .areas (found ++ [areaOf values])
          else parseCameraAreaString w max (found ++ [areaOf values]) next
termination_by start.length
decreasing_by
  cases start with
  | nil => simp_all
  | cons c start =>
    obtain rfl : c = 40 := by simp_all
    rw [dropWhile_cons_of_pos rfl]
    exact Nat.lt_succ_of_le (((dropWhile_suffix _).trans (dropWhile_suffix _)).length_le)

/-- One area in `validateCameraAreas`. -/
def validArea (area : CamArea) : Bool :=
  !(area.left < -1000 || area.top < -1000 || area.width ≤ 0 || area.height ≤ 0
    || 1000 < toInt32 (area.left + area.width) || 1000 < toInt32 (area.top + area.height)
    || area.weight < 1 || 1000 < area.weight)

def validateCameraAreas (areas : List CamArea) : Bool := areas == [default] || areas.all validArea

/-- What of the parameters `setFocusAreas` reads and writes. -/
structure AreaParams where
  /-- `max_num_focus_areas`. -/
  max : ℕ
  /-- What is kept under `KEY_FOCUS_AREAS`. -/
  entry : Option (List UInt8)
  /-- `CAM_INTF_PARM_AF_ROI` in the batch. -/
  afRoi : Option (List CamArea)

/-- `setFocusAreas`, when there is memory and room in the batch: the status and the parameters, or nothing when memory
is overwritten. `scale` takes an area to the preview's pixels, in `double`. -/
def setFocusAreas (w : ℕ) (scale : CamArea → CamArea) (params : AreaParams) (str : List UInt8) :
    Option (ℤ × AreaParams) :=
  if params.max = 0 then some (0, params)
  else
    match parseCameraAreaString w params.max [] str with
    | .overrun => none
    | .badValue => some (-22, params)
    | .areas areas =>
      if validateCameraAreas areas = false then some (-22, params)
      else
        let areas := if areas = [default] then [] else areas
        some (0, { params with entry := some str, afRoi := some (areas.map scale) })

/-! ## Areas as text -/

/-- A comma and `k` blanks. -/
def comma (k : ℕ) : List UInt8 := 44 :: replicate k 32

def edges (area : CamArea) : List ℤ :=
  [area.left, area.top, area.left + area.width, area.top + area.height, area.weight]

def areaText (k : ℕ) (area : CamArea) : List UInt8 := 40 :: ((comma k).intercalate ((edges area).map text) ++ [41])

def areasText (k : ℕ) (areas : List CamArea) : List UInt8 := (comma k).intercalate (areas.map (areaText k))

/-- An area in the coordinates of the framework. -/
structure CamArea.InGrid (area : CamArea) : Prop where
  left : -1000 ≤ area.left
  top : -1000 ≤ area.top
  width : 0 < area.width
  height : 0 < area.height
  right : area.left + area.width ≤ 1000
  bottom : area.top + area.height ≤ 1000
  weight : 1 ≤ area.weight ∧ area.weight ≤ 1000

variable {w k : ℕ} {area : CamArea} {areas found : List CamArea} {nums : List ℤ} {rest : List UInt8} {c : UInt8}

theorem CamArea.InGrid.edges (h : area.InGrid) : ∀ z ∈ edges area, z.natAbs ≤ 1000 := by
  obtain ⟨hleft, htop, hwidth, hheight, hright, hbottom, hweight, hweight'⟩ := h
  simp only [CameraAreas.edges, forall_mem_cons]
  refine ⟨?_, ?_, ?_, ?_, ?_, fun z hz => absurd hz not_mem_nil⟩ <;> omega

theorem CamArea.InGrid.validArea (h : area.InGrid) : validArea area = true := by
  obtain ⟨hleft, htop, hwidth, hheight, hright, hbottom, hweight, hweight'⟩ := h
  rw [CameraAreas.validArea, toInt32_eq ⟨by omega, by omega⟩, toInt32_eq ⟨by omega, by omega⟩]
  simp only [Bool.not_eq_true', Bool.or_eq_false_iff, decide_eq_false_iff_not]
  omega

theorem areaOf_edges (h : ∀ z ∈ edges area, z.natAbs ≤ 1000) : areaOf (edges area) = area := by
  simp only [edges, forall_mem_cons] at h
  obtain ⟨hleft, htop, hright, hbottom, -⟩ := h
  have hwidth : toInt32 (area.left + area.width - area.left) = area.width := by
    rw [toInt32_eq ⟨by omega, by omega⟩]
    omega
  have hheight : toInt32 (area.top + area.height - area.top) = area.height := by
    rw [toInt32_eq ⟨by omega, by omega⟩]
    omega
  exact congrArg₂ (fun x y => CamArea.mk area.left area.top x y area.weight) hwidth hheight

/-- The numbers of a vector are read back. -/
theorem parseNumbers_text (hw : 32 ≤ w) (h : ∀ z ∈ nums, InInt32 z) (j : ℕ) :
    parseNumbers w nums.length (replicate j 32 ++ ((comma k).intercalate (nums.map text) ++ [41])) = some nums := by
  have hpow : (2 : ℤ) ^ 31 ≤ 2 ^ (w - 1) := pow_le_pow_right₀ (by decide) (by omega)
  induction nums generalizing j with
  | nil => rfl
  | cons z nums ih =>
    obtain ⟨hz, hnums⟩ := forall_mem_cons.mp h
    rw [length_cons, parseNumbers, map_cons]
    cases nums with
    | nil =>
      rw [map_nil, intercalate_singleton, strtol_text j (by have := hz.1; omega) (by have := hz.2; omega)
        (by rintro c ⟨⟩; rfl), if_neg fun hn => absurd hn.2 (Nat.lt_irrefl 0), toInt32_eq hz]
      rfl
    | cons z' nums =>
      rw [map_cons, intercalate_cons_cons, append_assoc, append_assoc, ← map_cons,
        strtol_text j (by have := hz.1; omega) (by have := hz.2; omega) (by rintro c ⟨⟩; rfl),
        if_neg fun hn => absurd rfl hn.1, toInt32_eq hz]
      change (parseNumbers w (z' :: nums).length (replicate k 32 ++ _)).map _ = _
      rw [ih hnums k]
      rfl

theorem parseNDimVector_text (hw : 32 ≤ w) (h : ∀ z ∈ edges area, z.natAbs ≤ 1000) :
    parseNDimVector w (areaText k area) 5 = some (edges area) := by
  have hlast : (areaText k area).getLast? = some 41 := by
    rw [areaText, ← cons_append, getLast?_append]
    rfl
  rw [parseNDimVector, if_neg (by rw [hlast]; exact fun hn => hn.elim (absurd rfl) (absurd rfl))]
  exact parseNumbers_text hw (fun z hz => ⟨by have := h z hz; omega, by have := h z hz; omega⟩) 0

/-- No bracket stands in a vector. -/
theorem ne_bracket_of_mem (h : c ∈ (comma k).intercalate (nums.map text)) : c ≠ 40 ∧ c ≠ 41 := by
  obtain hdigit | rfl | rfl | rfl : isDigit c = true ∨ c = 45 ∨ c = 44 ∨ c = 32 := by
    induction nums with
    | nil => cases h
    | cons z nums ih =>
      have htext : c ∈ text z → isDigit c = true ∨ c = 45 := by
        rw [text]
        split
        · rintro hc
          exact (mem_cons.mp hc).elim .inr fun hc => .inl (isDigit_natText hc)
        · exact fun hc => .inl (isDigit_natText hc)
      cases nums with
      | nil =>
        rw [map_cons, map_nil, intercalate_singleton] at h
        exact (htext h).imp_right .inl
      | cons z' nums =>
        rw [map_cons, map_cons, intercalate_cons_cons, ← map_cons, mem_append, mem_append] at h
        obtain (h | h) | h := h
        · exact (htext h).imp_right .inl
        · exact .inr (.inr ((mem_cons.mp h).imp_right eq_of_mem_replicate))
        · exact ih h
  · constructor <;> rintro rfl <;> cases hdigit
  all_goals decide

/-- One turn over an area that is printed. -/
theorem parseCameraAreaString_cons (max : ℕ) (hw : 32 ≤ w) (h : ∀ z ∈ edges area, z.natAbs ≤ 1000) :
    parseCameraAreaString w max found (areaText k area ++ rest) =
      if 32 < (areaText k area).length + 1 then .overrun
      else if max ≤ found.length then .badValue
      else if rest.dropWhile (· != 40) = [] then .areas (found ++ [area])
      else parseCameraAreaString w max (found ++ [area]) (rest.dropWhile (· != 40)) := by
  have hnums : ∀ c ∈ 40 :: (comma k).intercalate ((edges area).map text), (c != 41) = true := by
    rintro c (_ | ⟨_, hc⟩)
    · rfl
    · exact bne_iff_ne.mpr (ne_bracket_of_mem hc).2
  have htext : areaText k area ++ rest = (40 :: (comma k).intercalate ((edges area).map text)) ++ 41 :: rest := by
    rw [areaText, cons_append, append_assoc]
    rfl
  have htake : (areaText k area ++ rest).takeWhile (· != 41) ++ [41] = areaText k area := by
    rw [htext, takeWhile_append_of_pos hnums, takeWhile_cons_of_neg (by decide), append_nil]
    rfl
  have hdrop : ((areaText k area ++ rest).dropWhile (· != 41)).dropWhile (· != 40) = rest.dropWhile (· != 40) := by
    rw [htext, dropWhile_append_of_pos hnums, dropWhile_cons_of_neg (by decide), dropWhile_cons_of_pos (by decide)]
  have hhead : (areaText k area ++ rest).head? = some 40 := rfl
  have hmem : 41 ∈ areaText k area ++ rest := by
    rw [htext]
    exact mem_append_right _ mem_cons_self
  rw [parseCameraAreaString, dif_neg (not_not.mpr hhead), if_neg (not_not.mpr hmem)]
  dsimp only
  rw [htake, hdrop, parseNDimVector_text hw h]
  dsimp only
  rw [areaOf_edges h]

/-- The areas that are printed are found, unless one does not fit. -/
theorem parseCameraAreaString_text {max : ℕ} (hw : 32 ≤ w) (hne : areas ≠ []) (hmax : found.length + areas.length ≤ max)
    (h : ∀ area ∈ areas, ∀ z ∈ edges area, z.natAbs ≤ 1000) :
    parseCameraAreaString w max found (areasText k areas) =
      if ∀ area ∈ areas, (areaText k area).length < 32 then .areas (found ++ areas) else .overrun := by
  induction areas generalizing found with
  | nil => exact absurd rfl hne
  | cons area areas ih =>
    obtain ⟨harea, hareas⟩ := forall_mem_cons.mp h
    have hroom : ¬ max ≤ found.length := by
      rw [length_cons] at hmax
      omega
    by_cases hlen : (areaText k area).length < 32
    · cases areas with
      | nil =>
        rw [areasText, map_cons, map_nil, intercalate_singleton, ← append_nil (areaText k area),
          parseCameraAreaString_cons max hw harea, if_neg (by omega), if_neg hroom, if_pos dropWhile_nil]
        exact (if_pos fun a ha => mem_singleton.mp ha ▸ hlen).symm
      | cons area' areas =>
        have hnext : (comma k ++ areasText k (area' :: areas)).dropWhile (· != 40) = areasText k (area' :: areas) := by
          rw [dropWhile_append_of_pos]
          · cases areas <;> rfl
          · rintro c (_ | ⟨_, hc⟩)
            · rfl
            · rw [eq_of_mem_replicate hc]
              rfl
        have hnil : areasText k (area' :: areas) ≠ [] := by
          cases areas <;> exact cons_ne_nil _ _
        have hsplit : areasText k (area :: area' :: areas) =
            areaText k area ++ (comma k ++ areasText k (area' :: areas)) := by
          rw [areasText, map_cons, map_cons, intercalate_cons_cons, ← map_cons, append_assoc]
          rfl
        rw [hsplit, parseCameraAreaString_cons max hw harea, if_neg (by omega), if_neg hroom, hnext, if_neg hnil,
          ih (cons_ne_nil _ _) (by rw [length_append, length_singleton]; rw [length_cons] at hmax; omega) hareas,
          append_assoc, singleton_append]
        exact if_congr (by rw [forall_mem_cons (l := area' :: areas), and_iff_right hlen]) rfl rfl
    · have hsplit : ∃ rest, areasText k (area :: areas) = areaText k area ++ rest := by
        cases areas with
        | nil => exact ⟨[], by rw [areasText, map_cons, map_nil, intercalate_singleton, append_nil]⟩
        | cons area' areas => exact ⟨_, by rw [areasText, map_cons, map_cons, intercalate_cons_cons, append_assoc]⟩
      obtain ⟨rest, hrest⟩ := hsplit
      rw [hrest, parseCameraAreaString_cons max hw harea, if_pos (by omega),
        if_neg fun hall => hlen (hall area mem_cons_self)]

/-- An area in the grid, without blanks, has 31 bytes at most. -/
theorem length_areaText (h : ∀ z ∈ edges area, z.natAbs ≤ 1000) : (areaText 0 area).length < 32 := by
  have hz : ∀ z ∈ edges area, (text z).length ≤ 5 :=
    fun z hz => length_text_le (by decide) (Nat.lt_of_le_of_lt (h z hz) (by decide))
  simp only [edges, forall_mem_cons] at hz
  simp only [areaText, edges, map_cons, map_nil, intercalate_cons_cons, intercalate_singleton, comma, replicate_zero,
    length_cons, length_append, length_nil]
  omega

/-- **What is set is what was printed,** for areas in the grid and for the one that stands for none: without blanks
always, and with `k` blanks behind a comma as long as no area is longer than `area_str`; then memory is overwritten. -/
theorem setFocusAreas_text (scale : CamArea → CamArea) (params : AreaParams) (hw : 32 ≤ w)
    (hmax : areas.length ≤ params.max) (hne : areas ≠ [])
    (h : (∀ area ∈ areas, area.InGrid) ∨ areas = [default]) :
    (setFocusAreas w scale params (areasText k areas) =
      if ∀ area ∈ areas, (areaText k area).length < 32 then
        some (0, { params with
          entry := some (areasText k areas)
          afRoi := some (if areas = [default] then [] else areas.map scale) })
      else none) ∧
    (k = 0 → ∀ area ∈ areas, (areaText k area).length < 32) := by
  have hedges : ∀ area ∈ areas, ∀ z ∈ edges area, z.natAbs ≤ 1000 := by
    obtain h | rfl := h
    · exact fun area harea => (h area harea).edges
    · decide
  have hvalid : validateCameraAreas areas = true := by
    obtain h | rfl := h
    · rw [validateCameraAreas, all_eq_true.mpr fun area harea => (h area harea).validArea, Bool.or_true]
    · rfl
  have hpos : params.max ≠ 0 := fun hn => hne (length_eq_zero_iff.mp (Nat.le_zero.mp (hn ▸ hmax)))
  refine ⟨?_, ?_⟩
  · rw [setFocusAreas, if_neg hpos, parseCameraAreaString_text hw hne (by rwa [length_nil, Nat.zero_add]) hedges]
    by_cases hfit : ∀ area ∈ areas, (areaText k area).length < 32
    · rw [if_pos hfit, if_pos hfit]
      dsimp only
      rw [nil_append, if_neg (by rw [hvalid]; decide), apply_ite (map scale)]
      rfl
    · rw [if_neg hfit, if_neg hfit]
  · rintro rfl area harea
    exact length_areaText (hedges area harea)

/-- The whole grid, with blanks behind its commas, does not fit. -/
theorem setFocusAreas_whole :
    setFocusAreas 64 id ⟨1, none, none⟩ (areasText 1 [⟨-1000, -1000, 2000, 2000, 1000⟩]) = none :=
  ((setFocusAreas_text id ⟨1, none, none⟩ (by decide) (by decide) (by decide) (.inl (forall_mem_singleton.mpr
    ⟨by decide, by decide, by decide, by decide, by decide, by decide, by decide⟩))).1).trans (if_neg (by decide))

end Marlin.CameraAreas
