import Mathlib.Data.List.Sigma
import Marlin.FrameSync
import Marlin.MpoPairing

/-!
# The Table of Logical Cameras

`setupLogicalCameras` makes a logical camera of every physical camera in primary mode, and then gives each camera in
secondary mode to the logical cameras of its facing. It does not look for another one that has it already, so that a
camera can be in two of them.

## Conventions

An allocation succeeds, and `getCapabilities` does not fail.

## Main results

* `assignAux_assignMain`: what the loops make, a primary camera and the first secondary one of its facing.
* `proper_iff`: the table is proper exactly if a secondary camera has the facing of at most one primary camera.
-/

namespace Marlin

open List

/-- `cam_sync_mode_t`. -/
inductive CamSyncMode
  | primary
  | secondary
  deriving DecidableEq

/-- What `getCapabilities` says of a camera. No type is `CAM_TYPE_STANDALONE`. -/
structure CameraCaps where
  type : Option CamSyncType
  facing : ℤ

/-- `qcamera_physical_descriptor_t`. -/
structure PhysicalDescriptor extends CameraCaps where
  id : ℕ
  mode : CamSyncMode

/-- An entry of the arrays of a logical camera. -/
structure BundledCamera where
  pId : ℕ
  type : CamSyncType
  mode : CamSyncMode

/-- `qcamera_logical_descriptor_t`. `cameras` are the first `numCameras` entries of its arrays. -/
structure LogicalDescriptor where
  id : ℕ
  facing : ℤ
  nPrimaryPhyCamIndex : ℕ := 0
  cameras : List BundledCamera

/-- The physical cameras of a logical one. -/
def LogicalDescriptor.pIds (l : LogicalDescriptor) : List ℕ := l.cameras.map (·.pId)

/-- The errors of `setupLogicalCameras`. -/
inductive SetupError
  | badValue
  | noDev

namespace LogicalDescriptor

/-- The mode of a physical camera. -/
def modeOf (exposed swapAux : Bool) (c : CameraCaps) : CamSyncMode :=
  if !exposed && c.type ≠ some (if swapAux then .aux else .main) then .secondary else .primary

/-- The descriptor of a physical camera. -/
def descriptor (exposed swapAux : Bool) (i : ℕ) (c : CameraCaps) : PhysicalDescriptor :=
  { c with id := i, mode := modeOf exposed swapAux c }

/-- The loop over the physical cameras. -/
def enumerate (exposed swapAux : Bool) (caps : List CameraCaps) : List PhysicalDescriptor :=
  caps.mapIdx (descriptor exposed swapAux)

/-- The physical cameras in a mode, each with its index. -/
def inMode (mode : CamSyncMode) (phys : List PhysicalDescriptor) : List (PhysicalDescriptor × ℕ) :=
  phys.zipIdx.filter fun x => x.1.mode = mode

/-- The loop that makes the logical cameras. -/
def assignMain (phys : List PhysicalDescriptor) : List LogicalDescriptor :=
  (inMode .primary phys).zipIdx.map fun (x, index) =>
    { id := index, facing := x.1.facing, cameras := [⟨x.2, .main, .primary⟩] }

/-- A secondary camera goes to a logical camera that has room. -/
def addAux (l : LogicalDescriptor) (x : PhysicalDescriptor × ℕ) : LogicalDescriptor :=
  if l.cameras.length < maxNumCameraPerBundle ∧ l.facing = x.1.facing then
    { l with cameras := l.cameras ++ [⟨x.2, .aux, .secondary⟩] }
  else l

/-- The loop over the secondary cameras, and in it that over the logical ones. -/
def assignAux (phys : List PhysicalDescriptor) (table : List LogicalDescriptor) : List LogicalDescriptor :=
  (inMode .secondary phys).foldl (fun table x => table.map (·.addAux x)) table

/-- `setupLogicalCameras`, where the physical cameras are known. -/
def setupTables (phys : List PhysicalDescriptor) :
    Except SetupError (List PhysicalDescriptor × List LogicalDescriptor) :=
  if (inMode .primary phys).length = 0 then .error .noDev else .ok (phys, assignAux phys (assignMain phys))

/-- `setupLogicalCameras`: the tables of the physical and of the logical cameras. -/
def setupLogicalCameras (maxSensors : ℕ) (exposed swapAux : Bool) (caps : List CameraCaps) :
    Except SetupError (List PhysicalDescriptor × List LogicalDescriptor) :=
  if caps.length = 0 ∨ maxSensors < caps.length then .error .badValue
  else setupTables (enumerate exposed swapAux caps)

/-- **The table is proper.** -/
structure Proper (phys : List PhysicalDescriptor) (table : List LogicalDescriptor) : Prop where
  bounded : ∀ l ∈ table, l.cameras.length ≤ maxNumCameraPerBundle
  primary : ∀ l ∈ table, ∀ k, (l.cameras[k]?.map (·.mode) = some .primary ↔ k = l.nPrimaryPhyCamIndex)
  described : ∀ l ∈ table, ∀ b ∈ l.cameras, ∃ p, phys[b.pId]? = some p ∧ p.mode = b.mode ∧ p.facing = l.facing
  covered : ∀ i p, phys[i]? = some p → p.mode = .primary → ∃ l ∈ table, i ∈ l.pIds
  exclusive : (table.flatMap pIds).Nodup

/-- **The condition**: where two primary cameras have the facing of a secondary one, they are the same. -/
def Unshared (mode : CameraCaps → CamSyncMode) (caps : List CameraCaps) : Prop :=
  ∀ (i j : ℕ) (p q : CameraCaps), caps[i]? = some p → caps[j]? = some q → mode p = .primary → mode q = .primary →
    p.facing = q.facing → (∃ c ∈ caps, mode c = .secondary ∧ c.facing = p.facing) → i = j

variable {phys : List PhysicalDescriptor} {x y : PhysicalDescriptor × ℕ} {mode : CamSyncMode}

theorem mem_inMode : x ∈ inMode mode phys ↔ phys[x.2]? = some x.1 ∧ x.1.mode = mode := by
  simp [inMode, mem_zipIdx_iff_getElem?]

theorem nodup_inMode (mode : CamSyncMode) (phys : List PhysicalDescriptor) : ((inMode mode phys).map (·.2)).Nodup :=
  (nodup_zipIdx_map_snd phys).sublist (filter_sublist.map _)

/-- The first secondary camera with a facing. -/
def companion (phys : List PhysicalDescriptor) (facing : ℤ) : List (PhysicalDescriptor × ℕ) :=
  ((inMode .secondary phys).filter fun x => facing = x.1.facing).take 1

theorem of_mem_companion {f : ℤ} (h : x ∈ companion phys f) : x ∈ inMode .secondary phys ∧ x.1.facing = f := by
  have hmem := mem_filter.mp (mem_of_mem_take h)
  exact ⟨hmem.1, (of_decide_eq_true hmem.2).symm⟩

theorem exists_mem_companion (h : x ∈ inMode .secondary phys) : ∃ y, y ∈ companion phys x.1.facing := by
  refine exists_mem_of_ne_nil _ fun hnil => ?_
  rw [companion, take_eq_nil_iff, or_iff_right Nat.one_ne_zero] at hnil
  exact filter_eq_nil_iff.mp hnil x h (decide_eq_true rfl)

theorem foldl_addAux (xs : List (PhysicalDescriptor × ℕ)) (l : LogicalDescriptor) : xs.foldl addAux l =
    { l with cameras := l.cameras ++ ((xs.filter fun x => l.facing = x.1.facing).take
        (maxNumCameraPerBundle - l.cameras.length)).map fun x => ⟨x.2, .aux, .secondary⟩ } := by
  induction xs generalizing l with
  | nil => simp
  | cons x xs ih =>
    rw [foldl_cons, ih, addAux]
    by_cases hfacing : l.facing = x.1.facing
    · by_cases hroom : l.cameras.length < maxNumCameraPerBundle
      · obtain ⟨n, hn⟩ := Nat.exists_eq_add_of_lt hroom
        have hsub : maxNumCameraPerBundle - l.cameras.length = n + 1 := by omega
        have hsub' : maxNumCameraPerBundle - (l.cameras.length + 1) = n := by omega
        rw [if_pos ⟨hroom, hfacing⟩]
        simp [hfacing, hsub, hsub']
      · rw [if_neg (hroom ·.1)]
        simp [Nat.sub_eq_zero_of_le (Nat.le_of_not_lt hroom)]
    · rw [if_neg (hfacing ·.2)]
      simp [hfacing]

theorem assignAux_eq (phys : List PhysicalDescriptor) (table : List LogicalDescriptor) :
    assignAux phys table = table.map fun l => (inMode .secondary phys).foldl addAux l := by
  rw [assignAux]
  induction inMode .secondary phys generalizing table with
  | nil => simp
  | cons x xs ih => simp [ih]

/-- **What the loops make**: a primary camera, and the first secondary one with its facing. -/
theorem assignAux_assignMain (phys : List PhysicalDescriptor) : assignAux phys (assignMain phys) =
    (inMode .primary phys).zipIdx.map fun x =>
      { id := x.2
        facing := x.1.1.facing
        cameras := ⟨x.1.2, .main, .primary⟩ ::
          (companion phys x.1.1.facing).map fun y => ⟨y.2, .aux, .secondary⟩ } := by
  rw [assignAux_eq, assignMain, map_map]
  refine map_congr_left fun x _ => ?_
  simp [foldl_addAux, companion, maxNumCameraPerBundle]

theorem flatMap_pIds (phys : List PhysicalDescriptor) : (assignAux phys (assignMain phys)).flatMap pIds =
    (inMode .primary phys).flatMap fun x => x.2 :: (companion phys x.1.facing).map (·.2) := by
  rw [assignAux_assignMain, flatMap_map]
  conv_rhs => rw [← zipIdx_map_fst 0 (inMode .primary phys), flatMap_map]
  simp [pIds, Function.comp_def]

theorem eq_of_snd_eq {mode' : CamSyncMode} (hx : x ∈ inMode mode phys) (hy : y ∈ inMode mode' phys)
    (h : x.2 = y.2) : x = y :=
  Prod.ext (Option.some.inj ((mem_inMode.mp hx).1.symm.trans (h ▸ (mem_inMode.mp hy).1))) h

theorem snd_ne_of_modes (hx : x ∈ inMode .primary phys) (hy : y ∈ inMode .secondary phys) : x.2 ≠ y.2 := by
  intro h
  have hmode := (mem_inMode.mp hx).2
  rw [eq_of_snd_eq hx hy h, (mem_inMode.mp hy).2] at hmode
  cases hmode

/-- **No camera is in the table twice** exactly if no primary camera shares a companion. -/
theorem nodup_iff (phys : List PhysicalDescriptor) : ((assignAux phys (assignMain phys)).flatMap pIds).Nodup ↔
    ∀ x ∈ inMode .primary phys, ∀ y ∈ inMode .primary phys, x.1.facing = y.1.facing →
      (∃ c ∈ inMode .secondary phys, c.1.facing = x.1.facing) → x = y := by
  rw [flatMap_pIds]
  constructor
  · rintro hnodup x hx y hy hfacing ⟨c, hc, hcf⟩
    by_contra hne
    obtain ⟨e, he⟩ := exists_mem_companion hc
    rw [hcf] at he
    have hsymm : Std.Symm fun a b : PhysicalDescriptor × ℕ =>
        Disjoint (a.2 :: (companion phys a.1.facing).map (·.2)) (b.2 :: (companion phys b.1.facing).map (·.2)) :=
      ⟨fun _ _ h _ ha hb => h hb ha⟩
    exact (nodup_flatMap.mp hnodup).2.forall hx hy hne (mem_cons_of_mem _ (mem_map_of_mem he))
      (mem_cons_of_mem _ (mem_map_of_mem (hfacing ▸ he)))
  · intro h
    refine nodup_flatMap.mpr ⟨fun x hx => ?_,
      (Nodup.of_map _ (nodup_inMode .primary phys)).pairwise_of_forall_ne fun x hx y hy hne i hi hj => ?_⟩
    · refine nodup_cons.mpr ⟨fun hmem => ?_, ?_⟩
      · obtain ⟨c, hc, heq⟩ := mem_map.mp hmem
        exact snd_ne_of_modes hx (of_mem_companion hc).1 heq.symm
      · exact (nodup_inMode .secondary phys).sublist (((take_sublist _ _).trans filter_sublist).map _)
    · rcases mem_cons.mp hi with rfl | hi <;> rcases mem_cons.mp hj with heq | hj
      · exact hne (eq_of_snd_eq hx hy heq)
      · obtain ⟨d, hd, heq⟩ := mem_map.mp hj
        exact snd_ne_of_modes hx (of_mem_companion hd).1 heq.symm
      · obtain ⟨c, hc, rfl⟩ := mem_map.mp hi
        exact snd_ne_of_modes hy (of_mem_companion hc).1 heq.symm
      · obtain ⟨c, hc, rfl⟩ := mem_map.mp hi
        obtain ⟨d, hd, heq⟩ := mem_map.mp hj
        have hcm := of_mem_companion hc
        have hdm := of_mem_companion hd
        obtain rfl := eq_of_snd_eq hdm.1 hcm.1 heq
        exact hne (h x hx y hy (hcm.2.symm.trans hdm.2) ⟨d, hcm⟩)

section Table

variable {maxSensors : ℕ} {exposed swapAux : Bool} {caps : List CameraCaps} {table : List LogicalDescriptor}

theorem mem_inMode_enumerate : x ∈ inMode mode (enumerate exposed swapAux caps) ↔
    ∃ c, caps[x.2]? = some c ∧ modeOf exposed swapAux c = mode ∧ x.1 = descriptor exposed swapAux x.2 c := by
  rw [mem_inMode, enumerate, getElem?_mapIdx]
  constructor
  · rintro ⟨heq, hmode⟩
    obtain ⟨c, hc, heq⟩ := Option.map_eq_some_iff.mp heq
    rw [← heq] at hmode
    exact ⟨c, hc, hmode, heq.symm⟩
  · rintro ⟨c, hc, hmode, heq⟩
    simp [hc, heq, ← hmode, descriptor]

theorem unshared_iff : Unshared (modeOf exposed swapAux) caps ↔
    ∀ x ∈ inMode .primary (enumerate exposed swapAux caps), ∀ y ∈ inMode .primary (enumerate exposed swapAux caps),
      x.1.facing = y.1.facing →
        (∃ c ∈ inMode .secondary (enumerate exposed swapAux caps), c.1.facing = x.1.facing) → x = y := by
  constructor
  · rintro h x hx y hy hfacing ⟨z, hz, hzf⟩
    obtain ⟨p, hp, hmp, hxp⟩ := mem_inMode_enumerate.mp hx
    obtain ⟨q, hq, hmq, hyq⟩ := mem_inMode_enumerate.mp hy
    obtain ⟨c, hc, hmc, hzc⟩ := mem_inMode_enumerate.mp hz
    rw [hxp] at hfacing hzf
    rw [hyq] at hfacing
    rw [hzc] at hzf
    exact eq_of_snd_eq hx hy (h _ _ p q hp hq hmp hmq hfacing ⟨c, mem_of_getElem? hc, hmc, hzf⟩)
  · rintro h i j p q hp hq hmp hmq hfacing ⟨c, hc, hmc, hcf⟩
    obtain ⟨k, hk⟩ := getElem?_of_mem hc
    exact congrArg Prod.snd (h (descriptor _ _ i p, i) (mem_inMode_enumerate.mpr ⟨p, hp, hmp, rfl⟩)
      (descriptor _ _ j q, j) (mem_inMode_enumerate.mpr ⟨q, hq, hmq, rfl⟩) hfacing
      ⟨(descriptor _ _ k c, k), mem_inMode_enumerate.mpr ⟨c, hk, hmc, rfl⟩, hcf⟩)

/-- **The table is proper** exactly if a secondary camera has the facing of one primary camera at most. -/
theorem proper_iff (h : setupLogicalCameras maxSensors exposed swapAux caps = .ok (phys, table)) :
    Proper phys table ↔ Unshared (modeOf exposed swapAux) caps := by
  obtain ⟨rfl, rfl⟩ : enumerate exposed swapAux caps = phys ∧ assignAux phys (assignMain phys) = table := by
    rw [setupLogicalCameras, setupTables] at h
    split_ifs at h
    cases h
    exact ⟨rfl, rfl⟩
  rw [unshared_iff, ← nodup_iff]
  refine ⟨Proper.exclusive, fun hnodup => ⟨?_, ?_, ?_, fun i p hp hmode => mem_flatMap.mp ?_, hnodup⟩⟩
  · rw [assignAux_assignMain]
    rintro l hl
    obtain ⟨x, -, rfl⟩ := mem_map.mp hl
    simp [companion, maxNumCameraPerBundle, Nat.min_le_left]
  · rw [assignAux_assignMain]
    rintro l hl k
    obtain ⟨x, -, rfl⟩ := mem_map.mp hl
    cases k with
    | zero => simp
    | succ k => simp
  · rw [assignAux_assignMain]
    rintro l hl b hb
    obtain ⟨x, hx, rfl⟩ := mem_map.mp hl
    rcases mem_cons.mp hb with rfl | hb
    · have hmem := mem_inMode.mp (mem_of_getElem? (mem_zipIdx_iff_getElem?.mp hx))
      exact ⟨x.1.1, hmem.1, hmem.2, rfl⟩
    · obtain ⟨y, hy, rfl⟩ := mem_map.mp hb
      have hmem := of_mem_companion hy
      exact ⟨y.1, (mem_inMode.mp hmem.1).1, (mem_inMode.mp hmem.1).2, hmem.2⟩
  · rw [flatMap_pIds]
    exact mem_flatMap.mpr ⟨(p, i), mem_inMode.mpr ⟨hp, hmode⟩, mem_cons_self⟩

/-- A main and an auxiliary camera on the back, and a camera on the front. -/
theorem proper_pair : ∃ phys table, setupLogicalCameras 5 false false
    [⟨some .main, 0⟩, ⟨some .aux, 0⟩, ⟨some .main, 1⟩] = .ok (phys, table) ∧ Proper phys table := by
  have hsetup : setupLogicalCameras 5 false false [⟨some .main, 0⟩, ⟨some .aux, 0⟩, ⟨some .main, 1⟩] = .ok (_, _) := rfl
  refine ⟨_, _, hsetup, (proper_iff hsetup).mpr fun i j p q hp hq hmp hmq hf hc => ?_⟩
  rcases i with _ | _ | _ | i <;> cases hp <;> rcases j with _ | _ | _ | j <;> cases hq
  · rfl
  · cases hmq
  · cases hf
  · cases hmp
  · rfl
  · cases hmp
  · cases hf
  · cases hmq
  · rfl

/-- Two main cameras on the back have the same auxiliary one. -/
theorem not_proper_shared : ∃ phys table, setupLogicalCameras 5 false false
    [⟨some .main, 0⟩, ⟨some .main, 0⟩, ⟨some .aux, 0⟩] = .ok (phys, table) ∧ ¬ Proper phys table :=
  ⟨_, _, rfl, fun h => absurd h.exclusive (by decide)⟩

end Table

end LogicalDescriptor

end Marlin
