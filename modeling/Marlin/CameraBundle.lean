import Mathlib.Data.List.TakeWhile
import Marlin.LogicalCameras

/-!
# Opening and Bundling the Cameras of a Logical Camera

`cameraDeviceOpen` opens the physical cameras one after the other, and `start_preview` bundles them in pairs. Where a
call fails, both return without undoing what was done before: the cameras that were opened stay open, and the flag by
which `close_camera_device` knows that it has to unbundle is set only after the last pair.

## Conventions

* The answers of the cameras are taken from the environment. A session is named by its camera.
* Nothing else changes the cameras between a call of `start_preview` and that of `close_camera_device`.

## Main results

* `mem_unbundled`: what is unbundled.
* `undone_iff`: when a failure leaves nothing behind.
-/

namespace Marlin

open List

/-- The physical cameras of a `qcamera_logical_descriptor_t`. -/
structure BundledCameras where
  numCameras : ℕ
  mode : ℕ → CamSyncMode
  nPrimaryPhyCamIndex : ℕ

/-- The answers of `cameraDeviceOpen`'s calls, and whether it gets to the first. -/
structure OpenCalls where
  accepted : Bool := true
  setRelatedCamSyncInfo : ℕ → Bool := fun _ => true
  openCamera : ℕ → Bool := fun _ => true

/-- The answers of `start_preview`'s calls. -/
structure PreviewCalls where
  prepare_preview : ℕ → Bool := fun _ => true
  bundle : ℕ × ℕ → Bool := fun _ => true
  start_preview : ℕ → Bool := fun _ => true

/-- What `start_preview` returns, `bSyncOn` after it, and the calls of `bundleRelatedCameras` that succeeded. -/
structure PreviewResult where
  ok : Bool
  bSyncOn : Bool
  bundled : List (ℕ × ℕ)

namespace BundledCameras

variable (cam : BundledCameras)

/-- The cameras in the order of the loops. -/
def cameras : List ℕ := range cam.numCameras

/-- The camera is opened. -/
def opens (calls : OpenCalls) (i : ℕ) : Bool := calls.setRelatedCamSyncInfo i && calls.openCamera i

/-- `cameraDeviceOpen`: whether it succeeds, and the cameras that are open, with `hwi` and `dev` set, when it
returns. -/
def cameraDeviceOpen (calls : OpenCalls) : Bool × List ℕ :=
  if calls.accepted then (cam.cameras.all (opens calls), cam.cameras.takeWhile (opens calls)) else (false, [])

/-- The cameras with which a camera is bundled. -/
def targets (i : ℕ) : List ℕ :=
  match cam.mode i with
  | .primary => cam.cameras.filter (· ≠ cam.nPrimaryPhyCamIndex)
  | .secondary => [cam.nPrimaryPhyCamIndex]

/-- The pairs in the order of the loops. -/
def pairs : List (ℕ × ℕ) := cam.cameras.flatMap fun i => (cam.targets i).map (i, ·)

/-- `start_preview`. -/
def startPreview (bSyncOn : Bool) (calls : PreviewCalls) : PreviewResult :=
  if !cam.cameras.all calls.prepare_preview then ⟨false, bSyncOn, []⟩
  else if cam.numCameras ≤ 1 then ⟨cam.cameras.all calls.start_preview, bSyncOn, []⟩
  else if cam.pairs.all calls.bundle then ⟨cam.cameras.all calls.start_preview, true, cam.pairs⟩
  else ⟨false, bSyncOn, cam.pairs.takeWhile calls.bundle⟩

/-- The calls of a loop that is left when one fails. -/
def attempted (ok : ℕ → Bool) : List ℕ → List ℕ
  | [] => []
  | j :: l => j :: if ok j then attempted ok l else []

/-- The loop of `close_camera_device` that unbundles. The `break` of a primary camera leaves the loop over its
targets, and that of a secondary one the loop over the cameras. -/
def unbundleLoop (unbundle : ℕ × ℕ → Bool) : List ℕ → List (ℕ × ℕ)
  | [] => []
  | i :: l => (attempted (fun j => unbundle (i, j)) (cam.targets i)).map (i, ·) ++
      if cam.mode i = .secondary ∧ unbundle (i, cam.nPrimaryPhyCamIndex) = false then [] else unbundleLoop unbundle l

/-- The calls of `bundleRelatedCameras` with which `close_camera_device` unbundles. -/
def unbundled (bSyncOn : Bool) (unbundle : ℕ × ℕ → Bool) : List (ℕ × ℕ) :=
  if bSyncOn ∧ 1 < cam.numCameras then cam.unbundleLoop unbundle cam.cameras else []

/-- No failure before a pair ends the loops of `close_camera_device`. -/
def Reached (unbundle : ℕ × ℕ → Bool) (p : ℕ × ℕ) : Prop :=
  (∀ j ∈ (cam.targets p.1).takeWhile (· ≠ p.2), unbundle (p.1, j) = true) ∧
    ∀ i ∈ cam.cameras.takeWhile (· ≠ p.1), cam.mode i = .secondary → unbundle (i, cam.nPrimaryPhyCamIndex) = true

/-- **A failure leaves nothing behind**: no camera is open or referenced after a failed `cameraDeviceOpen`, and what
a failed `start_preview` has bundled is unbundled on the same camera by `close_camera_device`. -/
def Undone (opening : OpenCalls) (bSyncOn : Bool) (calls : PreviewCalls) (unbundle : ℕ × ℕ → Bool) : Prop :=
  ((cam.cameraDeviceOpen opening).1 = false → (cam.cameraDeviceOpen opening).2 = []) ∧
    ((cam.startPreview bSyncOn calls).ok = false → ∀ p ∈ (cam.startPreview bSyncOn calls).bundled,
      p ∈ cam.unbundled (cam.startPreview bSyncOn calls).bSyncOn unbundle)

/-- **The condition**: no camera but the first fails to open, and a pair that is bundled before something fails is
reached by the loops that unbundle, where all are bundled or the flag was set before. -/
def Reverts (opening : OpenCalls) (bSyncOn : Bool) (calls : PreviewCalls) (unbundle : ℕ × ℕ → Bool) : Prop :=
  (opening.accepted = true → (∃ i < cam.numCameras, opens opening i = false) → opens opening 0 = false) ∧
    (cam.cameras.all calls.prepare_preview = true → 1 < cam.numCameras →
      (cam.pairs.all calls.bundle && cam.cameras.all calls.start_preview) = false →
      ∀ p ∈ cam.pairs.takeWhile calls.bundle,
        (cam.pairs.all calls.bundle = true ∨ bSyncOn = true) ∧ cam.Reached unbundle p)

variable {cam} {ok : ℕ → Bool} {unbundle : ℕ × ℕ → Bool} {p : ℕ × ℕ}

theorem mem_attempted {j : ℕ} {l : List ℕ} : j ∈ attempted ok l ↔ j ∈ l ∧ ∀ k ∈ l.takeWhile (· ≠ j), ok k = true := by
  induction l with
  | nil => simp [attempted]
  | cons k l ih =>
    rw [attempted, mem_cons, mem_cons, takeWhile_cons]
    by_cases heq : j = k
    · simp [heq]
    · cases hok : ok k <;> simp [heq, Ne.symm heq, hok, ih]

theorem mem_unbundleLoop {l : List ℕ} : p ∈ cam.unbundleLoop unbundle l ↔ p.1 ∈ l ∧ p.2 ∈ cam.targets p.1 ∧
    (∀ j ∈ (cam.targets p.1).takeWhile (· ≠ p.2), unbundle (p.1, j) = true) ∧
    ∀ i ∈ l.takeWhile (· ≠ p.1), cam.mode i = .secondary → unbundle (i, cam.nPrimaryPhyCamIndex) = true := by
  obtain ⟨a, b⟩ := p
  induction l with
  | nil => simp [unbundleLoop]
  | cons i l ih =>
    rw [unbundleLoop, mem_append, mem_map, mem_cons, takeWhile_cons]
    by_cases heq : a = i
    · subst heq
      constructor
      · rintro (⟨j, hj, hp⟩ | hp)
        · cases hp
          have hmem := mem_attempted.mp hj
          exact ⟨.inl rfl, hmem.1, hmem.2, by simp⟩
        · have hmem := ih.mp (by split_ifs at hp <;> simp_all)
          exact ⟨.inl rfl, hmem.2.1, hmem.2.2.1, by simp⟩
      · rintro ⟨-, hb, hok, -⟩
        exact .inl ⟨b, mem_attempted.mpr ⟨hb, hok⟩, rfl⟩
    · have hne : ¬ ∃ j ∈ attempted (fun j => unbundle (i, j)) (cam.targets i), (i, j) = (a, b) := by
        rintro ⟨j, -, hp⟩
        exact heq (congrArg Prod.fst hp).symm
      rw [or_iff_right hne, or_iff_right heq, if_pos (decide_eq_true (Ne.symm heq)), forall_mem_cons]
      by_cases hend : cam.mode i = .secondary ∧ unbundle (i, cam.nPrimaryPhyCamIndex) = false
      · rw [if_pos hend]
        exact iff_of_false not_mem_nil fun h => by simp [hend.1, hend.2] at h
      · rw [if_neg hend, ih, and_iff_right (a := cam.mode i = .secondary → _) fun hmode =>
          eq_true_of_ne_false fun hfail => hend ⟨hmode, hfail⟩]

/-- **What is unbundled** are the pairs that are reached. -/
theorem mem_unbundled {bSyncOn : Bool} : p ∈ cam.unbundled bSyncOn unbundle ↔
    (bSyncOn = true ∧ 1 < cam.numCameras) ∧ p ∈ cam.pairs ∧ cam.Reached unbundle p := by
  have hpairs : p ∈ cam.pairs ↔ p.1 ∈ cam.cameras ∧ p.2 ∈ cam.targets p.1 := by
    rw [pairs, mem_flatMap]
    constructor
    · rintro ⟨i, hi, hp⟩
      obtain ⟨j, hj, rfl⟩ := mem_map.mp hp
      exact ⟨hi, hj⟩
    · exact fun h => ⟨p.1, h.1, mem_map.mpr ⟨p.2, h.2, rfl⟩⟩
  rw [unbundled]
  split_ifs with hon
  · rw [mem_unbundleLoop, hpairs, and_iff_right hon, and_assoc, Reached]
  · exact iff_of_false not_mem_nil fun h => hon h.1

theorem opened_iff (opening : OpenCalls) : ((cam.cameraDeviceOpen opening).1 = false →
      (cam.cameraDeviceOpen opening).2 = []) ↔
    (opening.accepted = true → (∃ i < cam.numCameras, opens opening i = false) → opens opening 0 = false) := by
  rw [cameraDeviceOpen, cameras]
  cases opening.accepted with
  | false => simp
  | true =>
    cases cam.numCameras with
    | zero => simp
    | succ n =>
      rw [Nat.exists_lt_succ_left]
      cases h : opens opening 0 <;> simp [range_succ_eq_map, h]

/-- **When a failure leaves nothing behind**, for every logical camera. -/
theorem undone_iff (cam : BundledCameras) (opening : OpenCalls) (bSyncOn : Bool) (calls : PreviewCalls)
    (unbundle : ℕ × ℕ → Bool) :
    cam.Undone opening bSyncOn calls unbundle ↔ cam.Reverts opening bSyncOn calls unbundle := by
  refine and_congr (opened_iff opening) ?_
  rw [startPreview]
  cases hprepare : cam.cameras.all calls.prepare_preview with
  | false => simp
  | true =>
    by_cases hone : cam.numCameras ≤ 1
    · simp [hone, Nat.not_lt.mpr hone]
    · have hmany := Nat.lt_of_not_le hone
      have hmem : ∀ p ∈ cam.pairs.takeWhile calls.bundle, ∀ on : Bool,
          p ∈ cam.unbundled on unbundle ↔ on = true ∧ cam.Reached unbundle p := fun p hp on => by
        rw [mem_unbundled, and_iff_left hmany, and_iff_right ((takeWhile_subset _) hp)]
      cases hbundle : cam.pairs.all calls.bundle with
      | false =>
        rw [if_neg nofun, if_neg hone, if_neg nofun]
        simpa [hmany] using forall₂_congr fun p hp => hmem p hp bSyncOn
      | true =>
        rw [takeWhile_eq_self_iff.mpr (all_eq_true.mp hbundle)] at hmem ⊢
        rw [if_neg nofun, if_neg hone, if_pos rfl]
        simp only [hmany, true_imp_iff, Bool.true_and, true_or, true_and]
        exact imp_congr_right fun _ => forall₂_congr fun p hp => (hmem p hp true).trans (and_iff_right rfl)

/-- A primary and a secondary camera. -/
def twoCameras : BundledCameras where
  numCameras := 2
  mode i := if i = 0 then .primary else .secondary
  nPrimaryPhyCamIndex := 0

/-- The second camera does not open, or the second pair is not bundled. -/
theorem not_undone_second : (twoCameras.cameraDeviceOpen { openCamera := (· = 0) } = (false, [0])) ∧
    ¬ twoCameras.Undone { openCamera := (· = 0) } false {} (fun _ => true) ∧
    ¬ twoCameras.Undone {} false { bundle := (· = (0, 1)) } (fun _ => true) :=
  ⟨by decide, fun h => absurd (h.1 (by decide)) (by decide),
    fun h => absurd (h.2 (by decide) (0, 1) (by decide)) (by decide)⟩

end BundledCameras

end Marlin
