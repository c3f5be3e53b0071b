import Mathlib.Data.List.Perm.Basic
import Marlin.PollThread

/-!
# The Camera Objects of the Interface

`camera_open` and `mm_camera_intf_close` share one object for all clients of a camera index,
which `g_cam_ctrl.cam_obj` publishes and `ref_count` counts the clients of. `camera_open`
releases `g_intf_lock` while it opens the device, and publishes the new object, or empties the
entry, when it has the lock again; the last close empties the entry and closes the device
after it released the lock.

A step is a section on `g_intf_lock`, or what a call does after its last one. Objects are
numbered in the order they are allocated.

A second open that comes while the device is being opened, or still being closed, finds the
entry empty and makes another object.

## Main results

* `Sound.step`: a step that does not make a second object keeps the account of the objects.
* `camera_references`: in the runs of such steps a handle leads to the one object of its
  camera, which counts the handles and is freed once after the last of them was closed.
* `camera_opened_twice`: two opens at a time.
-/

namespace Marlin

open List Function Option Bool Transition
open PollThread (mmCameraUtilGetIndexByHandler)

/-- The fields of `mm_camera_obj_t` that opening and closing work on, and how often the
object was freed. -/
structure MmCameraObj where
  myHdl : ℕ := 0
  refCount : ℤ := 0
  frees : ℕ := 0
  deriving DecidableEq

/-- `g_cam_ctrl` with the objects allocated so far and the calls under way: `opening` are those
that open a device, with the index and the object; `joining` those that took a reference and
are still to read the object's `vtbl`; `closing` the objects that are being closed. `handles`
are the handles that clients have. `fault` is set when an empty entry is read. -/
structure Intf where
  maxNumSensors : ℕ
  numCam : ℕ
  camObj : ℕ → Option ℕ := fun _ => none
  handlerHistoryCount : ℕ := 0
  objNum : ℕ := 0
  objs : ℕ → MmCameraObj := fun _ => {}
  opening : List (ℕ × ℕ) := []
  joining : List ℕ := []
  closing : List ℕ := []
  handles : List ℕ := []
  fault : Bool := false

namespace Intf

/-- The steps of the clients: the first section of `camera_open`, whether memory is available;
the end of one that opened a device, and of one that found it open; `mm_camera_intf_close`
with the `k`-th handle, and its end; and a handle made for a channel or a stream. -/
inductive Action
  | open (idx : ℕ) (mem : Bool)
  | opened (k : ℕ) (ok : Bool)
  | joined (k : ℕ)
  | close (k : ℕ)
  | closed (k : ℕ)
  | handler
  deriving DecidableEq

/-- The next `g_handler_history_count`, a `uint16_t` that skips zero. -/
def nextHistoryCount (s : Intf) : ℕ :=
  let count := (s.handlerHistoryCount + 1) % 65536
  if count = 0 then 1 else count

/-- `mm_camera_util_generate_handler`. -/
def generateHandler (s : Intf) (idx : ℕ) : ℕ := s.nextHistoryCount * 256 + idx

/-- `mm_camera_util_get_camera_by_handler`. -/
def getCameraByHandler (s : Intf) (handle : ℕ) : Option ℕ :=
  let idx := mmCameraUtilGetIndexByHandler handle
  if idx < s.maxNumSensors then
    (s.camObj idx).filter fun id => (s.objs id).myHdl == handle
  else none

/-- An object is changed. -/
def setObj (s : Intf) (id : ℕ) (obj : MmCameraObj) : Intf :=
  { s with objs := Function.update s.objs id obj }

/-- An entry of `g_cam_ctrl.cam_obj` is changed. -/
def setEntry (s : Intf) (idx : ℕ) (obj : Option ℕ) : Intf :=
  { s with camObj := Function.update s.camObj idx obj }

/-- An object is freed. -/
def free (s : Intf) (id : ℕ) : Intf :=
  s.setObj id { s.objs id with frees := (s.objs id).frees + 1 }

/-- `camera_open` makes a new object. -/
def newObj (s : Intf) (idx : ℕ) : Intf :=
  { s.setObj s.objNum { myHdl := s.generateHandler idx, refCount := 1 } with
    handlerHistoryCount := s.nextHistoryCount
    objNum := s.objNum + 1
    opening := s.opening ++ [(idx, s.objNum)] }

/-- A reference to an object is dropped; without references it is unpublished and closed. -/
def dropRef (s : Intf) (handle id : ℕ) : Intf :=
  let obj := { s.objs id with refCount := (s.objs id).refCount - 1 }
  let s := s.setObj id obj
  if 0 < obj.refCount then s
  else { s.setEntry (mmCameraUtilGetIndexByHandler handle) none with
    closing := s.closing ++ [id] }

/-- A step of the clients. -/
def step (s : Intf) : Action → Option Intf
  | .open idx mem =>
    if idx < s.numCam then
      match s.camObj idx with
      | some id =>
        some { s.setObj id { s.objs id with refCount := (s.objs id).refCount + 1 } with
          joining := s.joining ++ [idx] }
      | none => some (if mem then s.newObj idx else s)
    else some s
  | .opened k ok =>
    match s.opening[k]? with
    | some (idx, id) =>
      let s := { s with opening := s.opening.eraseIdx k }
      if ok then
        some { s.setEntry idx (some id) with handles := s.handles ++ [(s.objs id).myHdl] }
      else some ((s.setEntry idx none).free id)
    | none => none
  | .joined k =>
    match s.joining[k]? with
    | some idx =>
      let s := { s with joining := s.joining.eraseIdx k }
      match s.camObj idx with
      | some id => some { s with handles := s.handles ++ [(s.objs id).myHdl] }
      | none => some { s with fault := true }
    | none => none
  | .close k =>
    match s.handles[k]? with
    | some handle =>
      let s := { s with handles := s.handles.eraseIdx k }
      match s.getCameraByHandler handle with
      | some id => some (s.dropRef handle id)
      | none => some s
    | none => none
  | .closed k =>
    match s.closing[k]? with
    | some id => some ({ s with closing := s.closing.eraseIdx k }.free id)
    | none => none
  | .handler => some { s with handlerHistoryCount := s.nextHistoryCount }

/-- The camera index of an object. -/
def idxOf (s : Intf) (id : ℕ) : ℕ := mmCameraUtilGetIndexByHandler (s.objs id).myHdl

/-- An open makes an object only while no other one of its index is being opened or closed. -/
def opensAlone (s : Intf) : Action → Bool
  | .open idx mem =>
    !(mem && s.camObj idx == none &&
      (s.opening.any (fun p => p.1 == idx) || s.closing.any (fun id => s.idxOf id == idx)))
  | _ => true

/-- The interface before the first open. The handles and `num_cam` leave eight bits for the
index. -/
structure Initial (s : Intf) : Prop where
  numCam : s.numCam ≤ s.maxNumSensors ∧ s.numCam ≤ 256
  camObj : ∀ i, s.camObj i = none
  objNum : s.objNum = 0
  calls : s.opening = [] ∧ s.joining = [] ∧ s.closing = []
  handles : s.handles = []
  fault : s.fault = false

/-! ### The account of the objects -/

/-- How often an object is accounted for: freed, being opened, being closed, or published. -/
def places (s : Intf) (id : ℕ) : ℕ :=
  (s.objs id).frees + (s.opening.map Prod.snd).count id + s.closing.count id + (s.camObj (s.idxOf id) == some id).toNat

/-- The account of the objects. Each is in one place, an index has one that is not freed, and
the published ones have a reference for each handle and each open that joined. -/
structure Sound (s : Intf) : Prop where
  numCam : s.numCam ≤ s.maxNumSensors ∧ s.numCam ≤ 256
  entry : ∀ i id, s.camObj i = some id → id < s.objNum ∧ s.idxOf id = i ∧ i < s.numCam
  opens : ∀ p ∈ s.opening, p.2 < s.objNum ∧ s.idxOf p.2 = p.1 ∧ p.1 < s.numCam ∧ (s.objs p.2).refCount = 1
  closes : ∀ id ∈ s.closing, id < s.objNum
  places : ∀ id < s.objNum, s.places id = 1
  one : ∀ id < s.objNum, ∀ id' < s.objNum, (s.objs id).frees = 0 → (s.objs id').frees = 0 →
    s.idxOf id = s.idxOf id' → id = id'
  handle : ∀ h ∈ s.handles, ∃ id, s.camObj (mmCameraUtilGetIndexByHandler h) = some id ∧ (s.objs id).myHdl = h
  join : ∀ i ∈ s.joining, ∃ id, s.camObj i = some id
  refs : ∀ i id, s.camObj i = some id → 0 < (s.objs id).refCount ∧
    (s.objs id).refCount = s.handles.count (s.objs id).myHdl + s.joining.count i
  fault : s.fault = false

variable {s : Intf}

theorem Initial.sound (h : s.Initial) : s.Sound := by
  obtain ⟨hnum, hobj, hcount, ⟨ho, hj, hc⟩, hh, hf⟩ := h
  constructor
  · exact hnum
  · simp [hobj]
  · simp [ho]
  · simp [hc]
  · simp [hcount]
  · simp [hcount]
  · simp [hh]
  · simp [hj]
  · simp [hobj]
  · exact hf

variable {k : ℕ}

theorem count_eraseIdx {α : Type*} [DecidableEq α] {l : List α} {a : α} (hk : l[k]? = some a) (b : α) :
    l.count b = (l.eraseIdx k).count b + if a = b then 1 else 0 := by
  obtain ⟨hlt, rfl⟩ := List.getElem?_eq_some_iff.mp hk
  rw [← (getElem_cons_eraseIdx_perm hlt).count_eq, count_cons]
  simp

theorem Sound.of_opening (h : s.Sound) {p : ℕ × ℕ} (hp : p ∈ s.opening) :
    (s.objs p.2).frees = 0 ∧ (s.opening.map Prod.snd).count p.2 = 1 ∧
      s.closing.count p.2 = 0 ∧ s.camObj p.1 ≠ some p.2 := by
  obtain ⟨hlt, hidx, -, -⟩ := h.opens p hp
  have hplace := h.places p.2 hlt
  have hpos : 0 < (s.opening.map Prod.snd).count p.2 :=
    count_pos_iff.mpr (mem_map_of_mem hp)
  simp only [Intf.places, hidx] at hplace
  refine ⟨by omega, by omega, by omega, fun hcam => ?_⟩
  simp only [hcam, beq_self_eq_true, toNat_true] at hplace
  omega

variable {id : ℕ}

theorem Sound.of_entry (h : s.Sound) {i : ℕ} (hcam : s.camObj i = some id) :
    (s.objs id).frees = 0 ∧ (s.opening.map Prod.snd).count id = 0 ∧ s.closing.count id = 0 := by
  obtain ⟨hlt, hidx, -⟩ := h.entry i id hcam
  have hplace := h.places id hlt
  simp only [Intf.places, hidx, hcam, beq_self_eq_true, toNat_true] at hplace
  omega

theorem Sound.entry_of_opening (h : s.Sound) {p : ℕ × ℕ} (hp : p ∈ s.opening) : s.camObj p.1 = none := by
  obtain ⟨hlt, hidx, -, -⟩ := h.opens p hp
  obtain ⟨hfree, -, -, hne⟩ := h.of_opening hp
  by_contra hsome
  obtain ⟨id, hid⟩ := ne_none_iff_exists'.mp hsome
  obtain ⟨hlt', hidx', -⟩ := h.entry _ _ hid
  have hsame := h.one id hlt' p.2 hlt (h.of_entry hid).1 hfree (hidx'.trans hidx.symm)
  exact hne (hsame ▸ hid)

variable {hdl : ℕ}

theorem Sound.getCameraByHandler (h : s.Sound) (hh : hdl ∈ s.handles) : ∃ id, s.getCameraByHandler hdl = some id ∧
      s.camObj (mmCameraUtilGetIndexByHandler hdl) = some id ∧ (s.objs id).myHdl = hdl := by
  obtain ⟨id, hcam, hmy⟩ := h.handle hdl hh
  obtain ⟨-, -, hlt⟩ := h.entry _ _ hcam
  have hmax : mmCameraUtilGetIndexByHandler hdl < s.maxNumSensors := by
    have := h.numCam.1
    omega
  refine ⟨id, ?_, hcam, hmy⟩
  simp [Intf.getCameraByHandler, hmax, hcam, hmy]

/-! ### The steps -/

/-- Objects that differ in the `ref_count` of one of them. -/
def RefChanged (s : Intf) (objs : ℕ → MmCameraObj) (id : ℕ) (r : ℤ) : Prop :=
  ∀ j, (objs j).myHdl = (s.objs j).myHdl ∧ (objs j).frees = (s.objs j).frees ∧
    (objs j).refCount = if j = id then r else (s.objs j).refCount

theorem setObj_refChanged (s : Intf) (id : ℕ) (r : ℤ) :
    s.RefChanged (s.setObj id { s.objs id with refCount := r }).objs id r := by
  intro j
  by_cases hj : j = id
  · subst hj
    simp [setObj]
  · simp [setObj, hj]

variable {idx : ℕ}

theorem Sound.opening_ne (h : s.Sound) (hcam : s.camObj idx = some id) : ∀ p ∈ s.opening, p.2 ≠ id := by
  rintro p hp rfl
  obtain ⟨-, -, -, hno⟩ := h.of_opening hp
  exact hno (((h.entry idx _ hcam).2.1.symm.trans (h.opens p hp).2.1) ▸ hcam)

section RefChanged

variable {s : Intf} {objs : ℕ → MmCameraObj} {id : ℕ} {r : ℤ} (hobj : s.RefChanged objs id r)

include hobj

/-- A change of `ref_count` leaves the indices. -/
theorem RefChanged.index (j : ℕ) : mmCameraUtilGetIndexByHandler (objs j).myHdl = s.idxOf j :=
  congrArg _ (hobj j).1

/-- It leaves the entries, -/
theorem RefChanged.entry (h : s.Sound) {i j : ℕ} (hj : s.camObj i = some j) :
    j < s.objNum ∧ mmCameraUtilGetIndexByHandler (objs j).myHdl = i ∧ i < s.numCam := by
  obtain ⟨hlt, hij, hi⟩ := h.entry i j hj
  exact ⟨hlt, (hobj.index j).trans hij, hi⟩

/-- the objects that are being opened, where it is of another one, -/
theorem RefChanged.opens (h : s.Sound) (hne : ∀ p ∈ s.opening, p.2 ≠ id) {p : ℕ × ℕ}
    (hp : p ∈ s.opening) : p.2 < s.objNum ∧ mmCameraUtilGetIndexByHandler (objs p.2).myHdl = p.1 ∧
      p.1 < s.numCam ∧ (objs p.2).refCount = 1 := by
  obtain ⟨hlt, hip, hi, href⟩ := h.opens p hp
  exact ⟨hlt, (hobj.index p.2).trans hip, hi, (hobj p.2).2.2.trans ((if_neg (hne p hp)).trans href)⟩

/-- and the object of each index that is not freed. -/
theorem RefChanged.one (h : s.Sound) : ∀ i < s.objNum, ∀ j < s.objNum, (objs i).frees = 0 →
    (objs j).frees = 0 → mmCameraUtilGetIndexByHandler (objs i).myHdl =
      mmCameraUtilGetIndexByHandler (objs j).myHdl → i = j := by
  intro i hi j hj hfi hfj hij
  exact h.one i hi j hj ((hobj i).2.1.symm.trans hfi) ((hobj j).2.1.symm.trans hfj)
    ((hobj.index i).symm.trans (hij.trans (hobj.index j)))

end RefChanged

variable {objs : ℕ → MmCameraObj}

theorem Sound.joins (h : s.Sound) (hcam : s.camObj idx = some id)
    (hobj : s.RefChanged objs id ((s.objs id).refCount + 1)) :
    Sound { s with objs := objs, joining := s.joining ++ [idx] } := by
  constructor
  · exact h.numCam
  · exact fun i j hj => hobj.entry h hj
  · exact fun p hp => hobj.opens h (h.opening_ne hcam) hp
  · exact h.closes
  · intro j hj
    have hplace := h.places j hj
    simp only [Intf.places, idxOf] at hplace ⊢
    rwa [(hobj j).2.1, (hobj j).1]
  · exact hobj.one h
  · intro hdl hh
    obtain ⟨j, hj, hmy⟩ := h.handle hdl hh
    exact ⟨j, hj, (hobj j).1.trans hmy⟩
  · intro i hi
    rcases mem_append.mp hi with hi | hi
    · exact h.join i hi
    · rw [mem_singleton.mp hi]
      exact ⟨id, hcam⟩
  · intro i j hj
    obtain ⟨hpos, href⟩ := h.refs i j hj
    simp only [(hobj j).1, (hobj j).2.2, count_append, count_singleton]
    by_cases hji : j = id
    · subst hji
      obtain rfl : i = idx := (h.entry i j hj).2.1.symm.trans (h.entry idx j hcam).2.1
      simp only [if_true, beq_self_eq_true]
      omega
    · have hne : idx ≠ i := by
        rintro rfl
        exact hji (some.inj (hj.symm.trans hcam))
      rw [if_neg hji, if_neg (by simpa using hne)]
      exact ⟨hpos, href⟩
  · exact h.fault

/-- An open that finds the camera closed, and no other one at it, makes an object. -/
theorem Sound.makes (h : s.Sound) (hidx : idx < s.numCam)
    (hcam : s.camObj idx = none) (hopen : ∀ p ∈ s.opening, p.1 ≠ idx)
    (hclose : ∀ id ∈ s.closing, s.idxOf id ≠ idx) : (s.newObj idx).Sound := by
  have hhdl : mmCameraUtilGetIndexByHandler (s.generateHandler idx) = idx := by
    have := h.numCam.2
    simp only [mmCameraUtilGetIndexByHandler, generateHandler]
    omega
  have hold : ∀ j < s.objNum, (s.newObj idx).objs j = s.objs j := fun j hj =>
    update_of_ne (by omega) _ _
  have hnew : (s.newObj idx).objs s.objNum = { myHdl := s.generateHandler idx, refCount := 1 } :=
    update_self _ _ _
  have hidxOld : ∀ j < s.objNum, (s.newObj idx).idxOf j = s.idxOf j := fun j hj => by
    simp only [idxOf, hold j hj]
  have hidxNew : (s.newObj idx).idxOf s.objNum = idx := by
    simp only [idxOf, hnew, hhdl]
  have hother : ∀ j < s.objNum, (s.objs j).frees = 0 → s.idxOf j ≠ idx := by
    intro j hj hfree hj'
    have hplace := h.places j hj
    simp only [Intf.places, hfree, hj', hcam] at hplace
    have hno : (s.opening.map Prod.snd).count j = 0 := by
      refine count_eq_zero.mpr fun hmem => ?_
      obtain ⟨p, hp, rfl⟩ := mem_map.mp hmem
      exact hopen p hp ((h.opens p hp).2.1.symm.trans hj')
    have hnc : s.closing.count j = 0 := count_eq_zero.mpr fun hmem => hclose j hmem hj'
    simp [hno, hnc] at hplace
  constructor
  · exact h.numCam
  · intro i j hj
    obtain ⟨hlt, hij, hi⟩ := h.entry i j hj
    exact ⟨Nat.lt_succ_of_lt hlt, (hidxOld j hlt).trans hij, hi⟩
  · intro p hp
    rcases mem_append.mp hp with hp | hp
    · obtain ⟨hlt, hip, hi, href⟩ := h.opens p hp
      exact ⟨Nat.lt_succ_of_lt hlt, (hidxOld _ hlt).trans hip, hi, by rw [hold _ hlt, href]⟩
    · rw [mem_singleton.mp hp]
      exact ⟨Nat.lt_succ_self _, hidxNew, hidx, by rw [hnew]⟩
  · exact fun j hj => Nat.lt_succ_of_lt (h.closes j hj)
  · intro j hj
    have hopens : ((s.newObj idx).opening.map Prod.snd).count j =
        (s.opening.map Prod.snd).count j + if s.objNum = j then 1 else 0 := by
      simp [newObj, count_append, count_singleton]
    rcases Nat.lt_succ_iff_lt_or_eq.mp hj with hlt | rfl
    · have hplace := h.places j hlt
      simp only [Intf.places, hopens, hold j hlt, hidxOld j hlt] at hplace ⊢
      rw [if_neg (by omega)]
      exact hplace
    · have hno : (s.opening.map Prod.snd).count s.objNum = 0 := by
        refine count_eq_zero.mpr fun hmem => ?_
        obtain ⟨p, hp, heq⟩ := mem_map.mp hmem
        have := (h.opens p hp).1
        omega
      have hnc : s.closing.count s.objNum = 0 := count_eq_zero.mpr fun hmem => by
        have := h.closes _ hmem
        omega
      have hentry : (s.newObj idx).camObj idx = none := hcam
      have hclosing : (s.newObj idx).closing = s.closing := rfl
      simp [Intf.places, hopens, hnew, hidxNew, hno, hnc, hentry, hclosing]
  · intro i hi j hj hfi hfj hij
    rcases Nat.lt_succ_iff_lt_or_eq.mp hi with hlt | rfl <;>
      rcases Nat.lt_succ_iff_lt_or_eq.mp hj with hlt' | rfl
    · rw [hold _ hlt] at hfi
      rw [hold _ hlt'] at hfj
      exact h.one i hlt j hlt' hfi hfj ((hidxOld i hlt).symm.trans (hij.trans (hidxOld j hlt')))
    · rw [hold _ hlt] at hfi
      exact absurd ((hidxOld i hlt).symm.trans (hij.trans hidxNew)) (hother i hlt hfi)
    · rw [hold _ hlt'] at hfj
      exact absurd ((hidxOld j hlt').symm.trans (hij.symm.trans hidxNew)) (hother j hlt' hfj)
    · rfl
  · intro hdl hh
    obtain ⟨j, hj, hmy⟩ := h.handle hdl hh
    exact ⟨j, hj, by rw [hold j (h.entry _ j hj).1, hmy]⟩
  · exact h.join
  · intro i j hj
    obtain ⟨hpos, href⟩ := h.refs i j hj
    rw [hold j (h.entry _ j hj).1]
    exact ⟨hpos, href⟩
  · exact h.fault

/-- The device was opened: the object is published, and the client has its handle. -/
theorem Sound.publishes (h : s.Sound) (hk : s.opening[k]? = some (idx, id)) : Sound { s with
      opening := s.opening.eraseIdx k
      camObj := update s.camObj idx (some id)
      handles := s.handles ++ [(s.objs id).myHdl] } := by
  have hmem : (idx, id) ∈ s.opening := mem_of_getElem? hk
  obtain ⟨hlt, hidx, hnum, hone⟩ := h.opens _ hmem
  obtain ⟨hfree, hcount, hnc, -⟩ := h.of_opening hmem
  have hnone := h.entry_of_opening hmem
  have hnoHandle : s.handles.count (s.objs id).myHdl = 0 := by
    refine count_eq_zero.mpr fun hh => ?_
    obtain ⟨j, hj, -⟩ := h.handle _ hh
    change s.camObj (s.idxOf id) = some j at hj
    rw [hidx, hnone] at hj
    cases hj
  have hnoJoin : s.joining.count idx = 0 := by
    refine count_eq_zero.mpr fun hi => ?_
    obtain ⟨j, hj⟩ := h.join _ hi
    rw [hnone] at hj
    cases hj
  have hsome : ∀ {i j}, s.camObj i = some j → update s.camObj idx (some id) i = some j := by
    intro i j hj
    rw [update_of_ne, hj]
    rintro rfl
    rw [hnone] at hj
    cases hj
  have herase : ∀ j, (s.opening.map Prod.snd).count j =
      ((s.opening.eraseIdx k).map Prod.snd).count j + if id = j then 1 else 0 := by
    intro j
    rw [← eraseIdx_map]
    exact count_eraseIdx (by simp [hk]) j
  constructor
  · exact h.numCam
  · intro i j hj
    by_cases hi : i = idx
    · subst hi
      simp only [update_self] at hj
      cases hj
      exact ⟨hlt, hidx, hnum⟩
    · simp only [update_of_ne hi] at hj
      exact h.entry i j hj
  · exact fun p hp => h.opens p (mem_of_mem_eraseIdx hp)
  · exact h.closes
  · intro j hj
    have hplace := h.places j hj
    have hcnt := herase j
    simp only [Intf.places, idxOf] at hplace ⊢
    by_cases hji : id = j
    · subst hji
      change mmCameraUtilGetIndexByHandler (s.objs id).myHdl = idx at hidx
      simp only [hidx, update_self, beq_self_eq_true, toNat_true, if_true] at hcnt ⊢
      omega
    · rw [if_neg hji] at hcnt
      by_cases hi : mmCameraUtilGetIndexByHandler (s.objs j).myHdl = idx
      · have hself : (some id == some j) = false := by simpa using hji
        have hnone' : ((none : Option ℕ) == some j) = false := rfl
        simp only [hi, hnone, hnone', toNat_false] at hplace
        simp only [hi, update_self, hself, toNat_false]
        omega
      · simp only [update_of_ne hi]
        omega
  · exact h.one
  · intro hdl hh
    rcases mem_append.mp hh with hh | hh
    · obtain ⟨j, hj, hmy⟩ := h.handle hdl hh
      exact ⟨j, hsome hj, hmy⟩
    · rw [mem_singleton.mp hh]
      change mmCameraUtilGetIndexByHandler (s.objs id).myHdl = idx at hidx
      exact ⟨id, by simp only [hidx, update_self], rfl⟩
  · intro i hi
    obtain ⟨j, hj⟩ := h.join i hi
    exact ⟨j, hsome hj⟩
  · intro i j hj
    by_cases hi : i = idx
    · subst hi
      simp only [update_self] at hj
      cases hj
      simp only [hone, count_append, hnoHandle, hnoJoin, count_singleton_self]
      omega
    · simp only [update_of_ne hi] at hj
      obtain ⟨hpos, href⟩ := h.refs i j hj
      have hne : (s.objs id).myHdl ≠ (s.objs j).myHdl := by
        intro heq
        exact hi ((h.entry i j hj).2.1.symm.trans ((congrArg mmCameraUtilGetIndexByHandler heq).symm.trans hidx))
      simp only [count_append, count_singleton, beq_iff_eq, hne, if_false, Nat.add_zero]
      exact ⟨hpos, href⟩
  · exact h.fault

/-- Objects that differ in that one of them was freed once more. -/
def FreedOnce (s : Intf) (objs : ℕ → MmCameraObj) (id : ℕ) : Prop :=
  ∀ j, (objs j).myHdl = (s.objs j).myHdl ∧ (objs j).refCount = (s.objs j).refCount ∧
    (objs j).frees = (s.objs j).frees + if id = j then 1 else 0

theorem free_freedOnce (s : Intf) (id : ℕ) : s.FreedOnce (s.free id).objs id := by
  intro j
  by_cases hj : j = id
  · subst hj
    simp [free, setObj]
  · simp [free, setObj, update_of_ne hj, Ne.symm hj]

theorem Sound.frees (h : s.Sound) (hobj : s.FreedOnce objs id) {opening : List (ℕ × ℕ)} {closing : List ℕ}
    (ho : ∀ p ∈ opening, p ∈ s.opening) (hc : ∀ j ∈ closing, j ∈ s.closing)
    (hcount : ∀ j, (s.opening.map Prod.snd).count j + s.closing.count j =
      (opening.map Prod.snd).count j + closing.count j + if id = j then 1 else 0) :
    Sound { s with objs := objs, opening := opening, closing := closing } := by
  have hidx : ∀ j, mmCameraUtilGetIndexByHandler (objs j).myHdl = s.idxOf j := fun j =>
    congrArg _ (hobj j).1
  constructor
  · exact h.numCam
  · intro i j hj
    obtain ⟨hlt, hij, hi⟩ := h.entry i j hj
    exact ⟨hlt, (hidx j).trans hij, hi⟩
  · intro p hp
    obtain ⟨hlt, hip, hi, href⟩ := h.opens p (ho p hp)
    exact ⟨hlt, (hidx p.2).trans hip, hi, (hobj p.2).2.1.trans href⟩
  · exact fun j hj => h.closes j (hc j hj)
  · intro j hj
    have hplace := h.places j hj
    have hcnt := hcount j
    simp only [Intf.places, idxOf] at hplace ⊢
    rw [(hobj j).2.2, (hobj j).1]
    omega
  · intro i hi j hj hfi hfj hij
    simp only [(hobj _).2.2] at hfi hfj
    exact h.one i hi j hj (by omega) (by omega) ((hidx i).symm.trans (hij.trans (hidx j)))
  · intro hdl hh
    obtain ⟨j, hj, hmy⟩ := h.handle hdl hh
    exact ⟨j, hj, (hobj j).1.trans hmy⟩
  · exact h.join
  · intro i j hj
    simp only [(hobj j).1, (hobj j).2.1]
    exact h.refs i j hj
  · exact h.fault

theorem Sound.gets (h : s.Sound) (hk : s.joining[k]? = some idx) (hcam : s.camObj idx = some id) : Sound { s with
      joining := s.joining.eraseIdx k
      handles := s.handles ++ [(s.objs id).myHdl] } := by
  have hidx := (h.entry idx id hcam).2.1
  refine { h with handle := ?_, join := ?_, refs := ?_ }
  · intro hdl hh
    rcases mem_append.mp hh with hh | hh
    · exact h.handle hdl hh
    · rw [mem_singleton.mp hh]
      exact ⟨id, (congrArg s.camObj hidx).trans hcam, rfl⟩
  · exact fun i hi => h.join i (mem_of_mem_eraseIdx hi)
  · intro i j hj
    obtain ⟨hpos, href⟩ := h.refs i j hj
    have hcnt := count_eraseIdx hk i
    refine ⟨hpos, ?_⟩
    simp only [count_append, count_singleton, beq_iff_eq]
    by_cases hi : idx = i
    · subst hi
      obtain rfl := some.inj (hcam.symm.trans hj)
      rw [if_pos rfl] at hcnt ⊢
      omega
    · have hne : (s.objs id).myHdl ≠ (s.objs j).myHdl := fun heq =>
        hi (hidx.symm.trans ((congrArg mmCameraUtilGetIndexByHandler heq).trans (h.entry i j hj).2.1))
      rw [if_neg hi] at hcnt
      rw [if_neg hne]
      omega

theorem Sound.drops (h : s.Sound) (hk : s.handles[k]? = some hdl)
    (hcam : s.camObj (mmCameraUtilGetIndexByHandler hdl) = some id)
    (hmy : (s.objs id).myHdl = hdl)
    (hobj : s.RefChanged objs id ((s.objs id).refCount - 1)) (hmore : 1 < (s.objs id).refCount) :
    Sound { s with objs := objs, handles := s.handles.eraseIdx k } := by
  constructor
  · exact h.numCam
  · exact fun i j hj => hobj.entry h hj
  · exact fun p hp => hobj.opens h (h.opening_ne hcam) hp
  · exact h.closes
  · intro j hj
    have hplace := h.places j hj
    simp only [Intf.places, idxOf] at hplace ⊢
    rwa [(hobj j).2.1, (hobj j).1]
  · exact hobj.one h
  · intro hdl' hh
    obtain ⟨j, hj, hmy'⟩ := h.handle hdl' (mem_of_mem_eraseIdx hh)
    exact ⟨j, hj, (hobj j).1.trans hmy'⟩
  · exact h.join
  · intro i j hj
    obtain ⟨hpos, href⟩ := h.refs i j hj
    have hcnt := count_eraseIdx hk (s.objs j).myHdl
    simp only [(hobj j).1, (hobj j).2.2]
    by_cases hji : j = id
    · subst hji
      rw [if_pos hmy.symm] at hcnt
      rw [if_pos rfl]
      omega
    · have hne : hdl ≠ (s.objs j).myHdl := by
        intro heq
        have hi : mmCameraUtilGetIndexByHandler hdl = i :=
          (congrArg mmCameraUtilGetIndexByHandler heq).trans (h.entry i j hj).2.1
        rw [hi, hj] at hcam
        exact hji (some.inj hcam)
      rw [if_neg hne] at hcnt
      rw [if_neg hji]
      omega
  · exact h.fault

/-- The last client closes its handle: the object is unpublished and is being closed. -/
theorem Sound.empties (h : s.Sound) (hk : s.handles[k]? = some hdl)
    (hcam : s.camObj (mmCameraUtilGetIndexByHandler hdl) = some id)
    (hmy : (s.objs id).myHdl = hdl)
    (hobj : s.RefChanged objs id ((s.objs id).refCount - 1)) (hlast : (s.objs id).refCount ≤ 1) :
    Sound { s with
      objs := objs
      handles := s.handles.eraseIdx k
      camObj := update s.camObj (mmCameraUtilGetIndexByHandler hdl) none
      closing := s.closing ++ [id] } := by
  set idx := mmCameraUtilGetIndexByHandler hdl with hidxDef
  obtain ⟨hlt, hidxOf, -⟩ := h.entry idx id hcam
  obtain ⟨hpos, href⟩ := h.refs idx id hcam
  rw [hmy] at href
  have hcntHdl := count_eraseIdx hk hdl
  rw [if_pos rfl] at hcntHdl
  have hnoJoin : s.joining.count idx = 0 := by omega
  have hnoHandle : (s.handles.eraseIdx k).count hdl = 0 := by omega
  have hold : ∀ {i j}, i ≠ idx → s.camObj i = some j → update s.camObj idx none i = some j := fun hi hj =>
    (update_of_ne hi _ _).trans hj
  constructor
  · exact h.numCam
  · intro i j hj
    by_cases hi : i = idx
    · subst hi
      simp [update_self] at hj
    · simp only [update_of_ne hi] at hj
      exact hobj.entry h hj
  · exact fun p hp => hobj.opens h (h.opening_ne hcam) hp
  · intro j hj
    rcases mem_append.mp hj with hj | hj
    · exact h.closes j hj
    · rw [mem_singleton.mp hj]
      exact hlt
  · intro j hj
    have hplace := h.places j hj
    simp only [Intf.places] at hplace ⊢
    change (objs j).frees + _ + (s.closing ++ [id]).count j +
      (update s.camObj idx none (mmCameraUtilGetIndexByHandler (objs j).myHdl) == some j).toNat = 1
    rw [(hobj j).2.1, hobj.index, count_append, count_singleton]
    by_cases hji : id = j
    · subst hji
      have hself : (s.camObj (s.idxOf id) == some id) = true := by simp [hidxOf, hcam]
      have hnone : ((none : Option ℕ) == some id) = false := rfl
      simp only [hself, toNat_true] at hplace
      simp only [hidxOf, update_self, hnone, toNat_false, beq_self_eq_true, if_true]
      omega
    · rw [if_neg (by simpa using hji)]
      by_cases hi : s.idxOf j = idx
      · have hother : (s.camObj idx == some j) = false := by
          rw [hcam]
          simpa using hji
        have hnone : ((none : Option ℕ) == some j) = false := rfl
        simp only [hi, hother, toNat_false] at hplace
        simp only [hi, update_self, hnone, toNat_false]
        omega
      · rw [update_of_ne hi]
        omega
  · exact hobj.one h
  · intro hdl' hh
    obtain ⟨j, hj, hmy'⟩ := h.handle hdl' (mem_of_mem_eraseIdx hh)
    by_cases hi : mmCameraUtilGetIndexByHandler hdl' = idx
    · rw [hi, hcam] at hj
      cases hj
      rw [hmy] at hmy'
      subst hmy'
      exact absurd hh (count_eq_zero.mp hnoHandle)
    · exact ⟨j, hold hi hj, (hobj j).1.trans hmy'⟩
  · intro i hi
    obtain ⟨j, hj⟩ := h.join i hi
    refine ⟨j, hold ?_ hj⟩
    rintro rfl
    exact count_eq_zero.mp hnoJoin hi
  · intro i j hj
    by_cases hi : i = idx
    · subst hi
      simp [update_self] at hj
    · simp only [update_of_ne hi] at hj
      obtain ⟨hpos, href⟩ := h.refs i j hj
      have hji : j ≠ id := by
        rintro rfl
        exact hi ((h.entry i j hj).2.1.symm.trans hidxOf)
      have hne : hdl ≠ (s.objs j).myHdl := fun heq =>
        hi ((h.entry i j hj).2.1.symm.trans (congrArg mmCameraUtilGetIndexByHandler heq).symm)
      have hcnt := count_eraseIdx hk (s.objs j).myHdl
      rw [if_neg hne] at hcnt
      simp only [(hobj j).1, (hobj j).2.2, if_neg hji]
      omega
  · exact h.fault

/-- **A step that does not make a second object keeps the account.** -/
theorem Sound.step {s' : Intf} {a : Action} (h : s.Sound) (hG : s.opensAlone a = true)
    (hstep : s.step a = some s') : s'.Sound := by
  cases a with
  | «open» idx mem =>
    simp only [Intf.step] at hstep
    split at hstep
    · rename_i hidx
      split at hstep
      · rename_i id hcam
        cases hstep
        exact h.joins hcam (s.setObj_refChanged id _)
      · rename_i hcam
        cases hstep
        cases mem with
        | false => exact h
        | true =>
          simp only [opensAlone, hcam, Bool.true_and, beq_self_eq_true, Bool.not_eq_true',
            Bool.or_eq_false_iff, List.any_eq_false, beq_iff_eq] at hG
          exact h.makes hidx hcam hG.1 hG.2
    · cases hstep
      exact h
  | opened k ok =>
    simp only [Intf.step] at hstep
    split at hstep
    · rename_i idx id hk
      have hmem : (idx, id) ∈ s.opening := List.mem_of_getElem? hk
      cases ok with
      | true =>
        cases hstep
        exact h.publishes hk
      | false =>
        cases hstep
        have hsame : Function.update s.camObj idx none = s.camObj := by
          have hnone : s.camObj idx = none := h.entry_of_opening hmem
          rw [← hnone, Function.update_eq_self]
        have hfreed : Sound { s with
            objs := (s.free id).objs, opening := s.opening.eraseIdx k } := by
          refine h.frees (s.free_freedOnce id) (fun p hp => List.mem_of_mem_eraseIdx hp) (fun j hj => hj) fun j => ?_
          have hkmap : (s.opening.map Prod.snd)[k]? = some id := by simp [hk]
          have hcnt := count_eraseIdx hkmap j
          rw [List.eraseIdx_map] at hcnt
          omega
        simpa [free, setObj, setEntry, hsame] using hfreed
    · cases hstep
  | joined k =>
    simp only [Intf.step] at hstep
    split at hstep
    · rename_i idx hk
      obtain ⟨id, hcam⟩ := h.join idx (List.mem_of_getElem? hk)
      simp only [hcam] at hstep
      cases hstep
      exact h.gets hk hcam
    · cases hstep
  | close k =>
    simp only [Intf.step] at hstep
    split at hstep
    · rename_i hdl hk
      obtain ⟨id, hget, hcam, hmy⟩ := h.getCameraByHandler (List.mem_of_getElem? hk)
      have hget' : Intf.getCameraByHandler { s with handles := s.handles.eraseIdx k } hdl = some id := hget
      simp only [hget'] at hstep
      cases hstep
      have hobj := s.setObj_refChanged id ((s.objs id).refCount - 1)
      by_cases hmore : 1 < (s.objs id).refCount
      · have hdrop := h.drops hk hcam hmy hobj hmore
        simpa [dropRef, hmore, setObj] using hdrop
      · have hempty := h.empties hk hcam hmy hobj (by omega)
        simpa [dropRef, hmore, setObj, setEntry] using hempty
    · cases hstep
  | closed k =>
    simp only [Intf.step] at hstep
    split at hstep
    · rename_i id hk
      cases hstep
      refine h.frees (s.free_freedOnce id) (fun p hp => hp) (fun j hj => List.mem_of_mem_eraseIdx hj) fun j => ?_
      have hcnt := count_eraseIdx hk j
      change _ = (s.opening.map Prod.snd).count j + (s.closing.eraseIdx k).count j + _
      omega
    · cases hstep
  | handler =>
    cases hstep
    exact { h with }

/-- **The references of a camera.** In every run in which an open makes an object only while no
other one of its index is being opened or closed: an index has at most one object that is not
freed; every handle that was not closed leads to the object of its camera, whose `ref_count` is
the number of the handles together with the opens that joined and have not returned; each
object is in one place, being opened, published, being closed, or freed once; and it is
published only as long as it has a reference. -/
theorem camera_references {s₀ s : Intf} {as : List Action} (h₀ : s₀.Initial)
    (hrun : Run (guarded (fun s a => s.opensAlone a = true) (fires Intf.step)) s₀ as s) :
    s.fault = false ∧ (∀ id < s.objNum, ∀ id' < s.objNum, (s.objs id).frees = 0 → (s.objs id').frees = 0 →
        s.idxOf id = s.idxOf id' → id = id') ∧
      (∀ h ∈ s.handles, ∃ id, s.getCameraByHandler h = some id ∧ (s.objs id).refCount =
        s.handles.count h + s.joining.count (mmCameraUtilGetIndexByHandler h)) ∧
      (∀ id < s.objNum, s.places id = 1) ∧
      ∀ i id, s.camObj i = some id → 0 < s.handles.count (s.objs id).myHdl + s.joining.count i := by
  have hsound : s.Sound :=
    hrun.invariant (fun _ _ _ hI hstep => Sound.step hI hstep.1 hstep.2) h₀.sound
  refine ⟨hsound.fault, hsound.one, fun hdl hh => ?_, hsound.places, fun i id hcam => ?_⟩
  · obtain ⟨id, hget, hcam, hmy⟩ := hsound.getCameraByHandler hh
    exact ⟨id, hget, hmy ▸ (hsound.refs _ id hcam).2⟩
  · obtain ⟨hpos, href⟩ := hsound.refs i id hcam
    omega

/-- A device with two cameras. -/
def twoCameras : Intf := { maxNumSensors := 5, numCam := 2 }

/-- The first camera is opened, opened again and closed once, while the second one fails. -/
theorem camera_references_sample : ∃ s, Run (guarded (fun s a => s.opensAlone a = true) (fires Intf.step)) twoCameras
        [.open 0 true, .open 1 true, .opened 0 true, .open 0 true, .opened 0 false, .joined 0, .close 0] s ∧
      s.handles = [256] ∧ ∃ id, s.getCameraByHandler 256 = some id ∧ (s.objs id).refCount = 1 := by
  have hret : (exec opensAlone Intf.step twoCameras
      [.open 0 true, .open 1 true, .opened 0 true, .open 0 true, .opened 0 false, .joined 0,
        .close 0]).map (fun s => (s.handles, s.joining)) = some ([256], []) := by decide
  obtain ⟨s, hs, hend⟩ := map_eq_some_iff.mp hret
  obtain ⟨hhandles, hjoining⟩ := Prod.mk.inj hend
  have hrun := run_of_exec hs
  obtain ⟨-, -, hresolve, -⟩ := camera_references
    ⟨⟨by decide, by decide⟩, fun _ => rfl, rfl, ⟨rfl, rfl, rfl⟩, rfl, rfl⟩ hrun
  obtain ⟨id, hget, href⟩ := hresolve 256 (hhandles ▸ mem_singleton_self _)
  refine ⟨s, hrun, hhandles, id, hget, ?_⟩
  simpa [hhandles, hjoining] using href

/-- Two clients open the camera at a time: the second object replaces the first one, whose
handle leads nowhere. -/
theorem camera_opened_twice : ¬ ∀ (s₀ s : Intf) (as : List Action), s₀.Initial → Run (fires Intf.step) s₀ as s →
      ∀ h ∈ s.handles, ∃ id, s.getCameraByHandler h = some id := by
  intro hall
  have hret : (exec (fun _ _ => true) Intf.step twoCameras
      [.open 0 true, .open 0 true, .opened 0 true, .opened 0 true]).map
      (fun s => (s.handles, s.getCameraByHandler 256)) = some ([256, 512], none) := by decide
  obtain ⟨s, hs, hend⟩ := map_eq_some_iff.mp hret
  obtain ⟨hhandles, hnone⟩ := Prod.mk.inj hend
  have hget := hall twoCameras s _ ⟨⟨by decide, by decide⟩, fun _ => rfl, rfl, ⟨rfl, rfl, rfl⟩, rfl, rfl⟩
    (run_of_exec hs).of_guarded 256 (by simp [hhandles])
  obtain ⟨id, hid⟩ := hget
  rw [hnone] at hid
  cases hid

end Intf

end Marlin
