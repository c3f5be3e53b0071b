import Mathlib.Data.Fintype.Basic
import Marlin.StepLaws

/-!
# The OMX Core

The core has a table of the components it knows: for each one the handles of its instances, whether its library is
open, the handle of the library and two functions of it. `OMX_GetHandle` opens the library for the first instance,
and `OMX_FreeHandle` closes it with the last one. Where the instance for which a library was opened is not made, the
library is closed, but the component stays marked as open and keeps the functions.

## Conventions

* Between `OMX_Init` and the last `OMX_Deinit`. Calls are one after the other; they hold `g_omxcore_lock`.
* The handle of a library is the number of the opening that gave it, and so is a function that was found in it.
* What the code does not have: how often a library was opened and closed.
* A function that is called through a pointer that is `NULL`, or of a library that was closed, answers anything.

## Main results

* `Component.getHandle_inv`, `Component.freeInstance_inv`: what the calls do to a component.
* `lawful_iff`: for all sequences of calls, when the table is as it should be throughout.
-/

namespace Marlin

open List Function

namespace Omx

/-- `OMX_COMP_MAX_INSTANCES`. -/
def omxCompMaxInstances : ℕ := 3

/-- `g_comp_info`. -/
def gCompInfo : List (String × String) :=
  [("OMX.qcom.image.jpeg.encoder", "libqomx_jpegenc.so"), ("OMX.qcom.image.jpeg.decoder", "libqomx_jpegdec.so"),
    ("OMX.qcom.image.jpeg.encoder_pipeline", "libqomx_jpegenc_pipe.so")]

/-- A component of the table. -/
abbrev CompIdx := Fin gCompInfo.length

/-- A slot for an instance. -/
abbrev InstIdx := Fin omxCompMaxInstances

/-- `omx_core_component_t`, but for its names. -/
structure Component where
  handle : InstIdx → Option ℕ := fun _ => none
  isOpen : Bool := false
  lib_handle : Option ℕ := none
  get_instance : Option ℕ := none
  create_comp_func : Option ℕ := none
  opened : ℕ := 0
  closed : ℕ := 0

/-- `omx_core_t`. -/
abbrev Core := CompIdx → Component

/-- `OMX_ERRORTYPE`, as far as the core returns it. -/
inductive Error
  | none | badParameter | invalidComponent
  deriving DecidableEq

/-- What the calls to the library return: `dlopen`, the two `dlsym`, `getInstance` and `create_component_fns`. -/
structure GetCalls where
  dlopen : Bool := true
  symCreate : Bool := true
  symInstance : Bool := true
  getInstance : Bool := true
  component : Option ℕ
  deriving DecidableEq

/-- A call: the result, the component, and the functions that were called, each with the pointer and the handle of
the library at that time. -/
structure Called where
  rc : Error
  comp : Component
  used : List (Option ℕ × Option ℕ) := []

/-- `get_comp_from_list`. -/
def getCompFromList (comp_name : Option String) : Option CompIdx :=
  match comp_name with
  | none => none
  | some name => (List.finRange gCompInfo.length).find? fun i => (gCompInfo.get i).1 = name

namespace Component

/-- `get_free_inst_idx`. -/
def getFreeInstIdx (c : Component) : Option InstIdx := (List.finRange _).find? fun i => c.handle i = none

/-- `is_comp_active`. -/
def isCompActive (c : Component) : Bool := (List.finRange _).any fun i => (c.handle i).isSome

/-- The library is opened, and the functions are looked up. -/
def openLibrary (c : Component) (calls : GetCalls) : Component :=
  { c with
    isOpen := true
    lib_handle := some (c.opened + 1)
    create_comp_func := if calls.symCreate then some (c.opened + 1) else none
    get_instance := if calls.symInstance then some (c.opened + 1) else none
    opened := c.opened + 1 }

/-- The handle of the library is closed, if it is one. -/
def dlclose (c : Component) : Component :=
  { c with lib_handle := none, closed := if c.lib_handle = none then c.closed else c.closed + 1 }

/-- The label `error`. -/
def error (c : Component) (close_handle : Bool) (used : List (Option ℕ × Option ℕ)) : Called where
  rc := .invalidComponent
  comp := if close_handle then c.dlclose else c
  used := used

/-- An instance is made in a slot, with the functions of the library. -/
def makeInstance (c : Component) (close_handle : Bool) (inst_idx : InstIdx) (calls : GetCalls) : Called :=
  let used := [(c.get_instance, c.lib_handle)]
  if !calls.getInstance then c.error close_handle used
  else
    let used := used ++ [(c.create_comp_func, c.lib_handle)]
    match calls.component with
    | none => c.error close_handle used
    | some p_comp =>
      { rc := .none, comp := { c with handle := Function.update c.handle inst_idx (some p_comp) }, used := used }

/-- `OMX_GetHandle`, for the component it finds. -/
def getHandle (c : Component) (calls : GetCalls) : Called :=
  match c.getFreeInstIdx with
  | none => c.error false []
  | some inst_idx =>
    if c.isOpen then c.makeInstance false inst_idx calls
    else if !calls.dlopen then { c with lib_handle := none }.error false []
    else if !(calls.symCreate && calls.symInstance) then (c.openLibrary calls).error true []
    else (c.openLibrary calls).makeInstance true inst_idx calls

/-- `OMX_FreeHandle`, for the instance it finds, once the instance was deinitialised. -/
def freeInstance (c : Component) (inst_idx : InstIdx) : Component :=
  let c := { c with handle := Function.update c.handle inst_idx none }
  if c.isCompActive then c
  else { c.dlclose with get_instance := none, create_comp_func := none, isOpen := false }

end Component

namespace Core

/-- `get_idx_from_handle`. -/
def getIdxFromHandle (core : Core) (hComp : ℕ) : Option (CompIdx × InstIdx) :=
  (List.finRange _).findSome? fun i =>
    ((List.finRange _).find? fun j => (core i).handle j = some hComp).map fun j => (i, j)

end Core

/-- A call of `OMX_GetHandle` (whether there is a place for the handle, and the name of the component), or of
`OMX_FreeHandle` (the handle, and whether `ComponentDeInit` succeeds). -/
inductive Event
  | getHandle (handle : Bool) (componentName : Option String) (calls : GetCalls)
  | freeHandle (hComp : Option ℕ) (deInit : Bool)
  deriving DecidableEq

/-- How a call goes: the result, the table, and the functions that were called. -/
structure Outcome where
  rc : Error
  core : Core
  used : List (Option ℕ × Option ℕ) := []

/-- One call. -/
def call (core : Core) : Event → Outcome
  | .getHandle handle componentName calls =>
    if !handle then { rc := .badParameter, core := core }
    else
      match getCompFromList componentName with
      | none => { rc := .invalidComponent, core := core }
      | some i =>
        let r := (core i).getHandle calls
        { rc := r.rc, core := Function.update core i r.comp, used := r.used }
  | .freeHandle hComp deInit =>
    match hComp with
    | none => { rc := .badParameter, core := core }
    | some h =>
      match core.getIdxFromHandle h with
      | none => { rc := .invalidComponent, core := core }
      | some (i, j) =>
        if !deInit then { rc := .invalidComponent, core := core }
        else { rc := .none, core := Function.update core i ((core i).freeInstance j) }

/-! ### What should hold -/

/-- The fields of the code. -/
def Component.fields (c : Component) : (InstIdx → Option ℕ) × Bool × Option ℕ × Option ℕ × Option ℕ :=
  (c.handle, c.isOpen, c.lib_handle, c.get_instance, c.create_comp_func)

/-- A component is marked as open exactly if it has a library that was opened once more than closed, and its
instances have a library. -/
structure Component.Good (c : Component) : Prop where
  isOpen : c.isOpen = true ↔ c.lib_handle ≠ none ∧ c.opened = c.closed + 1
  handles : ∀ j, c.handle j ≠ none → c.isOpen = true ∧ c.lib_handle ≠ none

/-- **A call as it should be**: the table is good afterwards, the functions that were called are of the library that
is open, and a handle that is not got leaves the table as it was. -/
structure Lawful (core : Core) (e : Event) : Prop where
  good : ∀ i, ((call core e).core i).Good
  used : ∀ u ∈ (call core e).used, ∃ n, u = (some n, some n)
  failed : ∀ handle name calls, e = .getHandle handle name calls → (call core e).rc ≠ .none →
    ∀ i, ((call core e).core i).fields = (core i).fields

/-- The library of a component would be opened for an instance. -/
def Component.Opens (c : Component) (calls : GetCalls) : Prop :=
  c.getFreeInstIdx ≠ none ∧ c.isOpen = false ∧ calls.dlopen = true

/-- What is asked of a library that was opened succeeds. -/
def GetCalls.Made (calls : GetCalls) : Prop :=
  calls.symCreate = true ∧ calls.symInstance = true ∧ calls.getInstance = true ∧ calls.component ≠ none

/-- Where a library is opened for an instance, the instance is made. -/
def Makes (core : Core) : Event → Prop
  | .getHandle handle componentName calls =>
    ∀ i, handle = true → getCompFromList componentName = some i → (core i).Opens calls → calls.Made
  | .freeHandle _ _ => True

/-! ### The invariant -/

/-- **A component in order**: it is open, with a library whose functions it has, or it has nothing. -/
def Component.Inv (c : Component) : Prop :=
  (c.isOpen = true ∧ c.lib_handle = some c.opened ∧ c.get_instance = some c.opened ∧
      c.create_comp_func = some c.opened ∧ c.opened = c.closed + 1) ∨
    (c.isOpen = false ∧ c.lib_handle = none ∧ c.get_instance = none ∧ c.create_comp_func = none ∧
      c.opened = c.closed ∧ ∀ j, c.handle j = none)

namespace Component

variable {c : Component} {calls : GetCalls}

theorem Inv.good (h : c.Inv) : c.Good := by
  rcases h with ⟨hopen, hlib, -, -, hcount⟩ | ⟨hopen, hlib, -, -, -, hnone⟩
  · exact ⟨iff_of_true hopen ⟨by rw [hlib]; exact Option.some_ne_none _, hcount⟩,
      fun _ _ => ⟨hopen, by rw [hlib]; exact Option.some_ne_none _⟩⟩
  · exact ⟨iff_of_false (by rw [hopen]; exact Bool.false_ne_true) fun hnot => hnot.1 hlib,
      fun j hj => absurd (hnone j) hj⟩

theorem makeInstance_open (hopen : c.isOpen = true) (h : c.Inv) (inst_idx : InstIdx) (calls : GetCalls) :
    let r := c.makeInstance false inst_idx calls
    r.comp.Inv ∧ (∀ u ∈ r.used, ∃ n, u = (some n, some n)) ∧ (r.rc ≠ .none → r.comp.fields = c.fields) := by
  rcases h with ⟨-, hlib, hget, hcreate, hcount⟩ | ⟨hclosed, -⟩
  · have hinv : c.Inv := .inl ⟨hopen, hlib, hget, hcreate, hcount⟩
    rw [makeInstance, hget, hcreate, hlib]
    dsimp only
    cases calls.getInstance with
    | false => exact ⟨hinv, by simp [error], fun _ => rfl⟩
    | true =>
      cases calls.component with
      | none => exact ⟨hinv, by simp [error], fun _ => rfl⟩
      | some p_comp =>
        exact ⟨.inl ⟨hopen, rfl, rfl, rfl, hcount⟩, by simp, fun hne => absurd rfl hne⟩
  · rw [hclosed] at hopen
    cases hopen

theorem makeInstance_opened (h : c.Inv) (hclosed : c.isOpen = false) (hmade : calls.Made) (inst_idx : InstIdx) :
    let r := (c.openLibrary calls).makeInstance true inst_idx calls
    r.comp.Inv ∧ (∀ u ∈ r.used, ∃ n, u = (some n, some n)) ∧ r.rc = .none := by
  obtain ⟨hcreate, hsym, hinst, hcomp⟩ := hmade
  obtain ⟨p_comp, hp⟩ := Option.ne_none_iff_exists'.mp hcomp
  rcases h with ⟨hopen, -⟩ | ⟨-, -, -, -, hcount, -⟩
  · rw [hclosed] at hopen
    cases hopen
  · rw [makeInstance, hinst, hp]
    refine ⟨.inl ⟨rfl, rfl, ?_, ?_, ?_⟩, ?_, rfl⟩
    · exact if_pos hsym
    · exact if_pos hcreate
    · exact congrArg (· + 1) hcount
    · simp [openLibrary, hsym, hcreate]

theorem getHandle_not_made (h : c.Opens calls) (hnot : ¬ calls.Made) :
    (c.getHandle calls).comp.isOpen = true ∧ (c.getHandle calls).comp.lib_handle = none := by
  obtain ⟨hfree, hclosed, hdlopen⟩ := h
  obtain ⟨i, hi⟩ := Option.ne_none_iff_exists'.mp hfree
  rw [getHandle, hi]
  dsimp only
  rw [hclosed, if_neg Bool.false_ne_true, hdlopen, Bool.not_true, if_neg Bool.false_ne_true]
  by_cases hsym : (calls.symCreate && calls.symInstance) = true
  · rw [hsym, Bool.not_true, if_neg Bool.false_ne_true, makeInstance]
    dsimp only
    cases hinst : calls.getInstance with
    | false => exact ⟨rfl, rfl⟩
    | true =>
      cases hcomp : calls.component with
      | none => exact ⟨rfl, rfl⟩
      | some p_comp =>
        obtain ⟨hcreate, hsym⟩ := (Bool.and_eq_true _ _).mp hsym
        exact absurd ⟨hcreate, hsym, hinst, by rw [hcomp]; exact Option.some_ne_none _⟩ hnot
  · rw [eq_false_of_ne_true hsym, Bool.not_false, if_pos rfl]
    exact ⟨rfl, rfl⟩

/-- **Getting a handle**, where what is opened for it succeeds. -/
theorem getHandle_inv (h : c.Inv) (hmade : c.Opens calls → calls.Made) :
    let r := c.getHandle calls
    r.comp.Inv ∧ (∀ u ∈ r.used, ∃ n, u = (some n, some n)) ∧ (r.rc ≠ .none → r.comp.fields = c.fields) := by
  rw [getHandle]
  cases hfree : c.getFreeInstIdx with
  | none => exact ⟨h, by simp [error], fun _ => rfl⟩
  | some i =>
    dsimp only
    by_cases hopen : c.isOpen = true
    · rw [if_pos hopen]
      exact makeInstance_open hopen h i calls
    · have hclosed := eq_false_of_ne_true hopen
      rw [if_neg hopen]
      cases hdlopen : calls.dlopen with
      | false =>
        have hnone : c.lib_handle = none := by
          rcases h with ⟨hopen', -⟩ | ⟨-, hlib, -⟩
          · exact absurd hopen' hopen
          · exact hlib
        have hsame : { c with lib_handle := none } = c := by rw [← hnone]
        rw [Bool.not_false, if_pos rfl, hsame]
        exact ⟨h, by simp [error], fun _ => rfl⟩
      | true =>
        have hm := hmade ⟨by rw [hfree]; exact Option.some_ne_none i, hclosed, hdlopen⟩
        rw [Bool.not_true, if_neg Bool.false_ne_true, hm.1, hm.2.1, Bool.and_self, Bool.not_true,
          if_neg Bool.false_ne_true]
        obtain ⟨hinv, hused, hrc⟩ := makeInstance_opened h hclosed hm i
        exact ⟨hinv, hused, fun hne => absurd hrc hne⟩

/-- **Freeing an instance.** -/
theorem freeInstance_inv (h : c.Inv) (i : InstIdx) (hi : c.handle i ≠ none) : (c.freeInstance i).Inv := by
  rcases h with ⟨hopen, hlib, hget, hcreate, hcount⟩ | ⟨-, -, -, -, -, hnone⟩
  · rw [freeInstance]
    dsimp only
    split
    · exact .inl ⟨hopen, hlib, hget, hcreate, hcount⟩
    · rename_i hactive
      refine .inr ⟨rfl, rfl, rfl, rfl, ?_, fun j => ?_⟩
      · rw [hcount, dlclose, if_neg (by rw [hlib]; exact Option.some_ne_none _)]
      · have hall := any_eq_false.mp (eq_false_of_ne_true hactive) j (mem_finRange j)
        exact Option.not_isSome_iff_eq_none.mp hall
  · exact absurd (hnone i) hi

end Component

/-- All components are in order. -/
def Core.Inv (core : Core) : Prop := ∀ i, (core i).Inv

variable {core : Core}

theorem Core.getIdxFromHandle_some {h : ℕ} {i : CompIdx} {j : InstIdx}
    (hfind : core.getIdxFromHandle h = some (i, j)) : (core i).handle j = some h := by
  obtain ⟨i', -, hi⟩ := exists_of_findSome?_eq_some hfind
  obtain ⟨j', hj, heq⟩ := Option.map_eq_some_iff.mp hi
  obtain ⟨rfl, rfl⟩ := Prod.mk.inj heq
  have hfound := find?_some hj
  exact of_decide_eq_true hfound

theorem Core.Inv.update (h : core.Inv) {i : CompIdx} {c : Component} (hc : c.Inv) :
    Core.Inv (Function.update core i c) := by
  intro j
  by_cases hj : j = i
  · rw [hj, update_self]
    exact hc
  · rw [update_of_ne hj]
    exact h j

theorem freeHandle_cases (core : Core) (hComp : Option ℕ) (deInit : Bool) :
    (call core (.freeHandle hComp deInit)).used = [] ∧
      ((call core (.freeHandle hComp deInit)).core = core ∨ ∃ i j, (core i).handle j ≠ none ∧
          (call core (.freeHandle hComp deInit)).core = Function.update core i ((core i).freeInstance j)) := by
  cases hComp with
  | none => exact ⟨rfl, .inl rfl⟩
  | some k =>
    cases hfind : core.getIdxFromHandle k with
    | none => simp only [call, hfind, true_or, and_self]
    | some ij =>
      obtain ⟨i, j⟩ := ij
      cases deInit with
      | false => simp [call, hfind]
      | true =>
        have hj : (core i).handle j ≠ none := by
          rw [Core.getIdxFromHandle_some hfind]
          exact Option.some_ne_none k
        simp only [call, hfind, Bool.not_true, Bool.false_eq_true, if_false, true_and]
        exact .inr ⟨i, j, hj, rfl⟩

/-- **A call that makes what it opens a library for** keeps the table in order. -/
theorem call_makes (h : core.Inv) {e : Event} (hm : Makes core e) : Core.Inv (call core e).core ∧ Lawful core e := by
  suffices hall : Core.Inv (call core e).core ∧ (∀ u ∈ (call core e).used, ∃ n, u = (some n, some n)) ∧
      ∀ handle name calls, e = .getHandle handle name calls → (call core e).rc ≠ .none →
        ∀ i, ((call core e).core i).fields = (core i).fields from
    ⟨hall.1, fun i => (hall.1 i).good, hall.2.1, hall.2.2⟩
  cases e with
  | getHandle handle componentName calls =>
    rw [call]
    cases handle with
    | false => exact ⟨h, by simp, fun _ _ _ _ _ _ => rfl⟩
    | true =>
      cases hfind : getCompFromList componentName with
      | none => exact ⟨h, by simp, fun _ _ _ _ _ _ => rfl⟩
      | some i =>
        obtain ⟨hinv, hused, hfailed⟩ := Component.getHandle_inv (h i) (hm i rfl hfind)
        refine ⟨h.update hinv, hused, fun _ _ _ _ hne j => ?_⟩
        change (update core i ((core i).getHandle calls).comp j).fields = (core j).fields
        by_cases hj : j = i
        · rw [hj, update_self]
          exact hfailed hne
        · rw [update_of_ne hj]
  | freeHandle hComp deInit =>
    obtain ⟨hused, hcase⟩ := freeHandle_cases core hComp deInit
    rw [hused]
    refine ⟨?_, by simp, fun _ _ _ heq => by cases heq⟩
    rcases hcase with hsame | ⟨i, j, hj, hcore⟩
    · rw [hsame]
      exact h
    · rw [hcore]
      exact h.update (Component.freeInstance_inv (h i) j hj)

theorem not_lawful {e : Event} (hm : ¬ Makes core e) : ¬ Lawful core e := by
  intro hlaw
  cases e with
  | freeHandle hComp deInit => exact hm trivial
  | getHandle handle componentName calls =>
    refine hm fun i hhandle hfind hopens => ?_
    by_contra hnot
    obtain ⟨hopen, hlib⟩ := Component.getHandle_not_made hopens hnot
    have hcomp : (call core (.getHandle handle componentName calls)).core i = ((core i).getHandle calls).comp := by
      rw [call, hhandle, hfind]
      exact update_self ..
    have hgood := (hlaw.good i).isOpen
    rw [hcomp] at hgood
    exact (hgood.mp hopen).1 hlib

/-- **When the table is as it should be**: for every sequence of calls, exactly if each call that opens a library
for an instance makes this instance. -/
theorem lawful_iff (es : List Event) : StepLaws.Along (fun core e => (call core e).core) Lawful (fun _ => {}) es ↔
      StepLaws.Along (fun core e => (call core e).core) Makes (fun _ => {}) es := by
  refine StepLaws.along_iff (I := Core.Inv) (fun core e h => ⟨fun hlaw => ?_, fun hm => (call_makes h hm).2⟩)
    (fun core e h hm => (call_makes h hm).1) (fun i => .inr ⟨rfl, rfl, rfl, rfl, rfl, fun _ => rfl⟩) es
  by_contra hnot
  exact not_lawful hnot hlaw

/-- An instance that is not made leaves its component open, without a library. -/
theorem not_lawful_encoder : ¬ StepLaws.Along (fun core e => (call core e).core) Lawful (fun _ => {})
      [.getHandle true (some "OMX.qcom.image.jpeg.encoder") { getInstance := false, component := none }] := by
  rintro ⟨hlaw, -⟩
  refine not_lawful (fun hm => ?_) hlaw
  have hopens : ({} : Component).Opens { getInstance := false, component := none } := ⟨by decide, rfl, rfl⟩
  exact absurd (hm ⟨0, by decide⟩ rfl (by decide) hopens).2.2.1 Bool.false_ne_true

end Omx

end Marlin
