import Mathlib.Data.List.Nodup
import Marlin.Transition

/-!
# The Performance Modes of the Power HAL

`power_hint` holds a lock of the performance library without an end while the sustained or the VR mode is on, and a
lock of five seconds for a launch.

## Conventions

* The library is present. Acquiring a lock updates it if it is held; else the library picks a handle that is positive
  and is not held, and the step is not taken with another one.
* Beside the hints, the locks that have an end run out, and other clients acquire and release locks of their own.
* `holder` is for whom a lock was acquired, `releases` for which mode the HAL released which holder's lock, and `last`
  the mode that was turned on last. The code has none of them.

## Main results

* `Inv.step`: what every step keeps.
* `lawful_of_careful`: where each mode lock that is released is held, and what is held for the modes.
-/

namespace Marlin

open Transition

/-- The modes, of which each has a flag and a handle. -/
inductive PerfMode
  | sustained
  | vr
deriving DecidableEq

/-- The other mode. -/
def PerfMode.other : PerfMode → PerfMode
  | .sustained => .vr
  | .vr => .sustained

@[simp] theorem PerfMode.other_ne (m : PerfMode) : m.other ≠ m := by cases m <;> decide

@[simp] theorem PerfMode.other_other (m : PerfMode) : m.other.other = m := by cases m <;> rfl

theorem PerfMode.eq_or_other (m k : PerfMode) : k = m ∨ k = m.other := by cases m <;> cases k <;> decide

/-- For whom a lock was acquired. -/
inductive Holder
  | mode (m : PerfMode)
  | launch
  | client
deriving DecidableEq

/-- A lock of the library. -/
structure Lock where
  handle : ℤ
  holder : Holder
  duration : ℕ
  resources : List ℕ
deriving DecidableEq

/-- What `get_scaling_governor` reads. -/
inductive Governor
  | unreadable
  | sched
  | interactive
  | unsupported

/-- The resources of a mode that is on alone. -/
def PerfMode.resources : PerfMode → List ℕ
  | .sustained => [0x40804000, 1209, 0x40804100, 1209, 0x42C24000, 133, 0x42C20000, 315, 0x42C28000, 7759]
  | .vr => [0x40800000, 1440, 0x40800100, 1440, 0x40804000, 1440, 0x40804100, 1440, 0x42C20000, 510, 0x42C24000, 510,
      0x42C28000, 7759]

/-- The resources with which the HAL switches back to a mode. -/
def PerfMode.backResources : PerfMode → List ℕ
  | .sustained => [0x40800000, 0, 0x40800100, 0, 0x40804000, 1209, 0x40804100, 1209, 0x42C24000, 133, 0x42C20000, 315,
      0x42C28000, 0]
  | .vr => [0x40804000, 1440, 0x40804100, 1440, 0x40800000, 1440, 0x40800100, 1440, 0x42C20000, 510, 0x42C24000, 510,
      0x42C28000, 7759]

/-- The resources of both modes. -/
def bothResources : List ℕ :=
  [0x40800000, 1209, 0x40800100, 1209, 0x40804000, 1209, 0x40804100, 1209, 0x42C24000, 315, 0x42C20000, 315,
    0x42C28000, 7759]

/-- The resources of a launch; `process_boost` fails without them. -/
def Governor.launchResources : Governor → Option (List ℕ)
  | .unreadable | .unsupported => none
  | .sched => some [0x40804000, 0xFFF, 0x40804100, 0xFFF, 0x40800000, 0xFFF, 0x40800100, 0xFFF, 0x41800000, 140,
      0x40400000, 0x1]
  | .interactive => some [0x40C00000, 0x1, 0x40804000, 0xFFF, 0x40804100, 0xFFF, 0x40800000, 0xFFF, 0x40800100, 0xFFF,
      0x41800000, 140, 0x40400000, 0x1]

/-- The power HAL and the locks of the library. `on` is `sustained_performance_mode` and `vr_mode`, `handle` is
`sustained_mode_handle` and `vr_mode_handle`. -/
structure PowerModes where
  on : PerfMode → Bool := fun _ => false
  handle : PerfMode → ℤ := fun _ => 0
  launch_handle : ℤ := -1
  launch_mode : Bool := false
  locks : List Lock := []
  releases : List (Holder × Option Holder) := []
  last : PerfMode := .vr

namespace PowerModes

variable {s t : PowerModes} {m : PerfMode}

/-! ### The locks -/

/-- `perf_lock_acq`, where `fresh` is the handle that the library picks for a new lock. -/
def perfLockAcq (s : PowerModes) (fresh h : ℤ) (who : Holder) (duration : ℕ) (resources : List ℕ) :
    Option (ℤ × PowerModes) :=
  if ∃ l ∈ s.locks, l.handle = h then
    some (h, { s with locks := s.locks.map fun l =>
      if l.handle = h then { l with duration := duration, resources := resources } else l })
  else if 0 < fresh ∧ ∀ l ∈ s.locks, l.handle ≠ fresh then
    some (fresh, { s with locks := ⟨fresh, who, duration, resources⟩ :: s.locks })
  else none

/-- `release_request`, for the mode or the launch `who`. -/
def releaseRequest (s : PowerModes) (who : Holder) (h : ℤ) : PowerModes :=
  { s with
    locks := s.locks.filter fun l => l.handle ≠ h
    releases := (who, (s.locks.find? fun l => l.handle = h).map Lock.holder) :: s.releases }

/-- A mode's lock is acquired, without an end. -/
def acquire (s : PowerModes) (fresh : ℤ) (m : PerfMode) (resources : List ℕ) : Option PowerModes :=
  (s.perfLockAcq fresh (s.handle m) (.mode m) 0 resources).map fun r =>
    { r.2 with handle := Function.update s.handle m r.1 }

/-- A launch that is in progress is ended. -/
def endLaunch (s : PowerModes) : PowerModes :=
  if s.launch_mode then { s.releaseRequest .launch s.launch_handle with launch_mode := false } else s

/-! ### The hints -/

/-- `POWER_HINT_SUSTAINED_PERFORMANCE` and `POWER_HINT_VR_MODE`. -/
def modeHint (s : PowerModes) (m : PerfMode) (data : Bool) (fresh : ℤ) : Option PowerModes :=
  if data && !s.on m then
    (if s.on m.other then (s.releaseRequest (.mode m.other) (s.handle m.other)).acquire fresh m bothResources
      else s.endLaunch.acquire fresh m m.resources).map fun t =>
        { t with on := Function.update s.on m true, last := m }
  else if s.on m then
    let t := s.releaseRequest (.mode m) (s.handle m)
    (if s.on m.other then t.acquire fresh m.other m.other.backResources else some t).map fun t =>
      { t with on := Function.update s.on m false }
  else some s

/-- `process_activity_launch_hint`. -/
def launchHint (s : PowerModes) (data : Bool) (governor : Governor) (fresh : ℤ) : Option PowerModes :=
  if s.on .sustained || s.on .vr then some s
  else if data && !s.launch_mode then
    match governor.launchResources with
    | none => some { s with launch_handle := -1 }
    | some resources => (s.perfLockAcq fresh s.launch_handle .launch 5000 resources).map fun r =>
      { r.2 with launch_handle := r.1, launch_mode := 0 < r.1 }
  else if !data && s.launch_mode then
    some { s.releaseRequest .launch s.launch_handle with launch_mode := false }
  else some s

/-- What happens: hints, with the handle that the library picks if it has to, and what the library does. -/
inductive Event
  | mode (m : PerfMode) (data : Bool) (fresh : ℤ)
  | launch (data : Bool) (governor : Governor) (fresh : ℤ)
  | timeout (h : ℤ)
  | clientAcquires (fresh : ℤ) (duration : ℕ) (resources : List ℕ)
  | clientReleases (h : ℤ)

def step (s : PowerModes) : Event → Option PowerModes
  | .mode m data fresh => s.modeHint m data fresh
  | .launch data governor fresh => s.launchHint data governor fresh
  | .timeout h => some { s with locks := s.locks.filter fun l => l.handle ≠ h ∨ l.duration = 0 }
  | .clientAcquires fresh duration resources =>
    if 0 < fresh ∧ ∀ l ∈ s.locks, l.handle ≠ fresh then
      some { s with locks := ⟨fresh, .client, duration, resources⟩ :: s.locks }
    else none
  | .clientReleases h => some { s with locks := s.locks.filter fun l => l.handle ≠ h ∨ l.holder ≠ .client }

/-! ### What is held -/

/-- The locks that the HAL holds. -/
def own (s : PowerModes) : List Lock := s.locks.filter fun l => l.holder ≠ .client

/-- The resource lists that belong to the modes that are on. -/
def lists (s : PowerModes) : List (List ℕ) :=
  match s.on .sustained, s.on .vr with
  | false, false => []
  | true, false => [PerfMode.sustained.resources, PerfMode.sustained.backResources]
  | false, true => [PerfMode.vr.resources, PerfMode.vr.backResources]
  | true, true => [bothResources]

/-- **The locks of the modes**: only a lock that is held for the mode is released, and one lock without an end is held
while a mode is on, with the resources of the modes, and else none. -/
structure Lawful (s : PowerModes) : Prop where
  released : ∀ r ∈ s.releases, r.2 = some r.1
  held : if s.on .sustained = true ∨ s.on .vr = true then
      ∃ l, (s.own.filter fun l => l.duration = 0) = [l] ∧ l.resources ∈ s.lists
    else (s.own.filter fun l => l.duration = 0) = []

/-- The handle is not that of another client's lock. -/
def NotTaken (s : PowerModes) (h : ℤ) : Prop := ∀ l ∈ s.locks, l.handle = h → l.holder ≠ .client

/-- A launch in progress has not timed out. -/
def InProgress (s : PowerModes) : Prop := s.launch_mode = true → ∃ l ∈ s.locks, l.holder = .launch
deriving Decidable

instance (s : PowerModes) (h : ℤ) : Decidable (s.NotTaken h) := List.decidableBAll ..

/-- **The condition**: of two modes the one that was turned on last is turned off first, a launch is ended before its
lock has timed out, and a handle with which a lock is acquired again is not another client's by then. -/
def Careful (s : PowerModes) : Event → Prop
  | .mode m data _ =>
    if data = true ∧ s.on m = false then
      s.NotTaken (s.handle m) ∧ (s.on m.other = false → s.InProgress)
    else s.on m = true → s.on m.other = true → s.last = m ∧ s.NotTaken (s.handle m.other)
  | .launch data governor _ => s.on .sustained = false → s.on .vr = false →
      if data = true then s.launch_mode = false → governor.launchResources ≠ none → s.NotTaken s.launch_handle
      else s.InProgress
  | _ => True

instance (s : PowerModes) (e : Event) : Decidable (s.Careful e) := by
  cases e <;> dsimp only [Careful] <;> infer_instance

/-! ### The books -/

/-- No handle is held twice, what was released was held for its mode, and the HAL holds `ls`. -/
structure Books (s : PowerModes) (ls : List Lock) : Prop where
  nodup : (s.locks.map Lock.handle).Nodup
  released : ∀ r ∈ s.releases, r.2 = some r.1
  own : s.own = ls

variable {ls : List Lock} {l : Lock} {fresh h : ℤ} {who : Holder}

theorem mem_own : l ∈ s.own ↔ l ∈ s.locks ∧ l.holder ≠ .client := by simp [own]

theorem Books.congr (hb : s.Books ls) (hlocks : t.locks = s.locks) (hreleases : t.releases = s.releases) : t.Books ls :=
  ⟨hlocks ▸ hb.nodup, hreleases ▸ hb.released, Eq.trans (by rw [PowerModes.own, PowerModes.own, hlocks]) hb.own⟩

theorem Books.filter (hb : s.Books ls) (p : Lock → Bool) :
    Books { s with locks := s.locks.filter p } (ls.filter p) := by
  refine ⟨hb.nodup.sublist (List.filter_sublist.map _), hb.released, ?_⟩
  rw [← hb.own, PowerModes.own, PowerModes.own, List.filter_comm]

theorem Books.cons (hb : s.Books ls) (hfresh : ∀ k ∈ s.locks, k.handle ≠ l.handle) :
    Books { s with locks := l :: s.locks } (if l.holder ≠ .client then l :: ls else ls) := by
  refine ⟨List.nodup_cons.mpr ⟨?_, hb.nodup⟩, hb.released, ?_⟩
  · rintro hmem
    obtain ⟨k, hk, heq⟩ := List.mem_map.mp hmem
    exact hfresh k hk heq
  · rw [← hb.own, PowerModes.own, PowerModes.own, List.filter_cons]
    simp only [decide_eq_true_eq]

theorem Books.perfLockAcq {q : ℤ × PowerModes} {duration : ℕ} {resources : List ℕ} (hb : s.Books [])
    (hfree : s.NotTaken h) (hwho : who ≠ .client)
    (hacq : s.perfLockAcq fresh h who duration resources = some q) :
    0 < q.1 ∧ q.2 = { s with locks := q.2.locks } ∧ q.2.Books [⟨q.1, who, duration, resources⟩] := by
  have hnone : ¬ ∃ l ∈ s.locks, l.handle = h := by
    rintro ⟨l, hl, heq⟩
    exact List.not_mem_nil (hb.own ▸ mem_own.mpr ⟨hl, hfree l hl heq⟩)
  rw [PowerModes.perfLockAcq, if_neg hnone] at hacq
  split at hacq
  · rename_i hpick
    cases hacq
    have hnew := hb.cons (l := ⟨fresh, who, duration, resources⟩) hpick.2
    rw [if_pos hwho] at hnew
    exact ⟨hpick.1, rfl, hnew⟩
  · cases hacq

theorem Books.acquire {resources : List ℕ} (hb : s.Books []) (hfree : s.NotTaken (s.handle m))
    (hacq : s.acquire fresh m resources = some t) :
    t.Books [⟨t.handle m, .mode m, 0, resources⟩] ∧ t.launch_mode = s.launch_mode := by
  obtain ⟨q, hq, rfl⟩ := Option.map_eq_some_iff.mp hacq
  obtain ⟨-, heq, hnew⟩ := hb.perfLockAcq hfree (by simp) hq
  dsimp only
  rw [Function.update_self, heq]
  exact ⟨hnew.congr rfl (by rw [heq]), rfl⟩

theorem Books.releaseRequest (hb : s.Books [l]) : (s.releaseRequest l.holder l.handle).Books [] := by
  have hl : l ∈ s.locks := (mem_own.mp (hb.own ▸ List.mem_singleton_self l)).1
  have hfind : s.locks.find? (fun k => k.handle = l.handle) = some l := by
    cases hcase : s.locks.find? (fun k => k.handle = l.handle) with
    | none => exact absurd (List.find?_eq_none.mp hcase l hl) (by simp)
    | some k =>
      have heq : k.handle = l.handle := by simpa using List.find?_some hcase
      rw [List.inj_on_of_nodup_map hb.nodup (List.mem_of_find?_eq_some hcase) hl heq]
  have hgone := hb.filter fun k => k.handle ≠ l.handle
  refine ⟨hgone.nodup, ?_, hgone.own.trans (by simp)⟩
  simp only [PowerModes.releaseRequest, hfind]
  rintro r (- | ⟨-, hr⟩)
  · rfl
  · exact hb.released r hr

theorem NotTaken.releaseRequest (hfree : s.NotTaken h) (k : ℤ) : (s.releaseRequest who k).NotTaken h :=
  fun l hl => hfree l (List.mem_of_mem_filter hl)

/-! ### The invariant -/

/-- What the HAL holds for the modes. -/
inductive Inv (s : PowerModes) : Prop
  | idle (hon : ∀ m, s.on m = false) (hbooks : s.Books [])
  | launch (hon : ∀ m, s.on m = false) (hlaunch : s.launch_mode = true) (resources : List ℕ)
      (hbooks : s.Books [⟨s.launch_handle, .launch, 5000, resources⟩])
  | alone (m : PerfMode) (hon : s.on m = true) (hoff : s.on m.other = false) (hlaunch : s.launch_mode = false)
      (resources : List ℕ) (hmem : resources ∈ [m.resources, m.backResources])
      (hbooks : s.Books [⟨s.handle m, .mode m, 0, resources⟩])
  | both (hon : ∀ m, s.on m = true) (hlaunch : s.launch_mode = false)
      (hbooks : s.Books [⟨s.handle s.last, .mode s.last, 0, bothResources⟩])

variable {e : Event}

theorem Inv.lawful (h : s.Inv) : s.Lawful := by
  cases h with
  | idle hon hbooks => exact ⟨hbooks.released, by simp [hon, hbooks.own]⟩
  | launch hon hlaunch resources hbooks => exact ⟨hbooks.released, by simp [hon, hbooks.own]⟩
  | alone m hon hoff hlaunch resources hmem hbooks =>
    refine ⟨hbooks.released, ?_⟩
    rw [hbooks.own]
    cases m <;> simp_all [lists, PerfMode.other]
  | both hon hlaunch hbooks => exact ⟨hbooks.released, by simp [hon, hbooks.own, lists]⟩

theorem Inv.of_books (h : s.Inv) (hbooks : ∀ ls, s.Books ls → t.Books ls) (hon : t.on = s.on)
    (hhandle : t.handle = s.handle) (hlaunch : t.launch_mode = s.launch_mode)
    (hlast : t.last = s.last) (hlaunched : t.launch_handle = s.launch_handle) : t.Inv := by
  cases h with
  | idle h₁ h₂ => exact .idle (hon ▸ h₁) (hbooks _ h₂)
  | launch h₁ h₂ r h₃ => exact .launch (hon ▸ h₁) (hlaunch ▸ h₂) r (hlaunched ▸ hbooks _ h₃)
  | alone m h₁ h₂ h₃ r h₄ h₅ => exact .alone m (hon ▸ h₁) (hon ▸ h₂) (hlaunch ▸ h₃) r h₄ (hhandle ▸ hbooks _ h₅)
  | both h₁ h₂ h₃ => exact .both (hon ▸ h₁) (hlaunch ▸ h₂) (hhandle ▸ hlast ▸ hbooks _ h₃)

theorem Inv.turnOn (h : s.Inv) (hoff : s.on m = false) (hfree : s.NotTaken (s.handle m))
    (hin : s.on m.other = false → s.InProgress) (ht : s.modeHint m true fresh = some t) : t.Inv := by
  rw [modeHint, if_pos (by simp [hoff])] at ht
  obtain ⟨u, hu, rfl⟩ := Option.map_eq_some_iff.mp ht
  have alone : s.on m.other = false → ∀ {v : PowerModes}, v.Books [] → v.launch_mode = false →
      v.NotTaken (v.handle m) → v.acquire fresh m m.resources = some u →
      Inv { u with on := Function.update s.on m true, last := m } := by
    intro hother v hv hlaunch hvfree hacq
    obtain ⟨hbooks, hmode⟩ := hv.acquire hvfree hacq
    refine .alone m (Function.update_self ..) ?_ (hmode.trans hlaunch) _ List.mem_cons_self (hbooks.congr rfl rfl)
    exact (Function.update_of_ne m.other_ne ..).trans hother
  cases h with
  | idle hon hbooks =>
    rw [if_neg (by simp [hon]), endLaunch] at hu
    by_cases hlaunch : s.launch_mode = true
    · obtain ⟨l, hl, hholder⟩ := hin (hon _) hlaunch
      exact absurd (hbooks.own ▸ mem_own.mpr ⟨hl, by simp [hholder]⟩) List.not_mem_nil
    · rw [if_neg hlaunch] at hu
      exact alone (hon _) hbooks (by simpa using hlaunch) hfree hu
  | launch hon hlaunch resources hbooks =>
    rw [if_neg (by simp [hon]), endLaunch, if_pos hlaunch] at hu
    have hgone : (s.releaseRequest .launch s.launch_handle).NotTaken (s.handle m) := hfree.releaseRequest _
    exact alone (hon _) (v := { s.releaseRequest .launch s.launch_handle with launch_mode := false })
      (hbooks.releaseRequest.congr rfl rfl) rfl hgone hu
  | alone k hon hother hlaunch resources hmem hbooks =>
    obtain rfl : k = m.other := (m.eq_or_other k).resolve_left fun heq => by simp_all
    rw [if_pos hon] at hu
    obtain ⟨hnew, hmode⟩ := hbooks.releaseRequest.acquire (hfree.releaseRequest _) hu
    refine .both (fun k => ?_) (hmode.trans hlaunch) (hnew.congr rfl rfl)
    rcases m.eq_or_other k with rfl | rfl
    · exact Function.update_self ..
    · exact (Function.update_of_ne m.other_ne ..).trans hon
  | both hon hlaunch hbooks => exact absurd (hon m) (by simp [hoff])

theorem Inv.turnOff (h : s.Inv) {data : Bool} (hnot : ¬ (data && !s.on m) = true) (hon : s.on m = true)
    (hlast : s.on m.other = true → s.last = m ∧ s.NotTaken (s.handle m.other))
    (ht : s.modeHint m data fresh = some t) : t.Inv := by
  rw [modeHint, if_neg hnot, if_pos hon] at ht
  obtain ⟨u, hu, rfl⟩ := Option.map_eq_some_iff.mp ht
  cases h with
  | idle hoff hbooks => exact absurd hon (by simp [hoff])
  | launch hoff hlaunch resources hbooks => exact absurd hon (by simp [hoff])
  | alone k hk hother hlaunch resources hmem hbooks =>
    obtain rfl : k = m := (m.eq_or_other k).resolve_right fun heq => by simp_all
    rw [if_neg (by simp [hother])] at hu
    cases hu
    refine .idle (fun j => ?_) (hbooks.releaseRequest.congr rfl rfl)
    rcases k.eq_or_other j with rfl | rfl
    · exact Function.update_self ..
    · exact (Function.update_of_ne k.other_ne ..).trans hother
  | both hall hlaunch hbooks =>
    obtain ⟨rfl, hfree⟩ := hlast (hall _)
    rw [if_pos (hall _)] at hu
    obtain ⟨hnew, hmode⟩ := hbooks.releaseRequest.acquire (hfree.releaseRequest _) hu
    refine .alone s.last.other ?_ ?_ (hmode.trans hlaunch) _ (by simp) (hnew.congr rfl rfl)
    · exact (Function.update_of_ne (PerfMode.other_ne _) ..).trans (hall _)
    · rw [PerfMode.other_other]
      exact Function.update_self ..

theorem Inv.launchHint {data : Bool} {governor : Governor} (h : s.Inv)
    (hc : s.Careful (.launch data governor fresh)) (ht : s.launchHint data governor fresh = some t) : t.Inv := by
  have idle : ∀ {u : PowerModes}, (∀ m, s.on m = false) → u.on = s.on → u.Books [] → u.Inv :=
    fun hon heq hbooks => .idle (heq ▸ hon) hbooks
  rw [PowerModes.launchHint] at ht
  split at ht
  · cases ht
    exact h
  · rename_i hoff
    obtain ⟨hs, hv⟩ : s.on .sustained = false ∧ s.on .vr = false := by simpa using hoff
    have hon : ∀ m, s.on m = false := fun m => by cases m <;> assumption
    replace hc := hc hs hv
    cases h with
    | idle _ hbooks =>
      split at ht
      · rename_i hstart
        obtain ⟨rfl, hlaunch⟩ : data = true ∧ s.launch_mode = false := by simpa using hstart
        split at ht
        · cases ht
          exact .idle hon (hbooks.congr rfl rfl)
        · rename_i resources hres
          obtain ⟨q, hq, rfl⟩ := Option.map_eq_some_iff.mp ht
          obtain ⟨hpos, heq, hnew⟩ := hbooks.perfLockAcq (hc hlaunch (by simp [hres])) (by simp) hq
          refine .launch ?_ (by simpa using hpos) resources (hnew.congr rfl rfl)
          rw [heq]
          exact hon
      · split at ht
        · rename_i hend
          obtain ⟨rfl, hlaunch⟩ : data = false ∧ s.launch_mode = true := by simpa using hend
          obtain ⟨l, hl, hholder⟩ := hc hlaunch
          exact absurd (hbooks.own ▸ mem_own.mpr ⟨hl, by simp [hholder]⟩) List.not_mem_nil
        · cases ht
          exact .idle hon hbooks
    | launch _ hlaunch resources hbooks =>
      rw [if_neg (by simp [hlaunch])] at ht
      split at ht
      · cases ht
        exact .idle hon (hbooks.releaseRequest.congr rfl rfl)
      · cases ht
        exact .launch hon hlaunch resources hbooks
    | alone m hm => exact absurd hm (by simp [hon])
    | both hall => exact absurd (hall .vr) (by simp [hon])

/-- **What every step keeps.** -/
theorem Inv.step (h : s.Inv) (hc : s.Careful e) (ht : s.step e = some t) : t.Inv := by
  cases e with
  | mode m data fresh =>
    rw [PowerModes.step] at ht
    by_cases hstart : data = true ∧ s.on m = false
    · rw [Careful, if_pos hstart] at hc
      obtain ⟨rfl, hoff⟩ := hstart
      exact h.turnOn hoff hc.1 hc.2 ht
    · rw [Careful, if_neg hstart] at hc
      have hnot : ¬ (data && !s.on m) = true := by simpa using hstart
      cases hon : s.on m with
      | true => exact h.turnOff hnot hon (hc hon) ht
      | false =>
        rw [modeHint, if_neg hnot, if_neg (by simp [hon])] at ht
        cases ht
        exact h
  | launch data governor fresh => exact h.launchHint hc ht
  | timeout j =>
    cases ht
    have left : ∀ {ls}, s.Books ls → _ := fun hb => hb.filter fun l => l.handle ≠ j ∨ l.duration = 0
    cases h with
    | idle hon hbooks => exact .idle hon (left hbooks)
    | launch hon hlaunch resources hbooks =>
      by_cases hj : s.launch_handle = j
      · exact .idle hon (by simpa [hj] using left hbooks)
      · exact .launch hon hlaunch resources (by simpa [hj] using left hbooks)
    | alone m hon hoff hlaunch resources hmem hbooks =>
      exact .alone m hon hoff hlaunch resources hmem (by simpa using left hbooks)
    | both hon hlaunch hbooks => exact .both hon hlaunch (by simpa using left hbooks)
  | clientAcquires fresh duration resources =>
    rw [PowerModes.step] at ht
    split at ht
    · rename_i hpick
      cases ht
      exact h.of_books (fun ls hb => hb.cons hpick.2) rfl rfl rfl rfl rfl
    · cases ht
  | clientReleases j =>
    cases ht
    refine h.of_books (fun ls hb => ?_) rfl rfl rfl rfl rfl
    have hleft := hb.filter fun l => l.handle ≠ j ∨ l.holder ≠ .client
    have hall : ls.filter (fun l => l.handle ≠ j ∨ l.holder ≠ .client) = ls := by
      refine List.filter_eq_self.mpr fun l hl => ?_
      simp [(mem_own.mp (hb.own.symm ▸ hl)).2]
    exact hall ▸ hleft

theorem inv_init : Inv {} := .idle (fun _ => rfl) ⟨List.nodup_nil, nofun, rfl⟩

/-- **The locks of the modes** are those that belong to them in every run whose steps are careful. -/
theorem lawful_of_careful {es : List Event} (h : Run (guarded Careful (fires step)) {} es s) : s.Lawful :=
  (h.invariant (fun _ _ _ hinv hstep => hinv.step hstep.1 hstep.2) inv_init).lawful

/-- VR mode, then also sustained mode, which is left first. -/
theorem lawful_nested : ∃ s, Run (guarded Careful (fires step)) {}
    [.mode .vr true 1, .mode .sustained true 2, .mode .sustained false 3] s ∧ s.on .vr = true ∧ s.Lawful :=
  (exists_run (P := fun s => s.on .vr = true) (by decide +kernel)).imp fun _ h => ⟨h.1, h.2, lawful_of_careful h.1⟩

/-- VR mode, then also sustained mode; VR mode is left first, with the lock that was released for sustained mode. -/
theorem not_lawful_crossed : ∃ s, Run (fires step) {}
    [.mode .vr true 1, .mode .sustained true 2, .mode .vr false 3] s ∧ ¬ s.Lawful :=
  (exists_run_fires (P := fun s => ¬ ∀ r ∈ s.releases, r.2 = some r.1) (by decide +kernel)).imp fun _ h =>
    ⟨h.1, fun hlawful => h.2 hlawful.released⟩

end PowerModes

end Marlin
