import Marlin.FixedWidth
import Marlin.StepLaws
import Marlin.Timespec

/-!
# Boosts for Interactions

`power_hint` acquires a lock of some seconds for an interaction, unless the lock of the last hint lasts longer.

## Conventions

* Outside the sustained and the VR mode, with the library present. Whether the governor can be read and whether the
  library acquires the lock is taken from the environment. A time is one of the monotonic clock.
* `acquired` has the time and the duration of the boosts that were acquired, and `failed` says that the last one was
  not. The code has neither.

## Main results

* `covered_of_recorded`: where a hint is skipped only if a boost covers it, and else boosted for its own duration.
-/

namespace Marlin

open FixedWidth StepLaws

/-- A `POWER_HINT_INTERACTION` at some time, whether the governor can be read, and whether the lock is acquired. -/
structure InteractionHint where
  time : Timespec
  data : Option ℤ := none
  governor : Bool := true
  acquires : Bool := true

/-- The duration that the hint should have, in milliseconds. -/
def InteractionHint.wanted (h : InteractionHint) : ℤ :=
  match h.data with
  | none => 1500
  | some data => min 5750 (max 1500 (data + 750))

/-- `duration`. -/
def InteractionHint.duration (h : InteractionHint) : ℤ :=
  match h.data with
  | none => 1500
  | some data =>
    let input := toInt32 (data + 750)
    if 1500 < input then if 5750 < input then 5750 else input else 1500

/-- The addition does not overflow. -/
def InteractionHint.Fits (h : InteractionHint) : Prop := ∀ data ∈ h.data, data + 750 < 2 ^ 31

/-- The time is one of the clock, and the data is an `int`. -/
def InteractionHint.WellFormed (h : InteractionHint) : Prop :=
  0 ≤ h.time.tvSec ∧ 0 ≤ h.time.tvNsec ∧ ∀ data ∈ h.data, InInt32 data

theorem InteractionHint.duration_eq {h : InteractionHint} (hwf : h.WellFormed) (hfits : h.Fits) :
    h.duration = h.wanted := by
  obtain ⟨-, -, hdata⟩ := hwf
  rw [duration, wanted]
  cases heq : h.data with
  | none => rfl
  | some data =>
    have hlow := (hdata data heq).1
    have hhigh := hfits data heq
    simp only [toInt32_eq (show InInt32 (data + 750) from ⟨by omega, hhigh⟩)]
    omega

/-- The static variables of the boosts. -/
structure Boosts where
  s_previous_boost_timespec : Timespec := {}
  s_previous_duration : ℤ := 0
  acquired : List (Timespec × ℤ) := []
  failed : Bool := false

namespace Boosts

variable {s : Boosts} {h : InteractionHint}

/-- The last hint's duration covers that of the hint. -/
def suppresses (s : Boosts) (h : InteractionHint) : Bool :=
  decide (s.s_previous_boost_timespec.calcTimespanUs h.time + h.duration * 1000 < s.s_previous_duration * 1000)

/-- The duration for which `perf_lock_acq` is called. -/
def call (s : Boosts) (h : InteractionHint) : Option ℤ :=
  if !h.governor || s.suppresses h then none else some h.duration

/-- `power_hint`, for an interaction. -/
def step (s : Boosts) (h : InteractionHint) : Boosts :=
  match s.call h with
  | none => s
  | some duration =>
    { s_previous_boost_timespec := h.time
      s_previous_duration := duration
      acquired := if h.acquires then (h.time, duration) :: s.acquired else s.acquired
      failed := !h.acquires }

/-- **The hint is covered**: it is skipped only if a boost that was acquired lasts as long, and else the boost is for
the duration that it should have. -/
def Covered (s : Boosts) (h : InteractionHint) : Prop :=
  match s.call h with
  | none => ∃ b ∈ s.acquired, h.time.toNsecs + h.wanted * 1000000 ≤ b.1.toNsecs + b.2 * 1000000
  | some duration => duration = h.wanted

/-- **The condition**: the governor can be read, the duration does not overflow, and the hint is not suppressed for a
boost that was not acquired. -/
def Recorded (s : Boosts) (h : InteractionHint) : Prop :=
  h.governor = true ∧ h.Fits ∧ (s.failed = true → s.suppresses h = false)

/-- What is recorded is a boost that was acquired, if the last one was. -/
def Inv (s : Boosts) : Prop :=
  s.failed = false → (s.s_previous_boost_timespec, s.s_previous_duration) ∈ s.acquired ∨
    s.s_previous_boost_timespec = {} ∧ s.s_previous_duration = 0

theorem Inv.step (hs : s.Inv) (h : InteractionHint) : (s.step h).Inv := by
  rw [Boosts.step]
  cases s.call h with
  | none => exact hs
  | some duration =>
    intro hfailed
    have hacquires : h.acquires = true := by simpa using hfailed
    exact .inl (by simp [hacquires])

theorem Inv.covered (hs : s.Inv) (hwf : h.WellFormed) (hrec : s.Recorded h) : s.Covered h := by
  obtain ⟨hgovernor, hfits, hacq⟩ := hrec
  have hduration := h.duration_eq hwf hfits
  simp only [Covered, call, hgovernor, Bool.not_true, Bool.false_or]
  cases hcase : s.suppresses h with
  | false => simpa using hduration
  | true =>
    have hlt : s.s_previous_boost_timespec.calcTimespanUs h.time + h.duration * 1000 <
        s.s_previous_duration * 1000 := of_decide_eq_true hcase
    have hns := s.s_previous_boost_timespec.toNsecs_lt h.time
    have hnotFailed : s.failed = false := eq_false_of_ne_true fun hf => by simp [hacq hf] at hcase
    rcases hs hnotFailed with hmem | ⟨hstart, hzero⟩
    · refine ⟨_, hmem, ?_⟩
      dsimp only
      omega
    · -- before the first hint nothing is recorded that could cover it
      have hpos : 1500 ≤ h.wanted := by
        rw [InteractionHint.wanted]
        split
        · exact Int.le_refl _
        · omega
      have htime : 0 ≤ h.time.toNsecs := by
        obtain ⟨hsec, hnsec, -⟩ := hwf
        simp only [Timespec.toNsecs]
        omega
      rw [hstart] at hns hlt
      have hzeroNs : ({} : Timespec).toNsecs = 0 := rfl
      omega

/-- **Every hint is covered**, as long as the record is that of a boost that was acquired. -/
theorem covered_of_recorded {hs : List InteractionHint} (hwf : ∀ h ∈ hs, h.WellFormed)
    (hrec : Along step Recorded {} hs) : Along step Covered {} hs :=
  along_imp (I := Inv) (C := Recorded) (fun s h hinv hwf hrec => (hinv.covered hwf hrec : s.Covered h))
    (fun _ h hinv _ _ => hinv.step h) (fun _ => .inr ⟨rfl, rfl⟩) hwf hrec

/-- A hint for 5 seconds and one within them. -/
theorem covered_within : Along step Covered {} [{ time := ⟨1, 0⟩, data := some 5000 }, { time := ⟨2, 0⟩ }] :=
  covered_of_recorded (by simp [InteractionHint.WellFormed, InInt32])
    ⟨⟨rfl, by simp [InteractionHint.Fits], nofun⟩, ⟨rfl, nofun, nofun⟩, trivial⟩

/-- The boost for 5 seconds is not acquired, and a hint within them is skipped. -/
theorem not_covered_refused : ¬ Along step Covered {}
    [{ time := ⟨1, 0⟩, data := some 5000, acquires := false }, { time := ⟨2, 0⟩ }] := by
  rintro ⟨-, ⟨b, hb, -⟩, -⟩
  exact List.not_mem_nil hb

end Boosts

end Marlin
