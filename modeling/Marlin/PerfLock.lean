import Mathlib.Logic.Function.Basic
import Marlin.FixedWidth
import Marlin.StepLaws

/-!
# Performance Locks and Power Hints of the Camera

`QCameraPerfLock` holds two locks of the performance library, one without an end and one with a timer that the camera
polls, and passes power hints on to the power HAL. While a lock is held the current hint is disabled.

## Conventions

* After `lock_init`, with the library and the power HAL present. The calls are one after the other; they hold `mLock`.
* What the library answers is taken from the environment, and how many nanoseconds have passed since the last call.
  The clock stands still in a call.
* `hal` is what the power HAL was last told of each hint; `timedCall` is when `lock_acq_timed` was last called, and
  for how long. The code has neither.

## Main results

* `hints_agree_iff`: for all sequences of calls, when the hints agree with the power HAL throughout.
* `deadlines_kept`: where the timer is polled in time it does not run out early.
-/

namespace Marlin

open List Function FixedWidth StepLaws

/-- `QCameraPerfLock`. -/
structure QCameraPerfLock where
  mPerfLockEnable : Bool := true
  mPerfLockHandle : ℤ := -1
  mPerfLockHandleTimed : ℤ := -1
  mCurrentPowerHint : ℕ := 0
  mCurrentPowerHintEnable : Bool := false
  mTimerSet : Bool := false
  mPerfLockTimeout : ℤ := 0
  mStartTimeofLock : ℤ := 0
  mActivePowerHints : List ℕ := []
  hal : ℕ → Bool := fun _ => false
  clock : ℤ := 0
  timedCall : ℤ × ℤ := (0, 0)

namespace QCameraPerfLock

variable {s : QCameraPerfLock}

/-- `ns2ms`. -/
def ns2ms (t : ℤ) : ℤ := t.tdiv 1000000

/-! ### The timer -/

/-- `resetTimer`. -/
def resetTimer (s : QCameraPerfLock) : QCameraPerfLock := { s with mPerfLockTimeout := 0, mTimerSet := false }

/-- `startTimer`, whose argument is a `uint32_t`. -/
def startTimer (s : QCameraPerfLock) (timerVal : ℤ) : QCameraPerfLock :=
  { s with mStartTimeofLock := s.clock, mTimerSet := true, mPerfLockTimeout := timerVal % 2 ^ 32 }

/-- `isTimerReset`. -/
def isTimerReset (s : QCameraPerfLock) : Bool × QCameraPerfLock :=
  if s.mPerfLockEnable && s.mTimerSet then
    if s.mPerfLockTimeout < ns2ms (s.clock - s.mStartTimeofLock) then (true, s.resetTimer) else (false, s)
  else (false, s)

/-- The milliseconds that are left of the timeout, before they are cut to 32 bits. -/
def pendingTimeout (s : QCameraPerfLock) : ℤ := s.mPerfLockTimeout - ns2ms (s.clock - s.mStartTimeofLock)

/-! ### The hints and the locks -/

/-- `powerHintInternal`. -/
def powerHintInternal (s : QCameraPerfLock) (hint : ℕ) (enable : Bool) : QCameraPerfLock :=
  { s with hal := Function.update s.hal hint enable }

/-- The current hint is disabled when a lock is acquired. -/
def suspendHint (s : QCameraPerfLock) : QCameraPerfLock :=
  if s.mCurrentPowerHintEnable then s.powerHintInternal s.mCurrentPowerHint false else s

/-- `lock_acq_timed`; `acq` is the answer of the library. -/
def lockAcqTimed (s : QCameraPerfLock) (timerVal acq : ℤ) : ℤ × QCameraPerfLock :=
  if s.mPerfLockEnable then
    let timerVal := if s.mTimerSet then toInt32 (timerVal + toInt32 s.pendingTimeout) else timerVal
    let s := (s.startTimer timerVal).suspendHint
    if s.mPerfLockHandleTimed < 0 then
      if acq < 0 then (acq, s) else (acq, { s with mPerfLockHandleTimed := acq })
    else (-1, s)
  else (-1, s)

/-- `lock_acq`. -/
def lockAcq (s : QCameraPerfLock) (acq : ℤ) : ℤ × QCameraPerfLock :=
  if s.mPerfLockEnable then
    let s := s.suspendHint
    if s.mPerfLockHandle < 0 then
      if acq < 0 then (acq, s) else (acq, { s with mPerfLockHandle := acq })
    else (-1, s)
  else (-1, s)

/-- `lock_rel_timed`. -/
def lockRelTimed (s : QCameraPerfLock) (rel : ℤ) : ℤ × QCameraPerfLock :=
  if s.mPerfLockEnable then
    if s.mPerfLockHandleTimed < 0 then (-1, s)
    else
      let s := { s with mPerfLockHandleTimed := -1 }.resetTimer
      (rel, if s.mCurrentPowerHintEnable && !s.mTimerSet then
        s.powerHintInternal s.mCurrentPowerHint s.mCurrentPowerHintEnable else s)
  else (-1, s)

/-- `lock_rel`. -/
def lockRel (s : QCameraPerfLock) (rel : ℤ) : ℤ × QCameraPerfLock :=
  if s.mPerfLockEnable then
    if s.mPerfLockHandle < 0 then (-1, s)
    else
      let s := { s with mPerfLockHandle := -1 }
      (rel, if s.mCurrentPowerHintEnable then
        s.powerHintInternal s.mCurrentPowerHint s.mCurrentPowerHintEnable else s)
  else (-1, s)

/-- `powerHint`. -/
def powerHint (s : QCameraPerfLock) (hint : ℕ) (enable : Bool) : QCameraPerfLock :=
  if enable then
    if hint ≠ s.mCurrentPowerHint ∨ enable ≠ s.mCurrentPowerHintEnable then
      { s.suspendHint with
        mActivePowerHints := hint :: s.mActivePowerHints
        mCurrentPowerHint := hint
        mCurrentPowerHintEnable := enable }.powerHintInternal hint enable
    else s
  else
    let active := s.mActivePowerHints.erase hint
    if hint = s.mCurrentPowerHint then
      let s := s.powerHintInternal hint false
      match active with
      | next :: _ =>
        { s with mActivePowerHints := active, mCurrentPowerHint := next, mCurrentPowerHintEnable := true
          }.powerHintInternal next true
      | [] => { s with mActivePowerHints := [], mCurrentPowerHint := 0, mCurrentPowerHintEnable := false }
    else { s with mActivePowerHints := active }

/-! ### Calls -/

/-- A call. -/
inductive Call
  | powerHint (hint : ℕ) (enable : Bool)
  | lockAcq (acq : ℤ)
  | lockAcqTimed (timerVal acq : ℤ)
  | lockRel (rel : ℤ)
  | lockRelTimed (rel : ℤ)
  | isTimerReset

/-- Time goes on. -/
def wait (s : QCameraPerfLock) (delay : ℕ) : QCameraPerfLock := { s with clock := s.clock + delay }

/-- A call, some nanoseconds after the last one. -/
def step (s : QCameraPerfLock) (c : ℕ × Call) : QCameraPerfLock :=
  match c.2 with
  | .powerHint hint enable => (s.wait c.1).powerHint hint enable
  | .lockAcq acq => ((s.wait c.1).lockAcq acq).2
  | .lockAcqTimed timerVal acq =>
    { ((s.wait c.1).lockAcqTimed timerVal acq).2 with timedCall := (s.clock + c.1, timerVal) }
  | .lockRel rel => ((s.wait c.1).lockRel rel).2
  | .lockRelTimed rel => ((s.wait c.1).lockRelTimed rel).2
  | .isTimerReset => (s.wait c.1).isTimerReset.2

/-! ### The hints agree -/

/-- **The hints agree**: the current hint is the head of the list, no other one is enabled at the power HAL, and it is
enabled there while no lock is held. -/
structure Agrees (s : QCameraPerfLock) : Prop where
  empty : s.mActivePowerHints = [] ↔ s.mCurrentPowerHintEnable = false
  head : s.mCurrentPowerHintEnable = true → s.mActivePowerHints.head? = some s.mCurrentPowerHint
  one : ∀ hint, s.hal hint = true → s.mCurrentPowerHintEnable = true ∧ hint = s.mCurrentPowerHint
  shown : s.mPerfLockHandle < 0 → s.mPerfLockHandleTimed < 0 → s.mCurrentPowerHintEnable = true →
    s.hal s.mCurrentPowerHint = true

/-- **The condition**: a lock that is not acquired leaves the other lock held, or no hint is enabled. -/
def Spares (s : QCameraPerfLock) (c : ℕ × Call) : Prop :=
  match c.2 with
  | .lockAcq acq => s.mPerfLockHandle < 0 → acq < 0 → s.mCurrentPowerHintEnable = true → 0 ≤ s.mPerfLockHandleTimed
  | .lockAcqTimed _ acq =>
    s.mPerfLockHandleTimed < 0 → acq < 0 → s.mCurrentPowerHintEnable = true → 0 ≤ s.mPerfLockHandle
  | _ => True

/-- The hints agree, and the lock is in use. -/
structure Inv (s : QCameraPerfLock) : Prop extends Agrees s where
  enable : s.mPerfLockEnable = true

variable {t : QCameraPerfLock}

theorem Inv.of_hints (h : s.Inv) (hhandle : t.mPerfLockHandle = s.mPerfLockHandle)
    (htimed : t.mPerfLockHandleTimed = s.mPerfLockHandleTimed) (hhint : t.mCurrentPowerHint = s.mCurrentPowerHint)
    (hon : t.mCurrentPowerHintEnable = s.mCurrentPowerHintEnable) (hlist : t.mActivePowerHints = s.mActivePowerHints)
    (hhal : t.hal = s.hal) (henable : t.mPerfLockEnable = s.mPerfLockEnable) : t.Inv := by
  refine ⟨⟨?_, ?_, ?_, ?_⟩, ?_⟩
  · rw [hlist, hon]
    exact h.empty
  · rw [hlist, hon, hhint]
    exact h.head
  · rw [hhal, hon, hhint]
    exact h.one
  · rw [hhandle, htimed, hhal, hon, hhint]
    exact h.shown
  · rw [henable]
    exact h.enable

/-- What the power HAL was told when the current hint is suspended. -/
def suspendedHal (s : QCameraPerfLock) : ℕ → Bool :=
  if s.mCurrentPowerHintEnable then Function.update s.hal s.mCurrentPowerHint false else s.hal

theorem suspendHint_eq (s : QCameraPerfLock) : s.suspendHint = { s with hal := s.suspendedHal } := by
  rw [suspendHint, suspendedHal]
  split
  · rfl
  · rfl

theorem Inv.suspendedHal_eq (h : s.Inv) (hint : ℕ) : s.suspendedHal hint = false := by
  have hone := h.one hint
  rw [suspendedHal]
  split
  · rw [update_apply]
    grind
  · grind

theorem Inv.suspended {C : Prop} (h : s.Inv)
    (hC : (t.mPerfLockHandle < 0 → t.mPerfLockHandleTimed < 0 → s.mCurrentPowerHintEnable = false) ↔ C)
    (hlist : t.mActivePowerHints = s.mActivePowerHints) (hhint : t.mCurrentPowerHint = s.mCurrentPowerHint)
    (hon : t.mCurrentPowerHintEnable = s.mCurrentPowerHintEnable) (hhal : t.hal = s.suspendedHal)
    (henable : t.mPerfLockEnable = s.mPerfLockEnable) : (t.Agrees ↔ C) ∧ (t.Agrees → t.Inv) := by
  rw [← hC]
  refine ⟨⟨fun hagrees hhandle htimed => ?_, fun hspared => ⟨?_, ?_, fun hint hin => ?_,
    fun hhandle htimed hcur => ?_⟩⟩,
    fun hagrees => ⟨hagrees, henable ▸ h.enable⟩⟩
  · by_contra hcur
    have hshown := hagrees.shown hhandle htimed (by simpa [hon] using hcur)
    rw [hhal, h.suspendedHal_eq] at hshown
    cases hshown
  · rw [hlist, hon]
    exact h.empty
  · rw [hlist, hon, hhint]
    exact h.head
  · rw [hhal, h.suspendedHal_eq] at hin
    cases hin
  · rw [hon, hspared hhandle htimed] at hcur
    cases hcur

theorem Inv.resumed (h : s.Inv) (hlist : t.mActivePowerHints = s.mActivePowerHints)
    (hhint : t.mCurrentPowerHint = s.mCurrentPowerHint)
    (hon : t.mCurrentPowerHintEnable = s.mCurrentPowerHintEnable)
    (hhal : t.hal = if s.mCurrentPowerHintEnable then Function.update s.hal s.mCurrentPowerHint true else s.hal)
    (henable : t.mPerfLockEnable = s.mPerfLockEnable) : t.Inv := by
  refine ⟨⟨?_, ?_, fun hint hin => ?_, fun _ _ hcur => ?_⟩, henable ▸ h.enable⟩
  · rw [hlist, hon]
    exact h.empty
  · rw [hlist, hon, hhint]
    exact h.head
  · rw [hon, hhint]
    have hone := h.one hint
    rw [hhal] at hin
    split at hin
    · rename_i hcur
      rw [update_apply] at hin
      grind
    · exact hone hin
  · rw [hon] at hcur
    rw [hhal, if_pos hcur, hhint, update_self]

theorem inv_of_head {hal : ℕ → Bool} {rest : List ℕ} (hoff : ∀ hint, hal hint = false)
    (hlist : t.mActivePowerHints = t.mCurrentPowerHint :: rest) (hon : t.mCurrentPowerHintEnable = true)
    (hhal : t.hal = Function.update hal t.mCurrentPowerHint true) (henable : t.mPerfLockEnable = true) : t.Inv := by
  refine ⟨⟨by simp [hlist, hon], fun _ => by rw [hlist]; rfl, fun hint hin => ⟨hon, ?_⟩, fun _ _ _ => ?_⟩, henable⟩
  · by_contra hne
    rw [hhal, update_of_ne hne, hoff] at hin
    cases hin
  · rw [hhal, update_self]

theorem Inv.powerHint (h : s.Inv) (hint : ℕ) (enable : Bool) : (s.powerHint hint enable).Inv := by
  cases enable with
  | true =>
    rw [QCameraPerfLock.powerHint, if_pos rfl]
    split
    · rw [suspendHint_eq]
      exact inv_of_head h.suspendedHal_eq rfl rfl rfl h.enable
    · exact h
  | false =>
    rw [QCameraPerfLock.powerHint, if_neg (by simp)]
    by_cases hcur : hint = s.mCurrentPowerHint
    · -- the next hint of the list is enabled in its place
      have hoff : ∀ hint', update s.hal hint false hint' = false := by
        intro hint'
        have hone := h.one hint'
        rw [update_apply]
        grind
      simp only [if_pos hcur]
      cases s.mActivePowerHints.erase hint with
      | nil =>
        exact ⟨⟨by simp, nofun, fun hint' hin => absurd ((hoff hint').symm.trans hin) nofun, nofun⟩, h.enable⟩
      | cons next rest => exact inv_of_head hoff rfl rfl rfl h.enable
    · -- the current hint stays at the head
      simp only [if_neg hcur]
      have hempty := h.empty
      have hhead := h.head
      refine ⟨⟨?_, ?_, h.one, h.shown⟩, h.enable⟩
      · cases hlist : s.mActivePowerHints with
        | nil => simpa [hlist] using hempty
        | cons cur rest =>
          have hon : s.mCurrentPowerHintEnable = true := by simpa [hlist] using hempty
          obtain rfl : cur = s.mCurrentPowerHint := by simpa [hlist] using hhead hon
          simp [hon, erase_cons_tail, Ne.symm hcur]
      · intro hon
        obtain ⟨rest, hlist⟩ := head?_eq_some_iff.mp (hhead hon)
        simp [hlist, erase_cons_tail, Ne.symm hcur]

theorem Inv.wait (h : s.Inv) (delay : ℕ) : (s.wait delay).Inv := h.of_hints rfl rfl rfl rfl rfl rfl rfl

theorem lockAcq_eq (henable : s.mPerfLockEnable = true) (acq : ℤ) : (s.lockAcq acq).2 = { s with
    hal := s.suspendedHal
    mPerfLockHandle := if s.mPerfLockHandle < 0 ∧ 0 ≤ acq then acq else s.mPerfLockHandle } := by
  rw [lockAcq, if_pos henable, suspendHint_eq]
  grind

theorem lockAcqTimed_eq (henable : s.mPerfLockEnable = true) (timerVal acq : ℤ) :
    (s.lockAcqTimed timerVal acq).2 = { s with
      hal := s.suspendedHal
      mPerfLockHandleTimed := if s.mPerfLockHandleTimed < 0 ∧ 0 ≤ acq then acq else s.mPerfLockHandleTimed
      mStartTimeofLock := s.clock
      mTimerSet := true
      mPerfLockTimeout := (if s.mTimerSet then timerVal + s.pendingTimeout else timerVal) % 2 ^ 32 } := by
  have hcut : toInt32 (timerVal + toInt32 s.pendingTimeout) % 2 ^ 32 = (timerVal + s.pendingTimeout) % 2 ^ 32 := by
    simp only [toInt32, Int.add_bmod_bmod]
    exact Int.bmod_emod
  simp only [lockAcqTimed, if_pos henable, suspendHint_eq]
  grind [startTimer, suspendedHal]

theorem Inv.agrees_iff (h : s.Inv) (c : ℕ × Call) :
    ((s.step c).Agrees ↔ s.Spares c) ∧ ((s.step c).Agrees → (s.step c).Inv) := by
  obtain ⟨delay, c⟩ := c
  have kept : ∀ {t : QCameraPerfLock}, t.Inv → (t.Agrees ↔ True) ∧ (t.Agrees → t.Inv) := fun ht =>
    ⟨iff_true_intro ht.toAgrees, fun _ => ht⟩
  have hw := h.wait delay
  cases c with
  | powerHint hint enable => exact kept (hw.powerHint hint enable)
  | lockAcq acq =>
    simp only [step, lockAcq_eq hw.enable]
    refine hw.suspended ?_ rfl rfl rfl rfl rfl
    simp only [Spares, QCameraPerfLock.wait]
    grind
  | lockAcqTimed timerVal acq =>
    simp only [step, lockAcqTimed_eq hw.enable]
    refine hw.suspended ?_ rfl rfl rfl rfl rfl
    simp only [Spares, QCameraPerfLock.wait]
    grind
  | lockRel rel =>
    refine kept ?_
    simp only [step, lockRel, if_pos hw.enable]
    split
    · exact hw
    · split
      · exact hw.resumed rfl rfl rfl (by simp_all [powerHintInternal]) rfl
      · exact hw.resumed rfl rfl rfl (by simp_all) rfl
  | lockRelTimed rel =>
    refine kept ?_
    simp only [step, lockRelTimed, if_pos hw.enable]
    split
    · exact hw
    · split
      · exact hw.resumed rfl rfl rfl (by simp_all [powerHintInternal, resetTimer]) rfl
      · exact hw.resumed rfl rfl rfl (by simp_all [resetTimer]) rfl
  | isTimerReset =>
    refine kept ?_
    simp only [step, isTimerReset]
    split
    · split
      · exact hw.of_hints rfl rfl rfl rfl rfl rfl rfl
      · exact hw
    · exact hw

theorem inv_init : Inv {} := ⟨⟨by simp, nofun, nofun, nofun⟩, rfl⟩

/-- **The hints agree with the power HAL throughout**, exactly if no lock fails to be acquired while a hint is enabled
and the other lock is not held. -/
theorem hints_agree_iff (cs : List (ℕ × Call)) :
    Along step (fun s c => (s.step c).Agrees) {} cs ↔ Along step Spares {} cs :=
  along_iff (fun _ c h => (h.agrees_iff c).1) (fun _ c h hs => (h.agrees_iff c).2 ((h.agrees_iff c).1.mpr hs))
    inv_init cs

/-- The lock is not acquired, and the hint stays disabled. -/
theorem not_agree_refused :
    ¬ Along step (fun s c => (s.step c).Agrees) {} [(0, .powerHint 3 true), (0, .lockAcq (-1))] := by
  rintro ⟨-, hagrees, -⟩
  exact absurd (hagrees.shown (by decide) (by decide) (by decide)) (by decide)

/-! ### The deadlines -/

/-- **The deadlines are kept**: a poll does not find the timeout elapsed before the time that `lock_acq_timed` was last
called for, and a call before the timeout has elapsed moves the deadline by its own time. -/
def InTime (s : QCameraPerfLock) (c : ℕ × Call) : Prop :=
  match c.2 with
  | .isTimerReset => (s.wait c.1).isTimerReset.1 = true → s.timedCall.1 + s.timedCall.2 * 1000000 ≤ s.clock + c.1
  | .lockAcqTimed timerVal _ => s.mTimerSet = true → 0 ≤ (s.wait c.1).pendingTimeout →
      (s.step c).pendingTimeout = (s.wait c.1).pendingTimeout + timerVal
  | _ => True

/-- **The condition**: the timeout has not elapsed for more than a millisecond when it is extended, and the new one
fits in 32 bits. -/
def Polled (s : QCameraPerfLock) (c : ℕ × Call) : Prop :=
  match c.2 with
  | .lockAcqTimed timerVal _ => s.mTimerSet = true →
      -1 ≤ (s.wait c.1).pendingTimeout ∧ timerVal + (s.wait c.1).pendingTimeout < 2 ^ 32
  | _ => True

/-- A timeout for a positive number of milliseconds. -/
def Positive (c : ℕ × Call) : Prop :=
  match c.2 with
  | .lockAcqTimed timerVal _ => 0 < timerVal ∧ InInt32 timerVal
  | _ => True

/-- A timer that is set runs since the last call, for no less than it was called for but for a millisecond. -/
structure Timed (s : QCameraPerfLock) : Prop where
  enable : s.mPerfLockEnable = true
  start : s.mTimerSet = true → s.mStartTimeofLock = s.timedCall.1 ∧ s.timedCall.2 - 1 ≤ s.mPerfLockTimeout
  called : 0 ≤ s.timedCall.2
  past : s.mStartTimeofLock ≤ s.clock

theorem Timed.of_timer (h : s.Timed) (henable : t.mPerfLockEnable = s.mPerfLockEnable)
    (hset : t.mTimerSet = true → s.mTimerSet = true ∧ t.mPerfLockTimeout = s.mPerfLockTimeout)
    (hstart : t.mStartTimeofLock = s.mStartTimeofLock) (hcalled : t.timedCall = s.timedCall)
    (hclock : s.clock ≤ t.clock) : t.Timed := by
  refine ⟨henable ▸ h.enable, fun ht => ?_, hcalled ▸ h.called, ?_⟩
  · obtain ⟨hs, htimeout⟩ := hset ht
    rw [hstart, hcalled, htimeout]
    exact h.start hs
  · rw [hstart]
    exact Int.le_trans h.past hclock

theorem Timed.wait (h : s.Timed) (delay : ℕ) : (s.wait delay).Timed :=
  h.of_timer rfl (fun ht => ⟨ht, rfl⟩) rfl rfl (Int.le_add_of_nonneg_right (Int.natCast_nonneg delay))

theorem Timed.step (h : s.Timed) {c : ℕ × Call} (hpos : Positive c) (hc : s.Polled c) : (s.step c).Timed := by
  obtain ⟨delay, c⟩ := c
  have hw := h.wait delay
  cases c with
  | lockAcqTimed timerVal acq =>
    simp only [QCameraPerfLock.step, lockAcqTimed_eq hw.enable]
    obtain ⟨hval, hfits⟩ := hpos
    refine ⟨hw.enable, fun _ => ⟨rfl, ?_⟩, Int.le_of_lt hval, Int.le_refl _⟩
    simp only
    split
    · rename_i hset
      have hlate : -1 ≤ (s.wait delay).pendingTimeout ∧ timerVal + (s.wait delay).pendingTimeout < 2 ^ 32 := hc hset
      omega
    · have hhigh := hfits.2
      omega
  | powerHint hint enable =>
    refine hw.of_timer ?_ ?_ ?_ ?_ ?_ <;> grind [QCameraPerfLock.step, QCameraPerfLock.powerHint, powerHintInternal,
      suspendHint_eq]
  | lockAcq acq =>
    simp only [QCameraPerfLock.step, lockAcq_eq hw.enable]
    exact hw.of_timer rfl (fun ht => ⟨ht, rfl⟩) rfl rfl (Int.le_refl _)
  | lockRel rel =>
    refine hw.of_timer ?_ ?_ ?_ ?_ ?_ <;> grind [QCameraPerfLock.step, QCameraPerfLock.lockRel, powerHintInternal]
  | lockRelTimed rel =>
    refine hw.of_timer ?_ ?_ ?_ ?_ ?_ <;> grind [QCameraPerfLock.step, QCameraPerfLock.lockRelTimed,
      powerHintInternal, resetTimer]
  | isTimerReset =>
    refine hw.of_timer ?_ ?_ ?_ ?_ ?_ <;> grind [QCameraPerfLock.step, QCameraPerfLock.isTimerReset, resetTimer]

theorem Timed.inTime (h : s.Timed) {c : ℕ × Call} (hpos : Positive c) (hc : s.Polled c) : s.InTime c := by
  obtain ⟨delay, c⟩ := c
  have hw := h.wait delay
  cases c with
  | isTimerReset =>
    intro hreset
    change ((s.wait delay).isTimerReset).1 = true at hreset
    rw [QCameraPerfLock.isTimerReset] at hreset
    split at hreset
    · rename_i hset
      split at hreset
      · rename_i hlt
        obtain ⟨hstart, htimeout⟩ := hw.start (by simpa [hw.enable] using hset)
        -- more whole milliseconds have passed than the timeout
        have hms := tdiv_mul_le (d := 1000000) (by decide) (Int.sub_nonneg_of_le hw.past)
        have hmul : s.timedCall.2 * 1000000 ≤
            ns2ms ((s.wait delay).clock - (s.wait delay).mStartTimeofLock) * 1000000 :=
          Int.mul_le_mul_of_nonneg_right (by simp only [QCameraPerfLock.wait] at *; omega) (by decide)
        simp only [ns2ms, QCameraPerfLock.wait] at *
        omega
      · cases hreset
    · cases hreset
  | lockAcqTimed timerVal acq =>
    intro hset hleft
    have hcond : -1 ≤ (s.wait delay).pendingTimeout ∧ timerVal + (s.wait delay).pendingTimeout < 2 ^ 32 := hc hset
    have hval : 0 < timerVal ∧ InInt32 timerVal := hpos
    have hset' : (s.wait delay).mTimerSet = true := hset
    simp only [QCameraPerfLock.step, lockAcqTimed_eq hw.enable, if_pos hset']
    rw [QCameraPerfLock.pendingTimeout, Int.sub_self, Int.emod_eq_of_lt (by omega) hcond.2]
    simp only [ns2ms, Int.zero_tdiv]
    omega
  | powerHint hint enable => trivial
  | lockAcq acq => trivial
  | lockRel rel => trivial
  | lockRelTimed rel => trivial

theorem timed_init : Timed {} := ⟨rfl, nofun, by decide, by decide⟩

/-- **The deadlines are kept in every run** in which no timeout is extended when it has elapsed for long, or past 32
bits. -/
theorem deadlines_kept {cs : List (ℕ × Call)} (hpos : ∀ c ∈ cs, Positive c) (hpolled : Along step Polled {} cs) :
    Along step InTime {} cs :=
  along_imp (fun _ _ h hp hc => h.inTime hp hc) (fun _ _ h hp hc => h.step hp hc) timed_init hpos hpolled

/-- A timeout of 10 ms that is extended after 5 ms: it has elapsed after 21 ms, not after 20. -/
theorem deadlines_kept_extended :
    Along step InTime {} [(0, .lockAcqTimed 10 1), (5000000, .lockAcqTimed 10 1), (15000000, .isTimerReset),
      (1000000, .isTimerReset)] := by
  refine deadlines_kept (fun c hc => ?_) ?_
  · simp only [mem_cons, not_mem_nil, or_false] at hc
    rcases hc with rfl | rfl | rfl | rfl <;> trivial
  · exact ⟨nofun, fun _ => by decide, trivial, trivial, trivial⟩

/-- A timeout of 10 ms is not polled, and extended by 100 ms after 50: it has elapsed 61 ms later. -/
theorem not_in_time_unpolled :
    ¬ Along step InTime {} [(0, .lockAcqTimed 10 1), (50000000, .lockAcqTimed 100 1), (61000000, .isTimerReset)] := by
  rintro ⟨-, -, hpoll, -⟩
  exact absurd (hpoll (by decide)) (by decide)

end QCameraPerfLock

end Marlin
