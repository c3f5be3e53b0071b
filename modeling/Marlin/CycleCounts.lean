import Mathlib.Algebra.Order.Ring.Int
import Marlin.StepLaws

/-!
# The Cycle Counts of the Battery

The hardware loses its counts when the battery is taken out. The health service keeps them in a file: at a reboot
`Restore` reads the file and the hardware, at a `Backup` it reads the hardware, and where one of the two is behind, it
is written. A read that fails leaves the array as it was, and `Restore` begins with zeros. Where the storage cannot be
read and the hardware has counted, the lower counts of the hardware are written to the file.

## Conventions

* A file is the eight numbers in it, zeros if there is none. A read that fails half way stores the numbers before.
* The hardware may have any counts at a reboot; afterwards it counts upwards.

## Main results

* `updateAndSave_persist`, `updateAndSave_sram`: both files hold the maximum.
* `kept_run`: no count goes backwards, as long as each `Restore` finds the counts that the storage has.
-/

namespace Marlin

open StepLaws

abbrev kBucketCount : ℕ := 8

abbrev Bins := Fin kBucketCount → ℤ

/-- How a read of a file ends. -/
inductive BinsRead
  | ok
  | failed
  | malformed (values : List ℤ) (short : values.length < kBucketCount)

/-- The array behind a read of a file. -/
def BinsRead.into (file bins : Bins) : BinsRead → Bins
  | .ok => file
  | .failed => bins
  | .malformed values _ => fun i => values[i.val]?.getD (bins i)

/-- The arrays of the service. -/
structure CycleCountBackupRestore where
  swBins : Bins := 0
  hwBins : Bins := 0

namespace CycleCountBackupRestore

def readFromStorage (b : CycleCountBackupRestore) (file : Bins) (read : BinsRead) : CycleCountBackupRestore :=
  { b with swBins := read.into file b.swBins }

def readFromSRAM (b : CycleCountBackupRestore) (file : Bins) (read : BinsRead) : CycleCountBackupRestore :=
  { b with hwBins := read.into file b.hwBins }

end CycleCountBackupRestore

/-- The service, which runs from the first boot on, and the two files. -/
structure CycleCounts where
  service : Option CycleCountBackupRestore := none
  persist : Bins := 0
  sram : Bins := 0

/-- What happens. -/
inductive CountEvent
  | reboot (hw : Bins) (storage sram : BinsRead)
  | backup (sram : BinsRead)
  | count (more : Fin kBucketCount → ℕ)

namespace CycleCounts

/-- The loop of `UpdateAndSave` looks at each bin alone. -/
def updateAndSave (s : CycleCounts) (b : CycleCountBackupRestore) : CycleCounts :=
  let hwBins : Bins := fun i => if b.hwBins i < b.swBins i then b.swBins i else b.hwBins i
  let swBins : Bins := fun i => if b.hwBins i > b.swBins i then b.hwBins i else b.swBins i
  { service := some ⟨swBins, hwBins⟩
    sram := if ∃ i, b.hwBins i < b.swBins i then hwBins else s.sram
    persist := if ∃ i, b.hwBins i > b.swBins i then swBins else s.persist }

def restore (s : CycleCounts) (storage sram : BinsRead) : CycleCounts :=
  s.updateAndSave ((({} : CycleCountBackupRestore).readFromStorage s.persist storage).readFromSRAM s.sram sram)

def backup (s : CycleCounts) (sram : BinsRead) : CycleCounts :=
  match s.service with
  | none => s
  | some b => s.updateAndSave (b.readFromSRAM s.sram sram)

/-- One step. -/
def step (s : CycleCounts) : CountEvent → CycleCounts
  | .reboot hw storage sram => { s with sram := hw }.restore storage sram
  | .backup sram => s.backup sram
  | .count more => { s with sram := fun i => s.sram i + more i }

/-- **No count goes backwards**, and where the reads succeed both files hold the maximum. -/
def Kept (s : CycleCounts) (e : CountEvent) : Prop :=
  s.persist ≤ (s.step e).persist ∧
  match e with
  | .reboot hw .ok .ok => (s.step e).persist = s.persist ⊔ hw ∧ (s.step e).sram = s.persist ⊔ hw
  | .backup .ok =>
    s.service ≠ none → (s.step e).persist = s.persist ⊔ s.sram ∧ (s.step e).sram = s.persist ⊔ s.sram
  | _ => True

/-- **The condition**: a `Restore` finds the counts that the storage has, as it does where the read succeeds. -/
def Found (s : CycleCounts) : CountEvent → Prop
  | .reboot _ storage _ => storage.into s.persist 0 = s.persist
  | _ => True

/-- The service knows what is in the storage. -/
def Inv (s : CycleCounts) : Prop := ∀ b ∈ s.service, b.swBins = s.persist

variable {s : CycleCounts} {b : CycleCountBackupRestore} {e : CountEvent}

/-- The storage gets the maximum. -/
theorem updateAndSave_persist (h : b.swBins = s.persist) : (s.updateAndSave b).persist = s.persist ⊔ b.hwBins := by
  funext i
  rw [← h, Pi.sup_apply, updateAndSave]
  dsimp only
  split_ifs with hbackup
  · dsimp only
    split <;> omega
  · have hi := not_exists.mp hbackup i
    rw [← h]
    omega

/-- The hardware gets the maximum. -/
theorem updateAndSave_sram (h : b.hwBins = s.sram) : (s.updateAndSave b).sram = b.swBins ⊔ s.sram := by
  funext i
  rw [← h, Pi.sup_apply, updateAndSave]
  dsimp only
  split_ifs with hrestore
  · dsimp only
    split <;> omega
  · have hi := not_exists.mp hrestore i
    rw [← h]
    omega

theorem updateAndSave_inv (h : b.swBins = s.persist) : (s.updateAndSave b).Inv := by
  rintro b' ⟨⟩
  rw [updateAndSave_persist h, ← h]
  funext i
  rw [Pi.sup_apply]
  dsimp only
  split <;> omega

theorem Inv.step (hinv : s.Inv) (hfound : s.Found e) : (s.step e).Inv := by
  cases e with
  | reboot => exact updateAndSave_inv hfound
  | backup =>
    cases hs : s.service with
    | none =>
      rw [CycleCounts.step, backup, hs]
      exact hinv
    | some b =>
      rw [CycleCounts.step, backup, hs]
      exact updateAndSave_inv (hinv b hs)
  | count => exact hinv

theorem Inv.kept (hinv : s.Inv) (hfound : s.Found e) : s.Kept e := by
  cases e with
  | reboot hw storage sram =>
    have hpersist := updateAndSave_persist (s := { s with sram := hw })
      (b := ⟨storage.into s.persist 0, sram.into hw 0⟩) hfound
    refine ⟨le_sup_left.trans_eq hpersist.symm, ?_⟩
    cases storage <;> cases sram <;> first | exact ⟨hpersist, updateAndSave_sram rfl⟩ | trivial
  | backup sram =>
    cases hs : s.service with
    | none =>
      rw [Kept.eq_def, CycleCounts.step, backup, hs]
      refine ⟨le_rfl, ?_⟩
      cases sram <;> first | exact fun h => absurd rfl h | trivial
    | some b =>
      have hb := hinv b hs
      have hpersist := updateAndSave_persist (b := b.readFromSRAM s.sram sram) hb
      rw [Kept.eq_def, CycleCounts.step, backup, hs]
      refine ⟨le_sup_left.trans_eq hpersist.symm, ?_⟩
      cases sram <;> first | exact fun _ => ⟨hpersist, hb ▸ updateAndSave_sram rfl⟩ | trivial
  | count => exact ⟨le_rfl, trivial⟩

/-- **In every run** in which each `Restore` finds what the storage has. -/
theorem kept_run (persist sram : Bins) (events : List CountEvent)
    (hfound : Along step Found ⟨none, persist, sram⟩ events) : Along step Kept ⟨none, persist, sram⟩ events :=
  along_imp (I := Inv) (D := fun _ => True) (fun _ _ hs _ he => hs.kept he) (fun _ _ hs _ he => hs.step he)
    (fun b h => (Option.some_ne_none b h.symm).elim) (fun _ _ => trivial) hfound

/-- The counts of a battery that was taken out are restored, and a failing read of the hardware does no harm. -/
theorem kept_restored : Along step Kept ⟨none, fun _ => 5, 0⟩
    [.reboot (fun _ => 2) .ok .ok, .count fun _ => 1, .backup .failed] :=
  kept_run _ _ _ ⟨rfl, trivial, trivial, trivial⟩

/-- The storage has 5 cycles, cannot be read at the reboot, and the hardware has counted 2. -/
theorem not_kept_failed : ¬ Along step Kept ⟨none, fun _ => 5, fun _ => 5⟩ [.reboot (fun _ => 2) .failed .ok] := by
  rintro ⟨⟨hle, -⟩, -⟩
  exact absurd (hle 0) (by decide)

end CycleCounts

end Marlin
