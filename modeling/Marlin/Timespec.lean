import Marlin.FixedWidth

/-!
# Times of the Kernel

A `struct timespec`, the time in nanoseconds that it stands for, and the span between two of them.
-/

namespace Marlin

open FixedWidth

/-- `struct timespec`. -/
structure Timespec where
  tvSec : ℤ := 0
  tvNsec : ℤ := 0
  deriving DecidableEq

/-- The time in nanoseconds. -/
def Timespec.toNsecs (t : Timespec) : ℤ := t.tvSec * 1000000000 + t.tvNsec

/-- How the stream code splits a time. -/
def Timespec.ofNsecs (t : ℤ) : Timespec :=
  { tvSec := t.tdiv 1000000000, tvNsec := t - t.tdiv 1000000000 * 1000000000 }

@[simp] theorem Timespec.toNsecs_ofNsecs (t : ℤ) : (ofNsecs t).toNsecs = t := by
  simp only [ofNsecs, toNsecs]
  omega

/-- `calc_timespan_us`. -/
def Timespec.calcTimespanUs (start fin : Timespec) : ℤ :=
  (fin.tvSec - start.tvSec) * 1000000 + (fin.tvNsec - start.tvNsec).tdiv 1000

theorem Timespec.toNsecs_lt (start fin : Timespec) :
    fin.toNsecs - start.toNsecs < (calcTimespanUs start fin + 1) * 1000 := by
  have heq := tdiv_mul_eq (fin.tvNsec - start.tvNsec) 1000
  have hlt := Int.tmod_lt_of_pos (fin.tvNsec - start.tvNsec) (show (0 : ℤ) < 1000 by decide)
  simp only [toNsecs, calcTimespanUs]
  omega

end Marlin
