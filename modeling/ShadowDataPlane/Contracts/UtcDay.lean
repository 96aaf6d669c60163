import Mathlib.Order.Basic
import Mathlib.Tactic.NormNum

/-!
# UTC days on the nanosecond clock

Every timestamp of the data plane is a count of nanoseconds since the Unix
epoch, here a `Nat`.  A UTC date is the number of whole days since the epoch, so the
calendar of the source (`datetime.fromtimestamp(ns // 10**9, UTC).date()`)
becomes two divisions.

`midnightNs` is exact in the source as well: the floating point product it
forms is a multiple of a large power of two.
-/

namespace ShadowDataPlane.Contracts

/-- Nanoseconds in one second. -/
def nsPerSecond : Nat := 1000000000

/-- Seconds in one UTC day. -/
def secondsPerDay : Nat := 86400

/-- The first instant of a UTC date. -/
def midnightNs (utcDate : Nat) : Nat :=
  utcDate * secondsPerDay * nsPerSecond

/-- The UTC date of an instant. -/
def dateOfNs (instant : Nat) : Nat :=
  instant / nsPerSecond / secondsPerDay

theorem midnightNs_eq (utcDate : Nat) :
    midnightNs utcDate = utcDate * 86400000000000 := by
  simp only [midnightNs, secondsPerDay, nsPerSecond]
  omega

theorem dateOfNs_eq (instant : Nat) :
    dateOfNs instant = instant / 86400000000000 := by
  simp only [dateOfNs, secondsPerDay, nsPerSecond, Nat.div_div_eq_div_mul]

theorem midnightNs_succ (utcDate : Nat) :
    midnightNs (utcDate + 1) = midnightNs utcDate + 86400000000000 := by
  simp only [midnightNs_eq]
  omega

theorem midnightNs_lt_succ (utcDate : Nat) :
    midnightNs utcDate < midnightNs (utcDate + 1) := by
  rw [midnightNs_succ]
  omega

/-- An instant lies on a date exactly when it lies between its midnights. -/
theorem dateOfNs_eq_iff {instant : Nat} {utcDate : Nat} :
    dateOfNs instant = utcDate ↔
      midnightNs utcDate ≤ instant ∧ instant < midnightNs (utcDate + 1) := by
  simp only [dateOfNs_eq, midnightNs_eq]
  omega

theorem le_dateOfNs_iff {instant : Nat} {utcDate : Nat} :
    utcDate ≤ dateOfNs instant ↔ midnightNs utcDate ≤ instant := by
  simp only [dateOfNs_eq, midnightNs_eq]
  omega

@[simp]
theorem dateOfNs_midnightNs (utcDate : Nat) :
    dateOfNs (midnightNs utcDate) = utcDate :=
  dateOfNs_eq_iff.mpr ⟨le_refl _, midnightNs_lt_succ utcDate⟩

theorem midnightNs_le_midnightNs_iff {left right : Nat} :
    midnightNs left ≤ midnightNs right ↔ left ≤ right := by
  simp only [midnightNs_eq]
  omega

theorem dateOfNs_mono {left right : Nat} (ordered : left ≤ right) :
    dateOfNs left ≤ dateOfNs right := by
  simp only [dateOfNs_eq]
  exact Nat.div_le_div_right ordered

end ShadowDataPlane.Contracts
