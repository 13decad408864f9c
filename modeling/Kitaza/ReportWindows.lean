import Std.Data.String.ToInt
import Kitaza.BillingPlan

/-!
# Reporting windows

The periods the dashboard offers, resolved against the owner's local day: an
offset in minutes east of UTC shifts the clock, and the period starts at the
local midnight of today, of this week's Monday, or of the first of the month.
-/

namespace Kitaza.ReportWindows

open Primitives Calendar BillingPlan

/-- The reporting windows the dashboard offers. -/
inductive ReportPeriod where
  | today
  | week
  | month
  deriving DecidableEq, Repr

/-- A period in the key of a remembered summary. -/
def ReportPeriod.asCacheKey : ReportPeriod → String
  | .today => "today"
  | .week => "week"
  | .month => "month"

/-- A window of time. -/
structure DateRange where
  /-- Where it starts. -/
  start : Timestamp
  /-- Where it ends; not part of it. -/
  ends : Timestamp
  deriving DecidableEq, Repr

/-- A minute. -/
def MINUTE : ℤ := 60 * SECOND

/-- The day of the calendar the Unix epoch starts. -/
def EPOCH_DAY : ℤ := yearStart 1970

/-- The local day of an instant, counted from the Unix epoch. -/
def localDay (utcOffsetMinutes : ℤ) (now : Timestamp) : ℤ :=
  (now + utcOffsetMinutes * MINUTE) / DAY

/-- The days since the last Monday; the Unix epoch was a Thursday. -/
def daysFromMonday (day : ℤ) : ℤ := (day + 3) % 7

/-- The local day a period starts with. -/
def firstDay (period : ReportPeriod) (today : ℤ) : ℤ :=
  match period with
  | .today => today
  | .week => today - daysFromMonday today
  | .month => monthStart (monthOf (today + EPOCH_DAY)) - EPOCH_DAY

/-- A period against the owner's local day boundary. -/
def forPeriod (period : ReportPeriod) (utcOffsetMinutes : ℤ) (now : Timestamp) : DateRange where
  start := firstDay period (localDay utcOffsetMinutes now) * DAY - utcOffsetMinutes * MINUTE
  ends := now

/-- The window of the same length before a window. -/
def DateRange.previousWindow (range : DateRange) : DateRange where
  start := range.start - (range.ends - range.start)
  ends := range.start

/-- An instant lies in a window. -/
def DateRange.Covers (range : DateRange) (instant : Timestamp) : Prop :=
  range.start ≤ instant ∧ instant < range.ends

instance (range : DateRange) (instant : Timestamp) : Decidable (range.Covers instant) :=
  inferInstanceAs (Decidable (_ ∧ _))

/-- A period starts no later than today. -/
theorem firstDay_le (period : ReportPeriod) (today : ℤ) : firstDay period today ≤ today := by
  cases period with
  | today => exact le_rfl
  | week =>
    have hpos := Int.emod_nonneg (today + 3) (show (7 : ℤ) ≠ 0 by decide)
    simp only [firstDay, daysFromMonday]
    omega
  | month =>
    have hspec := (monthOf_spec (today + EPOCH_DAY)).1
    simp only [firstDay]
    omega

/-- 10:00 on 22 September 2026 in Manila is still the 22nd; the day began at
16:00 UTC on the 21st. -/
example : forPeriod .today 480 (1790042400 * SECOND) =
    ⟨1790006400 * SECOND, 1790042400 * SECOND⟩ := by decide

end Kitaza.ReportWindows
