import Mathlib.Algebra.Order.Ring.Int
import Mathlib.Data.Int.ConditionallyCompleteOrder
import Mathlib.Tactic.Linarith
import Mathlib.Tactic.IntervalCases

/-!
# The calendar

The proleptic Gregorian calendar on day numbers: day 0 is the first of
January of the year 0. Months are counted through, twelve a year, so that
month `12 * y + m` is month `m` of the year `y`, with January as month 0.

A month is looked up from its day by scaling the day number and stepping to
a neighbour where the scaled guess is off. Adding months to an instant keeps
the day of the month and the time of day, and takes the last day of a month
that is too short.
-/

namespace Kitaza.Calendar

/-- Leap years. -/
def isLeap (year : ℤ) : Bool := year % 4 == 0 && (year % 100 != 0 || year % 400 == 0)

/-- The day a year starts with. -/
def yearStart (year : ℤ) : ℤ :=
  365 * year + (year + 3) / 4 - (year + 99) / 100 + (year + 399) / 400

/-- The days of a year before each of its months, leap days left out. -/
def daysBefore (month : ℤ) : ℤ :=
  match month with
  | 0 => 0
  | 1 => 31
  | 2 => 59
  | 3 => 90
  | 4 => 120
  | 5 => 151
  | 6 => 181
  | 7 => 212
  | 8 => 243
  | 9 => 273
  | 10 => 304
  | _ => 334

/-- The day a month starts with. -/
def monthStart (k : ℤ) : ℤ :=
  yearStart (k / 12) + daysBefore (k % 12) + if isLeap (k / 12) && 2 ≤ k % 12 then 1 else 0

/-- The length of a month. -/
def daysIn (k : ℤ) : ℤ := monthStart (k + 1) - monthStart k

/-- The month a day lies in. -/
def monthOf (day : ℤ) : ℤ :=
  let guess := day * 4800 / 146097
  if day < monthStart guess then guess - 1
  else if monthStart (guess + 1) ≤ day then guess + 1
  else guess

/-- A day some months later. -/
def addMonthsToDay (day : ℤ) (months : ℕ) : ℤ :=
  let target := monthOf day + months
  monthStart target + min (day - monthStart (monthOf day)) (daysIn target - 1)

/-- An instant some months later, with `dayTicks` ticks to a day. -/
def addMonths (dayTicks instant : ℤ) (months : ℕ) : ℤ :=
  addMonthsToDay (instant / dayTicks) months * dayTicks + instant % dayTicks

theorem isLeap_eq_true {year : ℤ} :
    isLeap year = true ↔ year % 4 = 0 ∧ (year % 100 ≠ 0 ∨ year % 400 = 0) := by
  simp [isLeap]

theorem yearStart_succ (year : ℤ) :
    yearStart (year + 1) = yearStart year + 365 + if isLeap year then 1 else 0 := by
  by_cases hleap : isLeap year = true
  · have h := isLeap_eq_true.mp hleap
    rw [if_pos hleap, yearStart, yearStart]
    omega
  · have h := mt isLeap_eq_true.mpr hleap
    rw [if_neg hleap, yearStart, yearStart]
    omega

/-- A month as its year and its place there. -/
theorem exists_month (k : ℤ) : ∃ year month, k = 12 * year + month ∧ 0 ≤ month ∧ month < 12 :=
  ⟨k / 12, k % 12, by omega, by omega, by omega⟩

theorem monthStart_eq {year month : ℤ} (h0 : 0 ≤ month) (h12 : month < 12) :
    monthStart (12 * year + month) =
      yearStart year + daysBefore month + if isLeap year && 2 ≤ month then 1 else 0 := by
  have hyear : (12 * year + month) / 12 = year := by omega
  have hmonth : (12 * year + month) % 12 = month := by omega
  rw [monthStart, hyear, hmonth]

/-- Months have between 28 and 31 days. -/
theorem daysIn_bounds (k : ℤ) : 28 ≤ daysIn k ∧ daysIn k ≤ 31 := by
  obtain ⟨year, month, rfl, h0, h12⟩ := exists_month k
  have hnext := yearStart_succ year
  rw [daysIn, monthStart_eq h0 h12]
  by_cases hlast : month = 11
  · subst hlast
    have hjan : 12 * year + 11 + 1 = 12 * (year + 1) + 0 := by omega
    rw [hjan, monthStart_eq le_rfl (by omega), hnext]
    cases isLeap year <;> simp [daysBefore]
  · rw [add_assoc, monthStart_eq (by omega) (by omega)]
    interval_cases month <;> cases isLeap year <;> simp [daysBefore] at hlast ⊢
    omega

theorem monthStart_lt_succ (k : ℤ) : monthStart k < monthStart (k + 1) := by
  have h := (daysIn_bounds k).1
  rw [daysIn] at h
  omega

theorem monthStart_strictMono : StrictMono monthStart := strictMono_int_of_lt_succ monthStart_lt_succ

/-- Months start within four days of where equally long ones would. -/
theorem monthStart_bounds (k : ℤ) :
    146097 * k - 16800 ≤ 4800 * monthStart k ∧ 4800 * monthStart k ≤ 146097 * k + 16800 := by
  obtain ⟨year, month, rfl, h0, h12⟩ := exists_month k
  rw [monthStart_eq h0 h12, yearStart]
  have hleap : (0 : ℤ) ≤ (if isLeap year && 2 ≤ month then 1 else 0) ∧
      (if isLeap year && 2 ≤ month then 1 else 0) ≤ (1 : ℤ) := by
    split_ifs <;> omega
  generalize (if isLeap year && 2 ≤ month then 1 else 0 : ℤ) = leap at hleap
  interval_cases month <;> simp only [daysBefore] <;> omega

/-- A day lies in its month. -/
theorem monthOf_spec (day : ℤ) :
    monthStart (monthOf day) ≤ day ∧ day < monthStart (monthOf day + 1) := by
  have hguess := monthStart_bounds (day * 4800 / 146097)
  have hbefore := monthStart_bounds (day * 4800 / 146097 - 1)
  have hafter := monthStart_bounds (day * 4800 / 146097 + 1 + 1)
  rw [monthOf]
  split_ifs with hlt hle
  · rw [sub_add_cancel]
    constructor
    · omega
    · exact hlt
  · constructor
    · exact hle
    · omega
  · exact ⟨not_lt.mp hlt, not_le.mp hle⟩

/-- Some months later is a later month, and so a later day. -/
theorem lt_addMonthsToDay {day : ℤ} {months : ℕ} (h : 0 < months) :
    day < addMonthsToDay day months := by
  have hmonth := monthOf_spec day
  have hdays := (daysIn_bounds (monthOf day + months)).1
  have hnext : monthStart (monthOf day + 1) ≤ monthStart (monthOf day + months) :=
    monthStart_strictMono.monotone (by omega)
  rw [addMonthsToDay]
  omega

theorem lt_addMonths {dayTicks instant : ℤ} {months : ℕ} (hticks : 0 < dayTicks)
    (h : 0 < months) : instant < addMonths dayTicks instant months := by
  have hlater : instant / dayTicks + 1 ≤ addMonthsToDay (instant / dayTicks) months :=
    lt_addMonthsToDay h
  have hmul := mul_le_mul_of_nonneg_right hlater hticks.le
  have hsplit := Int.ediv_mul_add_emod instant dayTicks
  rw [addMonths]
  linarith

/-- Days of one month stay in order, and meet only on the last day of a month
that is too short for both. -/
theorem addMonthsToDay_le {a b : ℤ} (h : a ≤ b) (months : ℕ) :
    addMonthsToDay a months ≤ addMonthsToDay b months := by
  have ha := monthOf_spec a
  have hb := monthOf_spec b
  have hdays := (daysIn_bounds (monthOf a + months)).1
  have hdays' := (daysIn_bounds (monthOf b + months)).1
  have hmonth : monthOf a ≤ monthOf b := by
    by_contra hlt
    have hstart : monthStart (monthOf b + 1) ≤ monthStart (monthOf a) :=
      monthStart_strictMono.monotone (by omega)
    omega
  rcases hmonth.eq_or_lt with heq | hlt
  · rw [addMonthsToDay, addMonthsToDay, heq]
    omega
  · have hnext : monthStart (monthOf a + months + 1) ≤ monthStart (monthOf b + months) :=
      monthStart_strictMono.monotone (by omega)
    have hlength : daysIn (monthOf a + months) =
        monthStart (monthOf a + months + 1) - monthStart (monthOf a + months) := rfl
    rw [addMonthsToDay, addMonthsToDay]
    omega

/-- When two days meet. -/
theorem addMonthsToDay_eq_iff {a b : ℤ} (h : a < b) (months : ℕ) :
    addMonthsToDay a months = addMonthsToDay b months ↔
      monthOf a = monthOf b ∧
        daysIn (monthOf a + months) - 1 ≤ a - monthStart (monthOf a) := by
  have ha := monthOf_spec a
  have hb := monthOf_spec b
  have hdays' := (daysIn_bounds (monthOf b + months)).1
  have hlength : daysIn (monthOf a + months) =
      monthStart (monthOf a + months + 1) - monthStart (monthOf a + months) := rfl
  have hmonth : monthOf a ≤ monthOf b := by
    by_contra hlt
    have hstart : monthStart (monthOf b + 1) ≤ monthStart (monthOf a) :=
      monthStart_strictMono.monotone (by omega)
    omega
  rcases hmonth.eq_or_lt with heq | hlt
  · rw [addMonthsToDay, addMonthsToDay, ← heq]
    rw [← heq] at hb
    omega
  · have hnext : monthStart (monthOf a + months + 1) ≤ monthStart (monthOf b + months) :=
      monthStart_strictMono.monotone (by omega)
    rw [addMonthsToDay, addMonthsToDay]
    omega

/-- An instant falls on a later day of a month than another, and with some
months added both on its last day, but at an earlier time of day. -/
def Overtakes (dayTicks earlier later : ℤ) (months : ℕ) : Prop :=
  earlier / dayTicks < later / dayTicks ∧
    monthOf (earlier / dayTicks) = monthOf (later / dayTicks) ∧
    daysIn (monthOf (earlier / dayTicks) + months) - 1 ≤
      earlier / dayTicks - monthStart (monthOf (earlier / dayTicks)) ∧
    later % dayTicks < earlier % dayTicks

instance (dayTicks earlier later : ℤ) (months : ℕ) :
    Decidable (Overtakes dayTicks earlier later months) := inferInstanceAs (Decidable (_ ∧ _))

/-- Adding months keeps the order of two instants unless they meet on the
last day of a month with their times of day the other way. -/
theorem addMonths_le_iff {dayTicks a b : ℤ} (hticks : 0 < dayTicks) (h : a ≤ b) (months : ℕ) :
    addMonths dayTicks a months ≤ addMonths dayTicks b months ↔
      ¬Overtakes dayTicks a b months := by
  have hday : a / dayTicks ≤ b / dayTicks := Int.ediv_le_ediv hticks h
  have ha := Int.ediv_mul_add_emod a dayTicks
  have hb := Int.ediv_mul_add_emod b dayTicks
  have hta := Int.emod_nonneg a hticks.ne'
  have htb := Int.emod_nonneg b hticks.ne'
  have hta' := Int.emod_lt_of_pos a hticks
  rcases hday.eq_or_lt with heq | hlt
  · refine iff_of_true ?_ fun hover => hover.1.ne heq
    rw [addMonths, addMonths, heq]
    rw [heq] at ha
    linarith
  · have hmeet := addMonthsToDay_eq_iff hlt months
    rcases (addMonthsToDay_le hday months).eq_or_lt with hsame | hless
    · obtain ⟨hmonth, hlast⟩ := hmeet.mp hsame
      rw [addMonths, addMonths, hsame, add_le_add_iff_left, Overtakes]
      constructor
      · intro hle hover
        exact hover.2.2.2.not_ge hle
      · intro hno
        by_contra hgt
        exact hno ⟨hlt, hmonth, hlast, not_le.mp hgt⟩
    · refine iff_of_true ?_ fun hover => hless.ne (hmeet.mpr ⟨hover.2.1, hover.2.2.1⟩)
      have hmul := mul_le_mul_of_nonneg_right (Int.add_one_le_iff.mpr hless) hticks.le
      rw [addMonths, addMonths]
      linarith

/-- The 31st of January 2024 and a month is the 29th of February. -/
example : addMonthsToDay (monthStart (12 * 2024) + 30) 1 = monthStart (12 * 2024 + 1) + 28 := by
  decide

end Kitaza.Calendar
