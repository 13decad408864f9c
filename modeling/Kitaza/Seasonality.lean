import Mathlib.Algebra.Order.BigOperators.Group.List
import Mathlib.Algebra.Order.Field.Basic
import Mathlib.Algebra.BigOperators.Ring.Finset
import Mathlib.Algebra.BigOperators.Ring.List
import Kitaza.Rounding
import Kitaza.TimestampText

/-!
# When a store sells

Paydays are the fifteenth and the last day of a month, and the days around them
are payday weeks. What a store takes in payday weeks is compared with the rest
of its days, and the weekday it does best on with all of them. The figures are
doubles, so two averages are told apart when more than roundings lies between
them.
-/

namespace Kitaza.Seasonality

open Calendar FloatRounding ReportWindows Rounding TimestampText

/-- The day of the month of a local day. -/
def date (day : ℤ) : ℤ := dayOfMonth (day + EPOCH_DAY)

/-- The local day with a date in a month; dates before the first and after the
last carry over. -/
def dayIn (month date : ℤ) : ℤ := monthStart month + (date - 1) - EPOCH_DAY

/-- The date of the last day of a local day's month. -/
def lastDay (day : ℤ) : ℤ := date (dayIn (monthOf (day + EPOCH_DAY) + 1) 0)

/-- The days around the fifteenth and the end of the month. -/
def isPaydayWeek (day : ℤ) : Bool :=
  (13 ≤ date day && date day ≤ 17) || lastDay day - 3 ≤ date day || date day ≤ 2

/-- The next payday itself: the fifteenth, or the last day of the month. -/
def nextPayday (day : ℤ) : ℤ :=
  let month := monthOf (day + EPOCH_DAY)
  if date day < 15 then dayIn month 15
  else if date day < lastDay day then dayIn month (lastDay day)
  else dayIn (month + 1) 15

/-- The last day of a month. -/
def MonthEnd (day : ℤ) : Prop := date day = lastDay day

/-- A payday. -/
def Payday (day : ℤ) : Prop := date day = 15 ∨ MonthEnd day

theorem monthOf_eq {k day : ℤ} (h : monthStart k ≤ day) (h' : day < monthStart (k + 1)) :
    monthOf day = k := by
  obtain ⟨hle, hlt⟩ := monthOf_spec day
  have hbefore := monthStart_strictMono.lt_iff_lt.mp (hle.trans_lt h')
  have hafter := monthStart_strictMono.lt_iff_lt.mp (h.trans_lt hlt)
  omega

theorem monthOf_dayIn {k d : ℤ} (h : 1 ≤ d) (h' : d ≤ daysIn k) : monthOf (dayIn k d + EPOCH_DAY) = k := by
  rw [daysIn] at h'
  apply monthOf_eq <;> simp only [dayIn] <;> omega

theorem date_dayIn {k d : ℤ} (h : 1 ≤ d) (h' : d ≤ daysIn k) : date (dayIn k d) = d := by
  rw [date, dayOfMonth, monthOf_dayIn h h', dayIn]
  omega

/-- A month is as long as its last date. -/
theorem lastDay_eq (day : ℤ) : lastDay day = daysIn (monthOf (day + EPOCH_DAY)) := by
  have hlength := daysIn_bounds (monthOf (day + EPOCH_DAY))
  have hlast : dayIn (monthOf (day + EPOCH_DAY) + 1) 0 =
      dayIn (monthOf (day + EPOCH_DAY)) (daysIn (monthOf (day + EPOCH_DAY))) := by
    rw [dayIn, dayIn, daysIn]
    omega
  rw [lastDay, hlast, date_dayIn (by omega) le_rfl]

/-- A local day by its month and date. -/
theorem eq_dayIn (day : ℤ) : day = dayIn (monthOf (day + EPOCH_DAY)) (date day) := by
  rw [date, dayOfMonth, dayIn]
  omega

theorem date_bounds (day : ℤ) : 1 ≤ date day ∧ date day ≤ lastDay day := by
  obtain ⟨hle, hlt⟩ := monthOf_spec (day + EPOCH_DAY)
  rw [lastDay_eq, daysIn, date, dayOfMonth]
  omega

theorem payday_dayIn {k d : ℤ} (h : 1 ≤ d) (h' : d ≤ daysIn k) :
    Payday (dayIn k d) ↔ d = 15 ∨ d = daysIn k := by
  rw [Payday, MonthEnd, lastDay_eq, monthOf_dayIn h h', date_dayIn h h']

/-- A day of an earlier month comes before. -/
theorem dayIn_lt_dayIn {k l d e : ℤ} (h : k < l) (hd : d ≤ daysIn k) (he : 1 ≤ e) :
    dayIn k d < dayIn l e := by
  have hstart : monthStart (k + 1) ≤ monthStart l := monthStart_strictMono.monotone (by omega)
  rw [daysIn] at hd
  rw [dayIn, dayIn]
  omega

/-- The next payday is one, it is later, and no other comes before it. -/
theorem nextPayday_spec (day : ℤ) : Payday (nextPayday day) ∧ day < nextPayday day ∧
    ∀ payday, Payday payday → day < payday → nextPayday day ≤ payday := by
  have hday := eq_dayIn day
  have hdate := date_bounds day
  have hlast := lastDay_eq day
  have hlength := daysIn_bounds (monthOf (day + EPOCH_DAY))
  rw [nextPayday]
  generalize monthOf (day + EPOCH_DAY) = k at *
  generalize date day = d at *
  rw [hlast] at hdate ⊢
  have hlater : ∀ {payday}, Payday payday → day < payday → ∀ {l e}, payday = dayIn l e →
      1 ≤ e → e ≤ daysIn l → k ≤ l ∧ (l = k → d < e) ∧ (e = 15 ∨ e = daysIn l) := by
    rintro payday hpayday hlt l e rfl he he'
    refine ⟨?_, ?_, (payday_dayIn he he').mp hpayday⟩
    · by_contra hl
      have := dayIn_lt_dayIn (not_le.mp hl) he' hdate.1
      omega
    · rintro rfl
      rw [hday, dayIn, dayIn] at hlt
      omega
  -- a payday in a month and at a date
  have hsplit : ∀ payday, ∃ l e, payday = dayIn l e ∧ 1 ≤ e ∧ e ≤ daysIn l := fun payday =>
    ⟨_, _, eq_dayIn payday, (date_bounds payday).1, lastDay_eq payday ▸ (date_bounds payday).2⟩
  split_ifs with hfirst hsecond
  · refine ⟨(payday_dayIn (by omega) (by omega)).mpr (.inl rfl), ?_, fun payday hp hlt => ?_⟩
    · rw [hday, dayIn, dayIn]
      omega
    · obtain ⟨l, e, rfl, he, he'⟩ := hsplit payday
      obtain ⟨hkl, hsame, hor⟩ := hlater hp hlt rfl he he'
      rcases hkl.eq_or_lt with rfl | hkl
      · rw [dayIn, dayIn]
        omega
      · exact (dayIn_lt_dayIn hkl (by omega) he).le
  · refine ⟨(payday_dayIn (by omega) le_rfl).mpr (.inr rfl), ?_, fun payday hp hlt => ?_⟩
    · rw [hday, dayIn, dayIn]
      omega
    · obtain ⟨l, e, rfl, he, he'⟩ := hsplit payday
      obtain ⟨hkl, hsame, hor⟩ := hlater hp hlt rfl he he'
      rcases hkl.eq_or_lt with rfl | hkl
      · have := hsame rfl
        rw [dayIn, dayIn]
        omega
      · exact (dayIn_lt_dayIn hkl le_rfl he).le
  · have hnext := daysIn_bounds (k + 1)
    refine ⟨(payday_dayIn (by omega) (by omega)).mpr (.inl rfl), ?_, fun payday hp hlt => ?_⟩
    · rw [hday]
      exact dayIn_lt_dayIn (by omega) hdate.2 (by omega)
    · obtain ⟨l, e, rfl, he, he'⟩ := hsplit payday
      obtain ⟨hkl, hsame, hor⟩ := hlater hp hlt rfl he he'
      rcases hkl.eq_or_lt with rfl | hkl
      · have := hsame rfl
        omega
      · rcases (Int.add_one_le_iff.mpr hkl).eq_or_lt with rfl | hkl
        · rw [dayIn, dayIn]
          omega
        · exact (dayIn_lt_dayIn hkl (by omega) he).le

/-- A day is in a payday week when it is within two days of a fifteenth, or from
three days before to two days after the last day of a month. -/
theorem isPaydayWeek_iff (day : ℤ) : isPaydayWeek day = true ↔ ∃ payday,
    date payday = 15 ∧ payday - 2 ≤ day ∧ day ≤ payday + 2 ∨
      MonthEnd payday ∧ payday - 3 ≤ day ∧ day ≤ payday + 2 := by
  have hday := eq_dayIn day
  have hdate := date_bounds day
  have hlast := lastDay_eq day
  have hlength := daysIn_bounds (monthOf (day + EPOCH_DAY))
  have hbefore := daysIn_bounds (monthOf (day + EPOCH_DAY) - 1)
  rw [isPaydayWeek, Bool.or_eq_true, Bool.or_eq_true, Bool.and_eq_true]
  simp only [decide_eq_true_eq]
  generalize monthOf (day + EPOCH_DAY) = k at *
  generalize date day = d at *
  rw [hlast] at hdate ⊢
  have hprevious : monthStart k = monthStart (k - 1) + daysIn (k - 1) := by
    rw [daysIn, sub_add_cancel]
    omega
  have hends : ∀ {l}, MonthEnd (dayIn l (daysIn l)) := fun {l} => by
    have := daysIn_bounds l
    rw [MonthEnd, lastDay_eq, monthOf_dayIn (by omega) le_rfl, date_dayIn (by omega) le_rfl]
  constructor
  · rintro ((hmiddle | hend) | hstart)
    · refine ⟨dayIn k 15, .inl ⟨date_dayIn (by omega) (by omega), ?_⟩⟩
      rw [hday, dayIn, dayIn]
      omega
    · refine ⟨dayIn k (daysIn k), .inr ⟨hends, ?_⟩⟩
      rw [hday, dayIn, dayIn]
      omega
    · refine ⟨dayIn (k - 1) (daysIn (k - 1)), .inr ⟨hends, ?_⟩⟩
      rw [hday, dayIn, dayIn]
      omega
  · rintro ⟨payday, hpayday⟩
    have hp := eq_dayIn payday
    have hpdate := date_bounds payday
    have hplast := lastDay_eq payday
    have hplength := daysIn_bounds (monthOf (payday + EPOCH_DAY))
    rw [MonthEnd] at hpayday
    generalize monthOf (payday + EPOCH_DAY) = l at *
    generalize date payday = e at *
    rw [hplast] at hpdate hpayday
    have hdef : daysIn k = monthStart (k + 1) - monthStart k := rfl
    have hldef : daysIn l = monthStart (l + 1) - monthStart l := rfl
    rw [dayIn] at hday hp
    rcases lt_trichotomy l k with hlt | rfl | hgt
    · have hle : monthStart (l + 1) ≤ monthStart k := monthStart_strictMono.monotone (by omega)
      omega
    · omega
    · have hle : monthStart (k + 1) ≤ monthStart l := monthStart_strictMono.monotone (by omega)
      omega

/-- On every day: the next payday is one, it is later, and no other comes before
it; and the day is in a payday week when it is within two days of a fifteenth,
or from three days before to two days after the last day of a month. -/
theorem paydays_found (day : ℤ) :
    (Payday (nextPayday day) ∧ day < nextPayday day ∧
      ∀ payday, Payday payday → day < payday → nextPayday day ≤ payday) ∧
    (isPaydayWeek day = true ↔ ∃ payday,
      date payday = 15 ∧ payday - 2 ≤ day ∧ day ≤ payday + 2 ∨
        MonthEnd payday ∧ payday - 3 ≤ day ∧ day ≤ payday + 2) :=
  ⟨nextPayday_spec day, isPaydayWeek_iff day⟩

/-- The day after the end of February 2028 is in a payday week, and the next
payday is the fifteenth of March. -/
example : isPaydayWeek (dayIn (12 * 2028 + 2) 1) = true ∧
    nextPayday (dayIn (12 * 2028 + 1) 29) = dayIn (12 * 2028 + 2) 15 := by decide

/-- How much better payday weeks are for a store than the rest of the month. -/
structure PaydayPattern where
  /-- How much more a day of theirs takes. -/
  upliftPercent : ℚ
  /-- How many of their days took something. -/
  paydayDays : ℕ
  /-- How many of the others. -/
  otherDays : ℕ
  deriving DecidableEq, Repr

namespace PaydayPattern

/-- Nothing to compare. -/
def none : PaydayPattern := ⟨0, 0, 0⟩

/-- Enough of both kinds of day, and a difference big enough to act on. -/
def isReliable (pattern : PaydayPattern) : Bool :=
  6 ≤ pattern.paydayDays && 12 ≤ pattern.otherDays && 15 ≤ |pattern.upliftPercent|

end PaydayPattern

/-- The takings of some days. -/
def takings (days : List (ℤ × ℚ)) : ℚ := (days.map Prod.snd).sum

/-- What a day took on average. -/
def average (days : List (ℤ × ℚ)) : ℚ := takings days / days.length

/-- The totals and counts of both kinds of day. -/
structure PaydayTotals where
  /-- Taken in payday weeks. -/
  paydayTotal : ℚ
  /-- Taken on other days. -/
  otherTotal : ℚ
  /-- Days in payday weeks. -/
  paydayDays : ℕ
  /-- Other days. -/
  otherDays : ℕ

/-- Count one more day; its takings are read as a double. -/
def countDay (totals : PaydayTotals) (entry : ℤ × ℚ) : PaydayTotals :=
  if isPaydayWeek entry.1 then
    { totals with
      paydayTotal := double (totals.paydayTotal + double entry.2), paydayDays := totals.paydayDays + 1 }
  else
    { totals with
      otherTotal := double (totals.otherTotal + double entry.2), otherDays := totals.otherDays + 1 }

/-- By how many percent one average is above another. -/
def percentAbove (average overall : ℚ) : ℚ :=
  double (double (double (average / overall) - 1) * 100)

/-- Compares takings on payday weeks with the rest of the month. -/
def detectPaydayPattern (dailySales : List (ℤ × ℚ)) : PaydayPattern :=
  let totals := dailySales.foldl countDay ⟨0, 0, 0, 0⟩
  if totals.paydayDays = 0 ∨ totals.otherDays = 0 then .none
  else
    let otherAverage := double (totals.otherTotal / totals.otherDays)
    if otherAverage ≤ 0 then .none
    else
      let paydayAverage := double (totals.paydayTotal / totals.paydayDays)
      ⟨percentAbove paydayAverage otherAverage, totals.paydayDays, totals.otherDays⟩

/-- The days of payday weeks. -/
def paydays (dailySales : List (ℤ × ℚ)) : List (ℤ × ℚ) :=
  dailySales.filter fun entry => isPaydayWeek entry.1

/-- The other days. -/
def otherDays (dailySales : List (ℤ × ℚ)) : List (ℤ × ℚ) :=
  dailySales.filter fun entry => !isPaydayWeek entry.1

/-- The takings of some days as the phone adds them up. -/
def takingsAsDouble (days : List (ℤ × ℚ)) : ℚ := doubleSum (days.map Prod.snd)

/-- What the phone has for the average of some days. -/
def averageAsDouble (days : List (ℤ × ℚ)) : ℚ := double (takingsAsDouble days / days.length)

/-- As far as two averages of some days can be apart by roundings alone, and then
some. -/
def margin (days : List (ℤ × ℚ)) : ℚ := slack 53 ^ (4 * days.length + 26)

/-- Two figures that are further apart. -/
def Apart (margin x y : ℚ) : Prop := x * margin < y ∨ y * margin < x

instance (margin x y : ℚ) : Decidable (Apart margin x y) := inferInstanceAs (Decidable (_ ∨ _))

theorem takingsAsDouble_concat (days : List (ℤ × ℚ)) (entry : ℤ × ℚ) :
    takingsAsDouble (days ++ [entry]) = double (takingsAsDouble days + double entry.2) := by
  rw [takingsAsDouble, List.map_append]
  exact doubleSum_concat _ _

theorem nonneg_takings {days : List (ℤ × ℚ)} (hpos : ∀ entry ∈ days, 0 ≤ entry.2) :
    ∀ x ∈ days.map Prod.snd, 0 ≤ x := by
  intro x hx
  obtain ⟨entry, hentry, rfl⟩ := List.mem_map.mp hx
  exact hpos entry hentry

theorem averageAsDouble_near {days : List (ℤ × ℚ)} (hne : days ≠ [])
    (hpos : ∀ entry ∈ days, 0 ≤ entry.2) : 0 ≤ averageAsDouble days ∧
      Near 53 (days.length + 2) (averageAsDouble days) (average days) := by
  have hne' : days.map Prod.snd ≠ [] := by simpa using hne
  have h := doubleAverage_near hne' (nonneg_takings hpos)
  rw [List.length_map] at h
  rw [averageAsDouble, takingsAsDouble, average, takings, ← List.length_map Prod.snd]
  rwa [← List.length_map Prod.snd] at h

section

variable (dailySales : List (ℤ × ℚ))

theorem foldl_countDay : dailySales.foldl countDay ⟨0, 0, 0, 0⟩ =
    ⟨takingsAsDouble (paydays dailySales), takingsAsDouble (otherDays dailySales),
      (paydays dailySales).length, (otherDays dailySales).length⟩ := by
  induction dailySales using List.reverseRecOn with
  | nil => rfl
  | append_singleton days entry ih =>
    rw [List.foldl_concat, ih, countDay]
    cases hweek : isPaydayWeek entry.1 <;>
      simp [paydays, otherDays, hweek, takingsAsDouble_concat]

theorem takings_split : takings dailySales = takings (paydays dailySales) + takings (otherDays dailySales) := by
  induction dailySales with
  | nil => simp [takings, paydays, otherDays]
  | cons entry days ih =>
    cases hweek : isPaydayWeek entry.1 <;>
      simp only [takings, paydays, otherDays, List.map_cons, List.sum_cons, List.filter_cons, hweek,
        Bool.not_true, Bool.not_false, if_true, Bool.false_eq_true, if_false] at ih ⊢ <;>
      linarith

theorem length_split :
    dailySales.length = (paydays dailySales).length + (otherDays dailySales).length :=
  List.length_eq_length_filter_add _

/-- What the days took is their average over all of them. -/
theorem average_mul {days : List (ℤ × ℚ)} (h : days ≠ []) :
    takings days = average days * days.length := by
  have hlength : (days.length : ℚ) ≠ 0 := by
    rwa [Nat.cast_ne_zero, Ne, List.length_eq_zero_iff]
  rw [average, div_mul_cancel₀ _ hlength]

theorem length_pos {days : List (ℤ × ℚ)} (h : days ≠ []) : (0 : ℚ) < days.length := by
  rw [Nat.cast_pos]
  exact List.length_pos_of_ne_nil h

theorem average_nonneg {days : List (ℤ × ℚ)} (hpos : ∀ entry ∈ days, 0 ≤ entry.2) :
    0 ≤ average days :=
  div_nonneg (List.sum_nonneg (nonneg_takings hpos)) (Nat.cast_nonneg _)

/-- The average of all days is between those of both kinds. -/
theorem average_between (hpaydays : paydays dailySales ≠ []) (hothers : otherDays dailySales ≠ []) :
    (average (otherDays dailySales) ≤ average dailySales ↔
      average dailySales ≤ average (paydays dailySales)) ∧
    (average (paydays dailySales) ≤ average dailySales ↔
      average dailySales ≤ average (otherDays dailySales)) := by
  have hall : (dailySales.length : ℚ) =
      (paydays dailySales).length + (otherDays dailySales).length := by
    rw [length_split dailySales]
    push_cast
    rfl
  have hp := length_pos hpaydays
  have ho := length_pos hothers
  have hdays : dailySales ≠ [] := by
    rintro rfl
    exact hpaydays rfl
  have htakings : average dailySales * dailySales.length =
      average (paydays dailySales) * (paydays dailySales).length +
        average (otherDays dailySales) * (otherDays dailySales).length := by
    rw [← average_mul hpaydays, ← average_mul hothers, ← average_mul hdays]
    exact takings_split dailySales
  rw [hall] at htakings
  -- what one kind is above the average the other is below
  have hbalance : (average dailySales - average (otherDays dailySales)) *
      (otherDays dailySales).length =
      (average (paydays dailySales) - average dailySales) * (paydays dailySales).length := by
    linarith
  refine ⟨⟨fun h => ?_, fun h => ?_⟩, fun h => ?_, fun h => ?_⟩
  · exact sub_nonneg.mp (nonneg_of_mul_nonneg_left
      (hbalance ▸ mul_nonneg (sub_nonneg.mpr h) ho.le) hp)
  · exact sub_nonneg.mp (nonneg_of_mul_nonneg_left
      (hbalance ▸ mul_nonneg (sub_nonneg.mpr h) hp.le) ho)
  · have hle := mul_nonneg (sub_nonneg.mpr h) hp.le
    exact sub_nonneg.mp (nonneg_of_mul_nonneg_left (by linarith) ho)
  · have hle := mul_nonneg (sub_nonneg.mpr h) ho.le
    exact sub_nonneg.mp (nonneg_of_mul_nonneg_left (by linarith) hp)

/-- There is a pattern when both kinds of day took something and the others did
not lose. -/
theorem detectPaydayPattern_eq : detectPaydayPattern dailySales =
    if paydays dailySales = [] ∨ otherDays dailySales = [] ∨
        averageAsDouble (otherDays dailySales) ≤ 0 then
      .none
    else
      ⟨percentAbove (averageAsDouble (paydays dailySales)) (averageAsDouble (otherDays dailySales)),
        (paydays dailySales).length, (otherDays dailySales).length⟩ := by
  rw [detectPaydayPattern, foldl_countDay, averageAsDouble, averageAsDouble]
  dsimp only
  simp only [List.length_eq_zero_iff]
  split_ifs with h h' h' <;> tauto

/-- An uplift is one of the figure before it is put in percent. -/
theorem percentAbove_pos_iff (average overall : ℚ) :
    0 < percentAbove average overall ↔ 1 < double (average / overall) := by
  rw [percentAbove, double_pos_iff, mul_pos_iff_of_pos_right (by norm_num), double_pos_iff, sub_pos]

/-- What is divided before it is put in percent is near to the exact ratio. -/
theorem ratio_near {days others : List (ℤ × ℚ)} (hne : days ≠ []) (hothers : others ≠ [])
    (hpos : ∀ entry ∈ days, 0 ≤ entry.2) (hpos' : ∀ entry ∈ others, 0 ≤ entry.2)
    (htook : 0 < average others) :
    0 ≤ double (averageAsDouble days / averageAsDouble others) ∧
      Near 53 (days.length + others.length + 5)
        (double (averageAsDouble days / averageAsDouble others)) (average days / average others) := by
  obtain ⟨hdays, hnear⟩ := averageAsDouble_near hne hpos
  obtain ⟨-, hnear'⟩ := averageAsDouble_near hothers hpos'
  have htook' : 0 < averageAsDouble others := hnear'.gt (by rwa [zero_mul])
  have hquotient : 0 ≤ averageAsDouble days / averageAsDouble others := div_nonneg hdays htook'.le
  have hdiv := hnear.div hnear' htook' htook hdays (average_nonneg hpos)
  have hround := (near_double hquotient).trans hdiv
  have hcount : 1 + (days.length + 2 + (others.length + 2)) = days.length + others.length + 5 := by
    omega
  rw [hcount] at hround
  exact ⟨double_nonneg hquotient, hround⟩

theorem one_le_margin (days : List (ℤ × ℚ)) : 1 ≤ margin days := one_le_pow₀ (one_le_slack 53)

/-- When payday weeks and all days are apart, an uplift is there exactly when
payday weeks are better. -/
theorem uplift_pos_iff (hpos : ∀ entry ∈ dailySales, 0 ≤ entry.2)
    (hpaydays : paydays dailySales ≠ []) (hothers : otherDays dailySales ≠ [])
    (htook : 0 < average (otherDays dailySales))
    (hapart : Apart (margin dailySales) (average dailySales) (average (paydays dailySales))) :
    0 < (detectPaydayPattern dailySales).upliftPercent ↔
      average dailySales < average (paydays dailySales) := by
  have hposp : ∀ entry ∈ paydays dailySales, 0 ≤ entry.2 := fun entry h =>
    hpos entry (List.mem_of_mem_filter h)
  have hposo : ∀ entry ∈ otherDays dailySales, 0 ≤ entry.2 := fun entry h =>
    hpos entry (List.mem_of_mem_filter h)
  have htook' : 0 < averageAsDouble (otherDays dailySales) :=
    (averageAsDouble_near hothers hposo).2.gt (by rwa [zero_mul])
  have hnot : ¬(paydays dailySales = [] ∨ otherDays dailySales = [] ∨
      averageAsDouble (otherDays dailySales) ≤ 0) := by
    rintro (h | h | h)
    · exact hpaydays h
    · exact hothers h
    · exact htook'.not_ge h
  obtain ⟨hratio, hnear⟩ := ratio_near hpaydays hothers hposp hposo htook
  have hfew : (paydays dailySales).length + (otherDays dailySales).length + 5 ≤
      4 * dailySales.length + 26 := by
    have := length_split dailySales
    omega
  have hnear' : Near 53 (4 * dailySales.length + 26)
      (double (averageAsDouble (paydays dailySales) / averageAsDouble (otherDays dailySales)))
      (average (paydays dailySales) / average (otherDays dailySales)) :=
    hnear.mono hratio (div_nonneg (average_nonneg hposp) htook.le) hfew
  have hone := one_le_margin dailySales
  have hmargin : 0 < margin dailySales := zero_lt_one.trans_le hone
  rw [detectPaydayPattern_eq, if_neg hnot, percentAbove_pos_iff]
  rcases hapart with hbetter | hworse
  · have hlt : average dailySales < average (paydays dailySales) :=
      (le_mul_of_one_le_right (average_nonneg hpos) hone).trans_lt hbetter
    have hbelow := (average_between dailySales hpaydays hothers).1.mpr hlt.le
    refine iff_of_true (hnear'.gt ?_) hlt
    rw [one_mul, lt_div_iff₀ htook, mul_comm]
    exact (mul_le_mul_of_nonneg_right hbelow hmargin.le).trans_lt hbetter
  · have hlt : average (paydays dailySales) < average dailySales :=
      (le_mul_of_one_le_right (average_nonneg hposp) hone).trans_lt hworse
    have habove := (average_between dailySales hpaydays hothers).2.mp hlt.le
    refine iff_of_false (hnear'.lt ?_).not_gt hlt.not_gt
    rw [div_mul_eq_mul_div, div_lt_one htook]
    exact hworse.trans_le habove

end

/-- The day of the week a store does best. -/
structure BusiestDay where
  /-- The weekday, Monday being 1. -/
  weekday : ℤ
  /-- How far it is above the average of all days. -/
  upliftPercent : ℚ
  /-- How many of them took something. -/
  samples : ℕ
  deriving DecidableEq, Repr

/-- Whether one stands out. -/
def BusiestDay.isReliable (busiest : BusiestDay) : Bool :=
  3 ≤ busiest.samples && 20 ≤ busiest.upliftPercent

/-- The weekday of a local day, Monday being 1. -/
def weekday (day : ℤ) : ℤ := daysFromMonday day + 1

/-- What the days of one weekday took. -/
structure WeekdayTotal where
  /-- The weekday. -/
  weekday : ℤ
  /-- What they took. -/
  total : ℚ
  /-- How many there are. -/
  count : ℕ
  deriving DecidableEq, Repr

/-- Count one more day; a weekday that was not met yet goes last. -/
def countWeekday : List WeekdayTotal → ℤ × ℚ → List WeekdayTotal
  | [], entry => [⟨weekday entry.1, double (0 + double entry.2), 1⟩]
  | row :: rest, entry =>
    if row.weekday = weekday entry.1 then
      ⟨row.weekday, double (row.total + double entry.2), row.count + 1⟩ :: rest
    else row :: countWeekday rest entry

/-- How far a weekday is above the average of all days. -/
def uplift (overall : ℚ) (row : WeekdayTotal) : ℚ :=
  percentAbove (double (row.total / row.count)) overall

/-- Take a weekday that is better than the best so far. -/
def better (overall : ℚ) (best : Option BusiestDay) (row : WeekdayTotal) : Option BusiestDay :=
  match best with
  | none => some ⟨row.weekday, uplift overall row, row.count⟩
  | some b =>
    if b.upliftPercent < uplift overall row then
      some ⟨row.weekday, uplift overall row, row.count⟩
    else some b

/-- Which weekday is furthest above the store's own average. -/
def busiestWeekday (dailySales : List (ℤ × ℚ)) : Option BusiestDay :=
  if dailySales.length < 21 then none
  else
    let total := dailySales.foldl (fun sum entry => double (sum + double entry.2)) (0 : ℚ)
    let overall := double (total / dailySales.length)
    if overall ≤ 0 then none
    else (dailySales.foldl countWeekday []).foldl (better overall) none

/-- The days of one weekday. -/
def daysOn (dailySales : List (ℤ × ℚ)) (w : ℤ) : List (ℤ × ℚ) :=
  dailySales.filter fun entry => weekday entry.1 = w

/-- The totals by weekday are those of the days. -/
structure Tallied (dailySales : List (ℤ × ℚ)) (rows : List WeekdayTotal) : Prop where
  /-- A weekday has one total. -/
  nodup : (rows.map WeekdayTotal.weekday).Nodup
  /-- The weekdays that took something have one. -/
  covers : ∀ w, w ∈ rows.map WeekdayTotal.weekday ↔ daysOn dailySales w ≠ []
  /-- It is that of its days. -/
  totals : ∀ row ∈ rows, row.total = takingsAsDouble (daysOn dailySales row.weekday) ∧
    row.count = (daysOn dailySales row.weekday).length

theorem countWeekday_spec (rows : List WeekdayTotal) (entry : ℤ × ℚ)
    (hnodup : (rows.map WeekdayTotal.weekday).Nodup) :
    ((countWeekday rows entry).map WeekdayTotal.weekday).Nodup ∧
      (∀ row ∈ countWeekday rows entry,
        row.weekday ≠ weekday entry.1 ∧ row ∈ rows ∨
        row.weekday = weekday entry.1 ∧
          ((∃ old ∈ rows, old.weekday = weekday entry.1 ∧
              row.total = double (old.total + double entry.2) ∧ row.count = old.count + 1) ∨
            weekday entry.1 ∉ rows.map WeekdayTotal.weekday ∧
              row.total = double (0 + double entry.2) ∧ row.count = 1)) ∧
      ∀ w, w ∈ (countWeekday rows entry).map WeekdayTotal.weekday ↔
        w ∈ rows.map WeekdayTotal.weekday ∨ w = weekday entry.1 := by
  induction rows with
  | nil => simp [countWeekday]
  | cons first rest ih =>
    obtain ⟨hnot, hrest⟩ := List.nodup_cons.mp hnodup
    obtain ⟨ihnodup, ihrows, ihkeys⟩ := ih hrest
    rw [countWeekday]
    by_cases hfirst : first.weekday = weekday entry.1
    · rw [if_pos hfirst]
      refine ⟨hnodup, fun row hrow => ?_, fun w => ?_⟩
      · rcases List.mem_cons.mp hrow with rfl | hrow
        · exact .inr ⟨hfirst, .inl ⟨first, List.mem_cons_self, hfirst, rfl, rfl⟩⟩
        · refine .inl ⟨fun heq => hnot ?_, List.mem_cons_of_mem _ hrow⟩
          rw [hfirst, ← heq]
          exact List.mem_map_of_mem hrow
      · simp only [List.map_cons, List.mem_cons, hfirst]
        tauto
    · rw [if_neg hfirst]
      refine ⟨?_, fun row hrow => ?_, fun w => ?_⟩
      · rw [List.map_cons, List.nodup_cons, ihkeys]
        exact ⟨fun hor => hor.elim hnot hfirst, ihnodup⟩
      · rcases List.mem_cons.mp hrow with rfl | hrow
        · exact .inl ⟨hfirst, List.mem_cons_self⟩
        · rcases ihrows row hrow with ⟨hne, hmem⟩ | ⟨heq, hold | ⟨hnew, htotal⟩⟩
          · exact .inl ⟨hne, List.mem_cons_of_mem _ hmem⟩
          · obtain ⟨old, hmem, hrest⟩ := hold
            exact .inr ⟨heq, .inl ⟨old, List.mem_cons_of_mem _ hmem, hrest⟩⟩
          · refine .inr ⟨heq, .inr ⟨?_, htotal⟩⟩
            rw [List.map_cons, List.mem_cons, not_or]
            exact ⟨Ne.symm hfirst, hnew⟩
      · simp only [List.map_cons, List.mem_cons, ihkeys]
        tauto

theorem daysOn_concat (dailySales : List (ℤ × ℚ)) (entry : ℤ × ℚ) (w : ℤ) :
    daysOn (dailySales ++ [entry]) w =
      daysOn dailySales w ++ if weekday entry.1 = w then [entry] else [] := by
  rw [daysOn, List.filter_append]
  by_cases h : weekday entry.1 = w <;> simp [daysOn, h]

/-- Counting day by day comes to the totals of the days. -/
theorem tallied (dailySales : List (ℤ × ℚ)) : Tallied dailySales (dailySales.foldl countWeekday []) := by
  induction dailySales using List.reverseRecOn with
  | nil => exact ⟨List.nodup_nil, fun w => by simp [daysOn], nofun⟩
  | append_singleton days entry ih =>
    obtain ⟨hnodup, hrows, hkeys⟩ := countWeekday_spec _ entry ih.nodup
    rw [List.foldl_concat]
    refine ⟨hnodup, fun w => ?_, fun row hrow => ?_⟩
    · rw [hkeys, ih.covers, daysOn_concat]
      by_cases hw : weekday entry.1 = w
      · simp [hw]
      · simp [hw, Ne.symm hw]
    · rw [daysOn_concat]
      rcases hrows row hrow with ⟨hne, hmem⟩ | ⟨heq, ⟨old, hmem, hold, htotal, hcount⟩ | ⟨hnew, htotal, hcount⟩⟩
      · rw [if_neg (Ne.symm hne), List.append_nil]
        exact ih.totals row hmem
      · obtain ⟨htotal', hcount'⟩ := ih.totals old hmem
        rw [hold] at htotal' hcount'
        rw [if_pos heq.symm, takingsAsDouble_concat, List.length_append, heq, htotal, hcount, htotal', hcount']
        exact ⟨rfl, rfl⟩
      · have hnone : daysOn days (weekday entry.1) = [] := by
          by_contra hsome
          exact hnew ((ih.covers _).mpr hsome)
        rw [if_pos heq.symm, heq, hnone, htotal, hcount]
        exact ⟨rfl, rfl⟩

/-- The best of some weekdays is one of them, and none is further above the
average. -/
theorem foldl_better (overall : ℚ) (rows : List WeekdayTotal) :
    (rows.foldl (better overall) none = none ↔ rows = []) ∧
      ∀ best ∈ rows.foldl (better overall) none,
        (∃ row ∈ rows, best = ⟨row.weekday, uplift overall row, row.count⟩) ∧
        ∀ row ∈ rows, uplift overall row ≤ best.upliftPercent := by
  induction rows using List.reverseRecOn with
  | nil => exact ⟨by simp, nofun⟩
  | append_singleton rows row ih =>
    obtain ⟨ihnone, ihbest⟩ := ih
    rw [List.foldl_concat]
    cases hsofar : rows.foldl (better overall) none with
    | none =>
      have hrows := ihnone.mp hsofar
      subst hrows
      refine ⟨by simp [better], fun best hbest => ?_⟩
      cases hbest
      exact ⟨⟨row, by simp, rfl⟩, fun other hother => by
        rw [List.mem_singleton.mp hother]⟩
    | some b =>
      obtain ⟨⟨first, hfirst, hb⟩, hmost⟩ := ihbest b hsofar
      rw [better]
      refine ⟨by split <;> simp, fun best hbest => ?_⟩
      split at hbest
      next hlt =>
        cases hbest
        refine ⟨⟨row, by simp, rfl⟩, fun other hother => ?_⟩
        rcases List.mem_append.mp hother with hother | hother
        · exact (hmost other hother).trans hlt.le
        · rw [List.mem_singleton.mp hother]
      next hge =>
        cases hbest
        refine ⟨⟨first, List.mem_append_left _ hfirst, hb⟩, fun other hother => ?_⟩
        rcases List.mem_append.mp hother with hother | hother
        · exact hmost other hother
        · rw [List.mem_singleton.mp hother]
          exact not_lt.mp hge

theorem busiestWeekday_eq (dailySales : List (ℤ × ℚ)) : busiestWeekday dailySales =
    if dailySales.length < 21 then none
    else if averageAsDouble dailySales ≤ 0 then none
    else (dailySales.foldl countWeekday []).foldl (better (averageAsDouble dailySales)) none := by
  have htakings : dailySales.foldl (fun sum entry => double (sum + double entry.2)) (0 : ℚ) =
      takingsAsDouble dailySales := by
    rw [takingsAsDouble, doubleSum, floatSum, List.foldl_map, List.foldl_map]
    rfl
  rw [busiestWeekday, htakings, averageAsDouble]

section

variable {dailySales : List (ℤ × ℚ)}

theorem Tallied.rows_ne_nil {rows : List WeekdayTotal} (h : Tallied dailySales rows)
    (hdays : dailySales ≠ []) : rows ≠ [] := by
  obtain ⟨entry, rest, rfl⟩ := List.exists_cons_of_ne_nil hdays
  rintro rfl
  have hmem := (h.covers (weekday entry.1)).mpr (by simp [daysOn])
  exact absurd hmem List.not_mem_nil

/-- A row is above the average as far as its days are. -/
theorem Tallied.uplift_eq {rows : List WeekdayTotal} (h : Tallied dailySales rows) (overall : ℚ)
    {row : WeekdayTotal} (hrow : row ∈ rows) :
    uplift overall row = percentAbove (averageAsDouble (daysOn dailySales row.weekday)) overall := by
  obtain ⟨htotal, hcount⟩ := h.totals row hrow
  rw [uplift, htotal, hcount, averageAsDouble]

theorem Tallied.count_pos {rows : List WeekdayTotal} (h : Tallied dailySales rows)
    {row : WeekdayTotal} (hrow : row ∈ rows) : 0 < row.count := by
  rw [(h.totals row hrow).2]
  exact List.length_pos_of_ne_nil ((h.covers _).mp (List.mem_map_of_mem hrow))

theorem takings_cons (entry : ℤ × ℚ) (days : List (ℤ × ℚ)) :
    takings (entry :: days) = entry.2 + takings days := by
  rw [takings, List.map_cons, List.sum_cons, takings]

/-- Days are those of their weekdays. -/
theorem sum_daysOn {weekdays : Finset ℤ} (h : ∀ entry ∈ dailySales, weekday entry.1 ∈ weekdays) :
    ∑ w ∈ weekdays, takings (daysOn dailySales w) = takings dailySales ∧
      ∑ w ∈ weekdays, (daysOn dailySales w).length = dailySales.length := by
  induction dailySales with
  | nil => simp [daysOn, takings]
  | cons entry days ih =>
    obtain ⟨ihtakings, ihlength⟩ := ih fun other hother => h other (List.mem_cons_of_mem _ hother)
    have hentry := h entry List.mem_cons_self
    have htakings : ∀ w, takings (daysOn (entry :: days) w) =
        (if weekday entry.1 = w then entry.2 else 0) + takings (daysOn days w) := by
      intro w
      by_cases hw : weekday entry.1 = w <;> simp [daysOn, hw, takings_cons]
    have hlength : ∀ w, (daysOn (entry :: days) w).length =
        (if weekday entry.1 = w then 1 else 0) + (daysOn days w).length := by
      intro w
      by_cases hw : weekday entry.1 = w <;> simp [daysOn, hw, add_comm]
    simp only [htakings, hlength, Finset.sum_add_distrib, Finset.sum_ite_eq, if_pos hentry,
      ihtakings, ihlength, takings_cons, List.length_cons, add_comm, and_self]

/-- Some weekday is not below the average of all days. -/
theorem exists_average_le (hdays : dailySales ≠ []) :
    ∃ w, daysOn dailySales w ≠ [] ∧ average dailySales ≤ average (daysOn dailySales w) := by
  set weekdays := (dailySales.map fun entry => weekday entry.1).toFinset with hweekdays
  have hmem : ∀ entry ∈ dailySales, weekday entry.1 ∈ weekdays := fun entry hentry =>
    List.mem_toFinset.mpr (List.mem_map_of_mem hentry)
  have hnonempty : weekdays.Nonempty := by
    obtain ⟨entry, rest, rfl⟩ := List.exists_cons_of_ne_nil hdays
    exact ⟨_, hmem entry List.mem_cons_self⟩
  obtain ⟨htakings, hlength⟩ := sum_daysOn hmem
  have hsum : ∑ w ∈ weekdays, average dailySales * ((daysOn dailySales w).length : ℚ) ≤
      ∑ w ∈ weekdays, takings (daysOn dailySales w) := by
    rw [htakings, ← Finset.mul_sum, ← Nat.cast_sum, hlength, average_mul hdays]
  obtain ⟨w, hw, hle⟩ := Finset.exists_le_of_sum_le hnonempty hsum
  have hsome : daysOn dailySales w ≠ [] := by
    rw [hweekdays, List.mem_toFinset] at hw
    obtain ⟨entry, hentry, rfl⟩ := List.mem_map.mp hw
    exact List.ne_nil_of_mem (List.mem_filter.mpr ⟨hentry, decide_eq_true rfl⟩)
  refine ⟨w, hsome, ?_⟩
  conv_rhs => rw [average]
  rwa [le_div_iff₀ (length_pos hsome)]

end

/-- What is put in percent is off by little beside the ratio. -/
theorem abs_percent_sub_le {ratio : ℚ} (h : 0 ≤ ratio) :
    |double (double (ratio - 1) * 100) - (ratio - 1) * 100| ≤ (ratio + 1) * 300 / 2 ^ 53 := by
  have hone := abs_double_sub_le (ratio - 1)
  have htwo := abs_double_sub_le (double (ratio - 1) * 100)
  have hsize : |ratio - 1| ≤ ratio + 1 := by
    rw [abs_le]
    constructor <;> linarith
  have hdouble : |double (ratio - 1)| ≤ 2 * (ratio + 1) := by
    have hsplit := abs_add_le (double (ratio - 1) - (ratio - 1)) (ratio - 1)
    rw [sub_add_cancel] at hsplit
    linarith
  rw [abs_mul, abs_of_pos (by norm_num : (0 : ℚ) < 100)] at htwo
  rw [abs_le] at hone htwo ⊢
  constructor <;> linarith [hone.1, hone.2, htwo.1, htwo.2]

/-- A ratio that is not shown as higher is higher by little. -/
theorem ratio_le_of_percent_le {ratio other : ℚ} (h : 0 ≤ ratio) (hother : 0 ≤ other)
    (hle : double (double (ratio - 1) * 100) ≤ double (double (other - 1) * 100)) :
    ratio * (1 - 3 / 2 ^ 53) ≤ other * (1 + 3 / 2 ^ 53) + 6 / 2 ^ 53 := by
  have hratio := abs_le.mp (abs_percent_sub_le h)
  have hother' := abs_le.mp (abs_percent_sub_le hother)
  linarith [hratio.1, hother'.2]

/-- Where the best ratio is not below a half, none is higher but for sixteen
roundings. -/
theorem ratio_le_of_best {best half : ℚ} (hhalf : 1 / 2 ≤ half) (hbest : 0 ≤ best)
    (hmost : double (double (half - 1) * 100) ≤ double (double (best - 1) * 100)) {ratio : ℚ}
    (h : 0 ≤ ratio) (hle : double (double (ratio - 1) * 100) ≤ double (double (best - 1) * 100)) :
    ratio ≤ best * slack 53 ^ 16 := by
  have hfirst := ratio_le_of_percent_le (by linarith) hbest hmost
  have hsecond := ratio_le_of_percent_le h hbest hle
  have hquarter : 1 / 4 ≤ best := by linarith
  have hbernoulli := one_add_mul_le_pow (by norm_num : (-2 : ℚ) ≤ 2 / 2 ^ 53) 16
  have hpow : (1 : ℚ) + 32 / 2 ^ 53 ≤ slack 53 ^ 16 := by
    rw [slack]
    norm_num at hbernoulli ⊢
  have hscaled := mul_le_mul_of_nonneg_left hpow hbest
  linarith

section

variable {dailySales : List (ℤ × ℚ)} (hpos : ∀ entry ∈ dailySales, 0 ≤ entry.2)

include hpos

theorem nonneg_daysOn (w : ℤ) : ∀ entry ∈ daysOn dailySales w, 0 ≤ entry.2 :=
  fun entry h => hpos entry (List.mem_of_mem_filter h)

/-- The ratio of a weekday's average to that of all days is near to the exact
one. -/
theorem weekday_ratio_near (htook : 0 < average dailySales) {w : ℤ}
    (hw : daysOn dailySales w ≠ []) :
    0 ≤ double (averageAsDouble (daysOn dailySales w) / averageAsDouble dailySales) ∧
      Near 53 (2 * dailySales.length + 5)
        (double (averageAsDouble (daysOn dailySales w) / averageAsDouble dailySales))
        (average (daysOn dailySales w) / average dailySales) := by
  have hdays : dailySales ≠ [] := by
    rintro rfl
    exact hw rfl
  obtain ⟨hratio, hnear⟩ := ratio_near hw hdays (nonneg_daysOn hpos w) hpos htook
  have hfew : (daysOn dailySales w).length ≤ dailySales.length := List.length_filter_le _ _
  have hexact := div_nonneg (average_nonneg (nonneg_daysOn hpos w)) htook.le
  exact ⟨hratio, hnear.mono hratio hexact (by omega)⟩

/-- No weekday is better than one that is shown highest, but for roundings. -/
theorem average_le_of_highest (hmany : dailySales.length ≤ 2 ^ 49)
    (htook : 0 < average dailySales) {best : ℤ} (hbest : daysOn dailySales best ≠ [])
    (hmost : ∀ w, daysOn dailySales w ≠ [] →
      percentAbove (averageAsDouble (daysOn dailySales w)) (averageAsDouble dailySales) ≤
        percentAbove (averageAsDouble (daysOn dailySales best)) (averageAsDouble dailySales))
    {w : ℤ} (hw : daysOn dailySales w ≠ []) :
    average (daysOn dailySales w) ≤ average (daysOn dailySales best) * margin dailySales := by
  have hdays : dailySales ≠ [] := by
    rintro rfl
    exact hw rfl
  obtain ⟨hratio, hnear⟩ := weekday_ratio_near hpos htook hw
  obtain ⟨hbestRatio, hbestNear⟩ := weekday_ratio_near hpos htook hbest
  -- a weekday that is not below the average is shown at a half of it or more
  obtain ⟨middle, hmiddle, hge⟩ := exists_average_le hdays
  obtain ⟨hmiddleRatio, hmiddleNear⟩ := weekday_ratio_near hpos htook hmiddle
  have hslack : slack 53 ^ (2 * dailySales.length + 5) ≤ 2 := slack_pow_le_two (by omega)
  have hhalf : 1 / 2 ≤
      double (averageAsDouble (daysOn dailySales middle) / averageAsDouble dailySales) := by
    have hone := (one_le_div htook).mpr hge
    have hdouble := mul_le_mul_of_nonneg_left hslack hmiddleRatio
    linarith [hmiddleNear.1]
  have hclose := ratio_le_of_best hhalf hbestRatio (hmost middle hmiddle) hratio (hmost w hw)
  have hpow := slack_pow_pos 53 16
  have hpow' := slack_pow_pos 53 (2 * dailySales.length + 5)
  have hexact : average (daysOn dailySales w) / average dailySales ≤
      average (daysOn dailySales best) / average dailySales * margin dailySales :=
    calc average (daysOn dailySales w) / average dailySales
        ≤ double (averageAsDouble (daysOn dailySales w) / averageAsDouble dailySales) *
            slack 53 ^ (2 * dailySales.length + 5) := hnear.1
      _ ≤ double (averageAsDouble (daysOn dailySales best) / averageAsDouble dailySales) *
            slack 53 ^ 16 * slack 53 ^ (2 * dailySales.length + 5) := by gcongr
      _ ≤ average (daysOn dailySales best) / average dailySales *
            slack 53 ^ (2 * dailySales.length + 5) * slack 53 ^ 16 *
            slack 53 ^ (2 * dailySales.length + 5) := by gcongr; exact hbestNear.2
      _ = average (daysOn dailySales best) / average dailySales * margin dailySales := by
        rw [margin, mul_assoc, mul_assoc, ← pow_add, ← pow_add]
        congr 2
        omega
  rwa [div_mul_eq_mul_div, div_le_div_iff_of_pos_right htook] at hexact

theorem averageAsDouble_nonpos_iff (hdays : dailySales ≠ []) :
    averageAsDouble dailySales ≤ 0 ↔ average dailySales ≤ 0 := by
  obtain ⟨-, hlo, hhi⟩ := averageAsDouble_near hdays hpos
  constructor
  · intro h
    exact hlo.trans (mul_nonpos_of_nonpos_of_nonneg h (slack_pow_pos 53 _).le)
  · intro h
    exact hhi.trans (mul_nonpos_of_nonpos_of_nonneg h (slack_pow_pos 53 _).le)

/-- What a pattern of takings comes to. With days of both kinds and other days that
took something, where payday weeks and all days are further apart than roundings,
there is an uplift exactly when payday weeks are better. The best weekday is there
with three weeks of days that took something on the whole; but for roundings it is
not below their average, and none is better. -/
theorem patterns_found (hmany : dailySales.length ≤ 2 ^ 49) :
    (paydays dailySales ≠ [] → otherDays dailySales ≠ [] → 0 < average (otherDays dailySales) →
      Apart (margin dailySales) (average dailySales) (average (paydays dailySales)) →
      (0 < (detectPaydayPattern dailySales).upliftPercent ↔
        average dailySales < average (paydays dailySales))) ∧
    (busiestWeekday dailySales = none ↔ dailySales.length < 21 ∨ average dailySales ≤ 0) ∧
    ∀ best ∈ busiestWeekday dailySales,
      best.samples = (daysOn dailySales best.weekday).length ∧ 0 < best.samples ∧
      best.upliftPercent = percentAbove (averageAsDouble (daysOn dailySales best.weekday))
        (averageAsDouble dailySales) ∧
      average dailySales ≤ average (daysOn dailySales best.weekday) * margin dailySales ∧
      ∀ w, daysOn dailySales w ≠ [] →
        average (daysOn dailySales w) ≤
          average (daysOn dailySales best.weekday) * margin dailySales := by
  have htallied := tallied dailySales
  have hdays : ¬dailySales.length < 21 → dailySales ≠ [] := by
    rintro hmany rfl
    exact hmany (by decide)
  refine ⟨uplift_pos_iff dailySales hpos, ?_, fun best hbest => ?_⟩
  · rw [busiestWeekday_eq]
    split_ifs with hfew hnone
    · exact iff_of_true rfl (.inl hfew)
    · exact iff_of_true rfl (.inr ((averageAsDouble_nonpos_iff hpos (hdays hfew)).mp hnone))
    · refine iff_of_false (fun h => htallied.rows_ne_nil (hdays hfew) ((foldl_better _ _).1.mp h)) ?_
      rw [← averageAsDouble_nonpos_iff hpos (hdays hfew)]
      exact not_or.mpr ⟨hfew, hnone⟩
  · rw [busiestWeekday_eq] at hbest
    split_ifs at hbest with hfew hnone
    · cases hbest
    · cases hbest
    · have htook : 0 < average dailySales := by
        rwa [averageAsDouble_nonpos_iff hpos (hdays hfew), not_le] at hnone
      obtain ⟨⟨row, hrow, rfl⟩, hmost⟩ := (foldl_better _ _).2 best hbest
      have hsome : daysOn dailySales row.weekday ≠ [] :=
        (htallied.covers _).mp (List.mem_map_of_mem hrow)
      have hhighest : ∀ w, daysOn dailySales w ≠ [] →
          percentAbove (averageAsDouble (daysOn dailySales w)) (averageAsDouble dailySales) ≤
            percentAbove (averageAsDouble (daysOn dailySales row.weekday))
              (averageAsDouble dailySales) := by
        intro w hw
        obtain ⟨other, hother, rfl⟩ := List.mem_map.mp ((htallied.covers w).mpr hw)
        rw [← htallied.uplift_eq _ hother, ← htallied.uplift_eq _ hrow]
        exact hmost other hother
      obtain ⟨middle, hmiddle, hge⟩ := exists_average_le (hdays hfew)
      exact ⟨(htallied.totals row hrow).2, htallied.count_pos hrow, htallied.uplift_eq _ hrow,
        hge.trans (average_le_of_highest hpos hmany htook hsome hhighest hmiddle),
        fun w hw => average_le_of_highest hpos hmany htook hsome hhighest hw⟩

end

/-- Four weeks of September 2026 with 100.10 pesos a day, and three
hundred on Saturdays. -/
def september : List (ℤ × ℚ) :=
  (List.range 28).map fun n : ℕ => (20697 + n, if n % 7 = 4 then 300 else 1001 / 10)

theorem patterns_found_september :
    (0 < (detectPaydayPattern september).upliftPercent ↔
      average september < average (paydays september)) ∧
    ∃ best ∈ busiestWeekday september,
      average september ≤ average (daysOn september best.weekday) * margin september ∧
      ∀ w, daysOn september w ≠ [] → average (daysOn september w) ≤
        average (daysOn september best.weekday) * margin september := by
  obtain ⟨hpayday, hnone, hbest⟩ :=
    @patterns_found september (by decide +kernel) (by decide +kernel)
  have hsome : busiestWeekday september ≠ none :=
    fun h => absurd (hnone.mp h) (by decide +kernel)
  obtain ⟨best, hmem⟩ := Option.ne_none_iff_exists'.mp hsome
  exact ⟨hpayday (by decide +kernel) (by decide +kernel) (by decide +kernel) (by decide +kernel),
    best, hmem, (hbest best hmem).2.2.2⟩

end Kitaza.Seasonality
