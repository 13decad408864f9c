import Kitaza.BillingPlan

/-!
# What more time left buys

Two subscriptions that differ in how far they are paid, and a payment for
both at one instant. The months of the payment start later where more is
paid; they also end later, unless both starts fall on days of one month that
the last month is too short for, the later one at an earlier time of day.
-/

namespace Kitaza.PaymentOrder

open Calendar BillingPlan Primitives

/-- When months that start at an instant end: after the months where there
is such a date, and after thirty days each where there is none. -/
def endAfter (months : ℕ) (start : Timestamp) : Timestamp :=
  (checkedAddMonths start months).getD (start + 30 * months * DAY)

/-- Months that start later end later: the earlier start does not overtake
the later one, and past the last date there is, thirty days each are no less
than the months. -/
def InOrder (months : ℕ) (earlier later : Timestamp) : Prop :=
  if monthsLater later months ≤ MAX_UTC then
    ¬Overtakes DAY (earlier + yearStart 1970 * DAY) (later + yearStart 1970 * DAY) months
  else monthsLater earlier months ≤ MAX_UTC →
    monthsLater earlier months ≤ later + 30 * months * DAY

instance (months : ℕ) (earlier later : Timestamp) : Decidable (InOrder months earlier later) := by
  unfold InOrder
  infer_instance

/-- When what an owner already has is over: the trial, then the paid time
left beyond it, at its value on the plan that is paid for. -/
def timeOver (subscription : SubscriptionRecord) (plan : Plan) (now : Timestamp) : Timestamp :=
  let trialOver := subscription.trialEndsAt.elim now (max · now)
  trialOver + converted ((Plan.parse subscription.plan).getD plan) plan
    (subscription.paidThrough.elim 0 fun paid => max 0 (paid - trialOver))

/-- Of two results the first is there and no later than the second, which is
there too. -/
def NoLater (a b : Option Timestamp) : Prop := ∃ x y, a = some x ∧ b = some y ∧ x ≤ y

/-- The payment buys no less where more time is left, and no less than its
months from now on. -/
structure BuysNoLess (less more : SubscriptionRecord) (plan : Plan) (months : ℕ)
    (now : Timestamp) : Prop where
  /-- More time left, no earlier an end. -/
  noLess : NoLater (paidThroughAfter? (some less) plan months now)
    (paidThroughAfter? (some more) plan months now)
  /-- Nor earlier than the months from now on. -/
  lessNoEarlier : NoLater (paidThroughAfter? none plan months now)
    (paidThroughAfter? (some less) plan months now)
  /-- The same with more time left. -/
  moreNoEarlier : NoLater (paidThroughAfter? none plan months now)
    (paidThroughAfter? (some more) plan months now)

section

variable {earlier later now : Timestamp} {months : ℕ} {plan old : Plan}

/-- Dates end with a day, so that what overtakes is a date if what is
overtaken is one. -/
theorem isDate_of_overtaking (h : earlier ≤ later) (hlater : monthsLater later months ≤ MAX_UTC) :
    monthsLater earlier months ≤ MAX_UTC := by
  have hticks : 0 < DAY := by decide
  have hday : (earlier + yearStart 1970 * DAY) / DAY ≤ (later + yearStart 1970 * DAY) / DAY :=
    Int.ediv_le_ediv hticks (by linarith)
  have hmono := addMonthsToDay_le hday months
  have hnonneg := Int.emod_nonneg (later + yearStart 1970 * DAY) hticks.ne'
  have hlt := Int.emod_lt_of_pos (earlier + yearStart 1970 * DAY) hticks
  rw [monthsLater, addMonths, MAX_UTC] at hlater ⊢
  generalize addMonthsToDay ((earlier + yearStart 1970 * DAY) / DAY) months = a at hmono ⊢
  generalize addMonthsToDay ((later + yearStart 1970 * DAY) / DAY) months = b at hmono hlater
  have hb : b < yearStart 262143 := by
    by_contra hge
    have hmul := mul_le_mul_of_nonneg_right (not_lt.mp hge) hticks.le
    linarith
  have hmul := mul_le_mul_of_nonneg_right (Int.add_one_le_iff.mpr (hmono.trans_lt hb)) hticks.le
  linarith

/-- When the order of two starts carries over to the ends. -/
theorem endAfter_le_iff (h : earlier ≤ later) :
    endAfter months earlier ≤ endAfter months later ↔ InOrder months earlier later := by
  have hticks : 0 < DAY := by decide
  have hshift : earlier + yearStart 1970 * DAY ≤ later + yearStart 1970 * DAY := by linarith
  by_cases hlater : monthsLater later months ≤ MAX_UTC
  · have hearlier := isDate_of_overtaking h hlater
    rw [InOrder, if_pos hlater, ← addMonths_le_iff hticks hshift, endAfter, endAfter,
      checkedAddMonths, checkedAddMonths, if_pos hlater, if_pos hearlier, Option.getD_some,
      Option.getD_some, monthsLater, monthsLater, sub_le_sub_iff_right]
  · rw [InOrder, if_neg hlater, endAfter, endAfter, checkedAddMonths, checkedAddMonths,
      if_neg hlater, Option.getD_none]
    by_cases hearlier : monthsLater earlier months ≤ MAX_UTC
    · rw [if_pos hearlier, Option.getD_some]
      exact ⟨fun hle _ => hle, fun hle => hle hearlier⟩
    · rw [if_neg hearlier, Option.getD_none]
      exact iff_of_true (by linarith) fun hdate => absurd hdate hearlier

/-- More time left is worth more. -/
theorem converted_mono {a b : ℤ} (ha : 0 ≤ a) (h : a ≤ b) :
    converted old plan a ≤ converted old plan b := by
  rw [converted, converted]
  split_ifs with hsame
  · exact h
  · have hseconds : numSeconds a ≤ numSeconds b := by
      rw [numSeconds, numSeconds, Int.tdiv_eq_ediv_of_nonneg ha,
        Int.tdiv_eq_ediv_of_nonneg (ha.trans h)]
      exact Int.ediv_le_ediv (by decide) h
    have hvalue := mul_le_mul_of_nonneg_right hseconds old.monthlyCentavos_pos.le
    have hzero : 0 ≤ numSeconds a * old.monthlyCentavos :=
      mul_nonneg (numSeconds_bounds ha).1 old.monthlyCentavos_pos.le
    apply mul_le_mul_of_nonneg_right _ (by decide)
    rw [Int.tdiv_eq_ediv_of_nonneg hzero, Int.tdiv_eq_ediv_of_nonneg (hzero.trans hvalue)]
    exact Int.ediv_le_ediv plan.monthlyCentavos_pos hvalue

/-- The months of a payment start when what the owner already has is over. -/
theorem startAfter_eq_timeOver (r : SubscriptionRecord) (plan : Plan) (now : Timestamp) :
    startAfter (some r) plan now = timeOver r plan now := startAfter_some r plan now

/-- The months of a payment start no earlier than it is made. -/
theorem le_startAfter (current : Option SubscriptionRecord) (plan : Plan) (now : Timestamp) :
    now ≤ startAfter current plan now := by
  cases current with
  | none => exact le_rfl
  | some r =>
    have hfrom : now ≤ r.trialEndsAt.elim now (max · now) := by
      cases r.trialEndsAt with
      | none => exact le_rfl
      | some trial => exact le_max_right _ _
    exact hfrom.trans (trialOver_le_startAfter r plan now)

/-- And no earlier where more is paid. -/
theorem startAfter_mono {less more : SubscriptionRecord} (hplan : less.plan = more.plan)
    (htrial : less.trialEndsAt = more.trialEndsAt)
    (hpaid : ∀ a ∈ less.paidThrough, ∃ b ∈ more.paidThrough, a ≤ b) (plan : Plan)
    (now : Timestamp) : startAfter (some less) plan now ≤ startAfter (some more) plan now := by
  rw [startAfter, startAfter, hplan, htrial]
  generalize more.trialEndsAt.elim now (max · now) = start
  cases hless : less.paidThrough.filter (start < ·) with
  | none =>
    cases hmore : more.paidThrough.filter (start < ·) with
    | none => exact le_rfl
    | some b =>
      have hlater := (Option.filter_eq_some_iff.mp hmore).2
      rw [decide_eq_true_iff] at hlater
      exact le_add_of_nonneg_right (converted_value (sub_nonneg.mpr hlater.le)).1
  | some a =>
    obtain ⟨ha, hlater⟩ := Option.filter_eq_some_iff.mp hless
    rw [decide_eq_true_iff] at hlater
    obtain ⟨b, hb, hab⟩ := hpaid a ha
    have hmore : more.paidThrough.filter (start < ·) = some b := by
      rw [Option.filter_eq_some_iff]
      exact ⟨hb, decide_eq_true (hlater.trans_le hab)⟩
    rw [hmore]
    exact add_le_add_right (converted_mono (sub_nonneg.mpr hlater.le) (sub_le_sub_right hab _)) _

end

/-- Where there are results they are the ends of the months. -/
theorem noLater_iff {a b : Option SubscriptionRecord} {plan : Plan} {months : ℕ}
    {now : Timestamp} : NoLater (paidThroughAfter? a plan months now)
        (paidThroughAfter? b plan months now) ↔
      startAfter a plan now + 30 * months * DAY ≤ MAX_UTC ∧
        startAfter b plan now + 30 * months * DAY ≤ MAX_UTC ∧
        endAfter months (startAfter a plan now) ≤ endAfter months (startAfter b plan now) := by
  unfold NoLater paidThroughAfter?
  constructor
  · rintro ⟨x, y, hx, hy, hle⟩
    split_ifs at hx hy with ha hb
    cases hx
    cases hy
    exact ⟨ha, hb, hle⟩
  · rintro ⟨ha, hb, hle⟩
    rw [if_pos ha, if_pos hb]
    exact ⟨_, _, rfl, rfl, hle⟩

/-- More time left buys no less exactly where the code comes to a result and
the instants at which what the owners already have is over, and the payment
itself, keep their order at the end of the last month. -/
theorem buysNoLess_iff {less more : SubscriptionRecord} {paid : Timestamp}
    (hplan : less.plan = more.plan) (htrial : less.trialEndsAt = more.trialEndsAt)
    (hmore : more.paidThrough = some paid) (hless : ∀ a ∈ less.paidThrough, a < paid)
    (plan : Plan) (months : ℕ) (now : Timestamp) :
    BuysNoLess less more plan months now ↔
      timeOver more plan now + 30 * months * DAY ≤ MAX_UTC ∧
      InOrder months (timeOver less plan now) (timeOver more plan now) ∧
      InOrder months now (timeOver less plan now) ∧
      InOrder months now (timeOver more plan now) := by
  have hmono := startAfter_mono hplan htrial (fun a ha => ⟨paid, hmore, (hless a ha).le⟩) plan now
  rw [← startAfter_eq_timeOver, ← startAfter_eq_timeOver, ← endAfter_le_iff hmono,
    ← endAfter_le_iff (le_startAfter _ _ _), ← endAfter_le_iff (le_startAfter _ _ _)]
  have hnow := le_startAfter (some less) plan now
  have hstart : startAfter none plan now = now := rfl
  constructor
  · rintro ⟨hle, hfirst, hsecond⟩
    rw [noLater_iff] at hle hfirst hsecond
    exact ⟨hle.2.1, hle.2.2, hfirst.2.2, hsecond.2.2⟩
  · rintro ⟨hlast, hle, hfirst, hsecond⟩
    have hless : startAfter (some less) plan now + 30 * months * DAY ≤ MAX_UTC := by linarith
    have hnone : startAfter none plan now + 30 * months * DAY ≤ MAX_UTC := by
      rw [hstart]
      linarith
    exact ⟨noLater_iff.mpr ⟨hless, hlast, hle⟩, noLater_iff.mpr ⟨hnone, hless, hfirst⟩,
      noLater_iff.mpr ⟨hnone, hlast, hsecond⟩⟩

/-- An instant in 2026, by the days and hours since the year began. -/
def in2026 (days hours : ℤ) : Timestamp :=
  (yearStart 2026 - yearStart 1970 + days) * DAY + hours * 3600 * SECOND

/-- Ten days left in the middle of a month. -/
theorem buysNoLess_midMonth :
    BuysNoLess ⟨"basic", none, none⟩ ⟨"basic", none, some (in2026 20 8)⟩ .basic 1 (in2026 10 8) :=
  (@buysNoLess_iff ⟨"basic", none, none⟩ ⟨"basic", none, some (in2026 20 8)⟩ (in2026 20 8) rfl rfl
    rfl nofun .basic 1 (in2026 10 8)).mpr (by decide +kernel)

/-- Two hours left around the end of the 29th of January take 22 hours off:
the month ends on the 28th of February at one o'clock instead of 23. -/
theorem two_hours_left_buy_less :
    ¬BuysNoLess ⟨"basic", none, none⟩ ⟨"basic", none, some (in2026 29 1)⟩ .basic 1 (in2026 28 23) ∧
      paidThroughAfter? none .basic 1 (in2026 28 23) = some (in2026 58 23) ∧
      paidThroughAfter? (some ⟨"basic", none, some (in2026 29 1)⟩) .basic 1 (in2026 28 23) =
        some (in2026 58 1) := by
  have hnone : paidThroughAfter? none .basic 1 (in2026 28 23) = some (in2026 58 23) := by
    decide +kernel
  have hleft : paidThroughAfter? (some ⟨"basic", none, some (in2026 29 1)⟩) .basic 1
      (in2026 28 23) = some (in2026 58 1) := by
    decide +kernel
  refine ⟨fun h => ?_, hnone, hleft⟩
  obtain ⟨x, y, hx, hy, hle⟩ := h.moreNoEarlier
  rw [hnone] at hx
  rw [hleft] at hy
  cases hx
  cases hy
  exact absurd hle (by decide +kernel)

end Kitaza.PaymentOrder
