import Kitaza.BillingRepository

/-!
# Nothing already bought is lost

A subscription from registration on, through any number of purchases. Each
one starts when the trial and the paid time left are over, with the time left
carried over at its value, so that the account neither lapses before the end
of its trial nor before the end of what was paid.
-/

namespace Kitaza.PaidTime

open BillingPlan BillingRepository Primitives

/-- The subscription a new account has. -/
def registered (trialEndsAt : Timestamp) : SubscriptionRecord := ⟨"pro", some trialEndsAt, none⟩

/-- The earliest instant paid time can start at. -/
def paidFrom (subscription : SubscriptionRecord) (now : Timestamp) : Timestamp :=
  subscription.trialEndsAt.elim now (max · now)

/-- The paid time left. -/
def timeLeft (subscription : SubscriptionRecord) (now : Timestamp) : ℤ :=
  subscription.paidThrough.elim 0 fun paid => max 0 (paid - paidFrom subscription now)

/-- The plan last paid for. -/
def currentPlan (subscription : SubscriptionRecord) : Plan :=
  (Plan.parse subscription.plan).getD .basic

/-- What the whole seconds of the paid time left are worth. -/
def valueLeft (subscription : SubscriptionRecord) (now : Timestamp) : ℤ :=
  numSeconds (timeLeft subscription now) * (currentPlan subscription).monthlyCentavos

/-- A purchase starts after the trial and after the time carried over, which
keeps the value of the time left, and is that time itself on the same plan. -/
def KeepsValue (subscription : SubscriptionRecord) (p : Purchase)
    (after : SubscriptionRecord) : Prop :=
  ∃ carried : ℤ,
    0 ≤ carried ∧
    after.paidThrough = some (monthsLater (paidFrom subscription p.now + carried) p.months) ∧
    carried * p.plan.monthlyCentavos ≤
      (valueLeft subscription p.now + (currentPlan subscription).monthlyCentavos) * SECOND ∧
    valueLeft subscription p.now * SECOND < (carried + SECOND) * p.plan.monthlyCentavos ∧
    (currentPlan subscription = p.plan → carried = timeLeft subscription p.now)

/-- The new ends are instants there are. -/
def WithinRange : SubscriptionRecord → List Purchase → Prop
  | _, [] => True
  | subscription, p :: rest =>
    monthsLater (startAfter (some subscription) p.plan p.now) p.months ≤ MAX_UTC ∧
      WithinRange (extended subscription p) rest

instance decidableWithinRange : (subscription : SubscriptionRecord) →
    (purchases : List Purchase) → Decidable (WithinRange subscription purchases)
  | _, [] => inferInstanceAs (Decidable True)
  | subscription, p :: rest =>
    have := decidableWithinRange (extended subscription p) rest
    inferInstanceAs (Decidable (_ ∧ _))

theorem WithinRange.of_append {subscription : SubscriptionRecord} {before after : List Purchase}
    (h : WithinRange subscription (before ++ after)) :
    WithinRange (afterAll subscription before) after := by
  induction before generalizing subscription with
  | nil => exact h
  | cons p rest ih => exact ih h.2

theorem plan_extended (subscription : SubscriptionRecord) (p : Purchase) :
    (extended subscription p).plan = p.plan.asStr := rfl

theorem paidThrough_extended {subscription : SubscriptionRecord} {p : Purchase}
    (h : monthsLater (startAfter (some subscription) p.plan p.now) p.months ≤ MAX_UTC) :
    (extended subscription p).paidThrough =
      some (monthsLater (startAfter (some subscription) p.plan p.now) p.months) := by
  simp only [extended, upserted, paidThroughAfter, checkedAddMonths, if_pos h, Option.getD_some]

theorem timeLeft_nonneg (subscription : SubscriptionRecord) (now : Timestamp) :
    0 ≤ timeLeft subscription now := by
  cases hpaid : subscription.paidThrough with
  | none => simp [timeLeft, hpaid]
  | some paid => simp [timeLeft, hpaid]

/-- A purchase starts with the time left converted. -/
theorem startAfter_eq {subscription : SubscriptionRecord} {old : Plan}
    (hold : subscription.plan = old.asStr) (plan : Plan) (now : Timestamp) :
    startAfter (some subscription) plan now =
      paidFrom subscription now + converted old plan (timeLeft subscription now) := by
  rw [startAfter_some, hold, Plan.parse_asStr, Option.getD_some]
  rfl

theorem keepsValue {subscription : SubscriptionRecord} {old : Plan}
    (hold : subscription.plan = old.asStr) {p : Purchase}
    (hrange : monthsLater (startAfter (some subscription) p.plan p.now) p.months ≤ MAX_UTC) :
    KeepsValue subscription p (extended subscription p) := by
  have hcurrent : currentPlan subscription = old := by
    rw [currentPlan, hold, Plan.parse_asStr, Option.getD_some]
  have hvalue := @converted_value old p.plan _ (timeLeft_nonneg subscription p.now)
  have hpaid := paidThrough_extended hrange
  rw [startAfter_eq hold] at hpaid
  rw [KeepsValue, valueLeft, hcurrent]
  refine ⟨_, hvalue.1, hpaid, hvalue.2.1, hvalue.2.2, ?_⟩
  rintro rfl
  exact converted_self _ _

/-- A purchase of some months ends after the trial. -/
theorem lt_paidThrough {subscription : SubscriptionRecord} {old : Plan} {trialEndsAt : Timestamp}
    (hold : subscription.plan = old.asStr) (htrial : subscription.trialEndsAt = some trialEndsAt)
    {p : Purchase} (hmonths : 0 < p.months)
    (hrange : monthsLater (startAfter (some subscription) p.plan p.now) p.months ≤ MAX_UTC) :
    ∃ paid, (extended subscription p).paidThrough = some paid ∧ trialEndsAt < paid := by
  have hvalue := @converted_value old p.plan _ (timeLeft_nonneg subscription p.now)
  have hlater := @lt_monthsLater (startAfter (some subscription) p.plan p.now) _ hmonths
  have hstart := startAfter_eq hold p.plan p.now
  have hfrom : trialEndsAt ≤ paidFrom subscription p.now := by
    rw [paidFrom, htrial]
    exact le_max_left _ _
  refine ⟨_, paidThrough_extended hrange, ?_⟩
  linarith [hvalue.1]

theorem trialEndsAt_afterAll (subscription : SubscriptionRecord) (purchases : List Purchase) :
    (afterAll subscription purchases).trialEndsAt = subscription.trialEndsAt := by
  induction purchases generalizing subscription with
  | nil => rfl
  | cons p rest ih => exact ih (extended subscription p)

/-- The stored plan is always one of the two. -/
theorem exists_plan_afterAll {subscription : SubscriptionRecord} {old : Plan}
    (hold : subscription.plan = old.asStr) (purchases : List Purchase) :
    ∃ plan : Plan, (afterAll subscription purchases).plan = plan.asStr := by
  induction purchases generalizing subscription old with
  | nil => exact ⟨old, hold⟩
  | cons p rest ih => exact ih (plan_extended subscription p)

/-- From registration on, every purchase starts after the trial and after the
time left at its value, the account is paid beyond its trial, and it stands
neither in grace nor paused before its trial or its paid time is over. -/
theorem nothing_bought_is_lost {trialEndsAt : Timestamp} {purchases : List Purchase}
    (hoffered : ∀ p ∈ purchases, p.months ∈ OFFERED_MONTHS)
    (hrange : WithinRange (registered trialEndsAt) purchases) :
    (∀ before p rest, purchases = before ++ p :: rest →
      KeepsValue (afterAll (registered trialEndsAt) before) p
        (afterAll (registered trialEndsAt) (before ++ [p])) ∧
      ∃ paid, (afterAll (registered trialEndsAt) (before ++ [p])).paidThrough = some paid ∧
        trialEndsAt < paid) ∧
    ∀ before rest, purchases = before ++ rest → ∀ now,
      (now < trialEndsAt ∨ ∃ paid,
        (afterAll (registered trialEndsAt) before).paidThrough = some paid ∧ now < paid) →
      ∀ grace enforced,
        (Standing.of (some (afterAll (registered trialEndsAt) before)) now grace enforced).Running := by
  have hregistered : (registered trialEndsAt).plan = Plan.pro.asStr := rfl
  constructor
  · rintro before p rest rfl
    obtain ⟨old, hold⟩ := exists_plan_afterAll hregistered before
    have hfits := hrange.of_append.1
    have hmonths : 0 < p.months := by
      have hmem := hoffered p (by simp)
      simp only [OFFERED_MONTHS, List.mem_cons, List.not_mem_nil, or_false] at hmem
      omega
    have htrial : (afterAll (registered trialEndsAt) before).trialEndsAt = some trialEndsAt :=
      trialEndsAt_afterAll _ _
    rw [afterAll_concat]
    exact ⟨keepsValue hold hfits, lt_paidThrough hold htrial hmonths hfits⟩
  · rintro before rest rfl now hnow grace enforced
    have htrial : (afterAll (registered trialEndsAt) before).trialEndsAt = some trialEndsAt :=
      trialEndsAt_afterAll _ _
    apply Standing.running_of
    rcases hnow with h | h
    · exact Or.inl ⟨trialEndsAt, htrial, h⟩
    · exact Or.inr h

/-- A month of Pro bought during the trial and a year of Basic a day later. -/
theorem nothing_bought_is_lost_switch :
    ∃ paid, (afterAll (registered (30 * DAY)) [⟨.pro, 1, 5 * DAY⟩, ⟨.basic, 12, 6 * DAY⟩]).paidThrough =
      some paid ∧ 30 * DAY < paid :=
  ((@nothing_bought_is_lost (30 * DAY) [⟨.pro, 1, 5 * DAY⟩, ⟨.basic, 12, 6 * DAY⟩] (by decide)
    (by decide +kernel)).1 [⟨.pro, 1, 5 * DAY⟩] ⟨.basic, 12, 6 * DAY⟩ [] rfl).2

end Kitaza.PaidTime
