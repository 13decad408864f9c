import Kitaza.Calendar
import Kitaza.Primitives

/-!
# Plans, subscriptions and what a payment buys

The two plans with their prices, an owner's subscription as stored, where an
account stands at an instant, and how far a payment extends a subscription.
-/

namespace Kitaza.BillingPlan

open Primitives Calendar

/-- What an owner can pay for. -/
inductive Plan where
  /-- Cloud backup and sync for one store. -/
  | basic
  /-- Up to five stores, and staff accounts. -/
  | pro
  deriving DecidableEq, Repr

namespace Plan

/-- The price of a month. -/
def monthlyCentavos : Plan → ℤ
  | .basic => 9900
  | .pro => 19900

/-- Whether staff accounts are included. -/
def allowsStaff : Plan → Bool
  | .basic => false
  | .pro => true

/-- The text a plan is stored as. -/
def asStr : Plan → String
  | .basic => "basic"
  | .pro => "pro"

/-- Read a stored plan. -/
def parse (raw : String) : Option Plan :=
  if raw = "basic" then some .basic
  else if raw = "pro" then some .pro
  else none

@[simp] theorem parse_asStr (plan : Plan) : parse plan.asStr = some plan := by
  cases plan <;> decide

theorem monthlyCentavos_pos (plan : Plan) : 0 < plan.monthlyCentavos := by
  cases plan <;> decide

end Plan

/-- The months a payment can be for. -/
def OFFERED_MONTHS : List ℕ := [1, 12]

/-- An owner's subscription as stored. -/
structure SubscriptionRecord where
  /-- The plan last paid for. -/
  plan : String
  /-- When the trial ends. -/
  trialEndsAt : Option Timestamp
  /-- How far it is paid. -/
  paidThrough : Option Timestamp
  deriving DecidableEq, Repr

/-- The Unix epoch. -/
def UNIX_EPOCH : Timestamp := 0

/-- Where an account stands on a given day. -/
inductive Standing where
  /-- Billing is switched off on this server. -/
  | unlimited
  | trial (endsAt : Timestamp)
  | active (plan : Plan) (ends : Timestamp)
  /-- The period ended, but everything keeps working for a while. -/
  | grace (plan : Plan) (ends : Timestamp)
  /-- Uploads wait on the phones until the owner pays. -/
  | paused (since : Timestamp)
  deriving DecidableEq, Repr

namespace Standing

/-- The standing once trial and paid time are over. -/
def afterLapse (now grace : Timestamp) : Option (Plan × Timestamp) → Standing
  | none => .paused UNIX_EPOCH
  | some (plan, ended) =>
    if now < ended + grace then .grace plan (ended + grace) else .paused (ended + grace)

/-- What ran out last: a lapsed payment counts as the plan that was paid for,
a lapsed trial as the trial's. -/
def lapsed (plan : Plan) (subscription : SubscriptionRecord) : Option (Plan × Timestamp) :=
  match subscription.trialEndsAt, subscription.paidThrough with
  | _, some ends => some (plan, ends)
  | some ends, none => some (.pro, ends)
  | none, none => none

/-- Where a subscription stands. A trial runs its course even if the owner
pays during it. -/
def of (subscription : Option SubscriptionRecord) (now grace : Timestamp) (enforced : Bool) :
    Standing :=
  if !enforced then .unlimited
  else
    match subscription with
    | none => .paused UNIX_EPOCH
    | some subscription =>
      let plan := (Plan.parse subscription.plan).getD .basic
      match subscription.trialEndsAt.filter (now < ·), subscription.paidThrough.filter (now < ·) with
      | some ends, _ => .trial ends
      | none, some ends => .active plan ends
      | none, none => afterLapse now grace (lapsed plan subscription)

/-- The plan whose features apply; absent while paused. -/
def plan : Standing → Option Plan
  | .unlimited => some .pro
  | .trial _ => some .pro
  | .active plan _ => some plan
  | .grace plan _ => some plan
  | .paused _ => none

/-- Whether entries may be uploaded. -/
def canUpload (standing : Standing) : Bool := standing.plan.isSome

/-- Whether staff accounts are included. -/
def allowsStaff (standing : Standing) : Bool := standing.plan.any Plan.allowsStaff

/-- Trial and paid time are not over. -/
def Running : Standing → Prop
  | .grace _ _ => False
  | .paused _ => False
  | _ => True

/-- Before the end of the trial or of the paid time, nothing has lapsed. -/
theorem running_of {subscription : SubscriptionRecord} {now : Timestamp}
    (h : (∃ trial, subscription.trialEndsAt = some trial ∧ now < trial) ∨
      ∃ paid, subscription.paidThrough = some paid ∧ now < paid)
    (grace : Timestamp) (enforced : Bool) :
    (of (some subscription) now grace enforced).Running := by
  cases enforced with
  | false => trivial
  | true =>
    obtain ⟨plan, trial, paid⟩ := subscription
    rcases h with ⟨t, rfl, ht⟩ | ⟨p, rfl, hp⟩
    · simp [of, Option.filter, ht, Running]
    · cases trial with
      | none => simp [of, Option.filter, hp, Running]
      | some t =>
        by_cases ht : now < t
        · simp [of, Option.filter, ht, Running]
        · simp [of, Option.filter, ht, hp, Running]

end Standing

/-- Ticks to a second. -/
def SECOND : ℤ := 1000000

/-- Ticks to a day. -/
def DAY : ℤ := 86400 * SECOND

/-- The last instant there is: the end of the year 262142. -/
def MAX_UTC : Timestamp := (yearStart 262143 - yearStart 1970) * DAY - 1

/-- An instant some months later. -/
def monthsLater (start : Timestamp) (months : ℕ) : Timestamp :=
  addMonths DAY (start + yearStart 1970 * DAY) months - yearStart 1970 * DAY

/-- The same, where such an instant exists. -/
def checkedAddMonths (start : Timestamp) (months : ℕ) : Option Timestamp :=
  if monthsLater start months ≤ MAX_UTC then some (monthsLater start months) else none

/-- Whole seconds of a duration. -/
def numSeconds (duration : ℤ) : ℤ := duration.tdiv SECOND

/-- Time left on one plan as time on another, at their price ratio. -/
def converted (old plan : Plan) (remaining : ℤ) : ℤ :=
  if old = plan then remaining
  else (numSeconds remaining * old.monthlyCentavos).tdiv plan.monthlyCentavos * SECOND

/-- When the months of a new payment start. -/
def startAfter (current : Option SubscriptionRecord) (plan : Plan) (now : Timestamp) :
    Timestamp :=
  match current with
  | none => now
  | some current =>
    let paidFrom := current.trialEndsAt.elim now (max · now)
    match current.paidThrough.filter (paidFrom < ·) with
    | none => paidFrom
    | some paid =>
      paidFrom + converted ((Plan.parse current.plan).getD plan) plan (paid - paidFrom)

/-- When a payment leaves the subscription paid through, where the code comes
to a result. -/
def paidThroughAfter (current : Option SubscriptionRecord) (plan : Plan) (months : ℕ)
    (now : Timestamp) : Timestamp :=
  let start := startAfter current plan now
  (checkedAddMonths start months).getD (start + 30 * months * DAY)

/-- The same, and nothing where the code aborts: it adds thirty days a month
before it knows whether there is a date some months later, and adding past the
last instant panics. -/
def paidThroughAfter? (current : Option SubscriptionRecord) (plan : Plan) (months : ℕ)
    (now : Timestamp) : Option Timestamp :=
  if startAfter current plan now + 30 * months * DAY ≤ MAX_UTC then
    some (paidThroughAfter current plan months now)
  else none

/-- Later months are later. -/
theorem lt_monthsLater {start : Timestamp} {months : ℕ} (h : 0 < months) :
    start < monthsLater start months := by
  have hticks : 0 < DAY := by decide
  have hlater := @lt_addMonths _ (start + yearStart 1970 * DAY) _ hticks h
  rw [monthsLater]
  linarith

/-- Time on the same plan is not converted. -/
@[simp] theorem converted_self (plan : Plan) (remaining : ℤ) :
    converted plan plan remaining = remaining := if_pos rfl

/-- The fraction of a second that the count of whole seconds drops. -/
theorem numSeconds_bounds {duration : ℤ} (h : 0 ≤ duration) :
    0 ≤ numSeconds duration ∧ numSeconds duration * SECOND ≤ duration ∧
      duration < numSeconds duration * SECOND + SECOND := by
  rw [numSeconds, Int.tdiv_eq_ediv_of_nonneg h, SECOND]
  omega

/-- Converted time keeps its value: it is worth no more than the time left, up
to the fraction of a second that was not converted, and less by no more than
a second of the new plan. -/
theorem converted_value {old plan : Plan} {remaining : ℤ} (h : 0 ≤ remaining) :
    0 ≤ converted old plan remaining ∧
      converted old plan remaining * plan.monthlyCentavos ≤
        (numSeconds remaining * old.monthlyCentavos + old.monthlyCentavos) * SECOND ∧
      numSeconds remaining * old.monthlyCentavos * SECOND <
        (converted old plan remaining + SECOND) * plan.monthlyCentavos := by
  have hsec : 0 < SECOND := by decide
  have hnew := plan.monthlyCentavos_pos
  have hold := old.monthlyCentavos_pos
  have hwhole := numSeconds_bounds h
  rw [converted]
  split_ifs with hsame
  · subst hsame
    refine ⟨h, ?_, ?_⟩
    · nlinarith
    · nlinarith
  · have hvalue : 0 ≤ numSeconds remaining * old.monthlyCentavos :=
      mul_nonneg hwhole.1 hold.le
    rw [Int.tdiv_eq_ediv_of_nonneg hvalue]
    generalize numSeconds remaining * old.monthlyCentavos = value at hvalue
    have hq := Int.ediv_nonneg hvalue hnew.le
    have hle := Int.ediv_mul_le value hnew.ne'
    have hlt := Int.lt_ediv_add_one_mul_self value hnew
    refine ⟨mul_nonneg hq hsec.le, ?_, ?_⟩
    · nlinarith
    · nlinarith

/-- The months of a payment start when the trial is over and the time left is
used up at its value. -/
theorem startAfter_some (r : SubscriptionRecord) (plan : Plan) (now : Timestamp) :
    startAfter (some r) plan now = r.trialEndsAt.elim now (max · now) +
      converted ((Plan.parse r.plan).getD plan) plan
        (r.paidThrough.elim 0 fun paid => max 0 (paid - r.trialEndsAt.elim now (max · now))) := by
  rw [startAfter]
  generalize r.trialEndsAt.elim now (max · now) = start
  generalize (Plan.parse r.plan).getD plan = old
  have hnone : converted old plan 0 = 0 := by
    cases old <;> cases plan <;> rfl
  cases r.paidThrough with
  | none => simp [hnone]
  | some paid =>
    by_cases hlater : start < paid
    · have hpos : 0 ≤ paid - start := sub_nonneg.mpr hlater.le
      simp [Option.filter, hlater, max_eq_right hpos]
    · have hneg : paid - start ≤ 0 := sub_nonpos.mpr (not_lt.mp hlater)
      simp [Option.filter, hlater, max_eq_left hneg, hnone]

/-- They start no earlier than the trial ends and the payment is made. -/
theorem trialOver_le_startAfter (r : SubscriptionRecord) (plan : Plan) (now : Timestamp) :
    r.trialEndsAt.elim now (max · now) ≤ startAfter (some r) plan now := by
  have hleft : 0 ≤ r.paidThrough.elim 0 fun paid =>
      max 0 (paid - r.trialEndsAt.elim now (max · now)) := by
    cases r.paidThrough with
    | none => exact le_rfl
    | some paid => exact le_max_left _ _
  rw [startAfter_some]
  exact le_add_of_nonneg_right (converted_value hleft).1

end Kitaza.BillingPlan
