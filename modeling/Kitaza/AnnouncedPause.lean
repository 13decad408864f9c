import Mathlib.Order.Bounds.Basic
import Kitaza.BillingRepository

/-!
# When uploads pause

What a phone is told about its account's plan, against where the account
stands later on. The end of a trial that is already paid beyond is announced
as if nothing followed it.
-/

namespace Kitaza.AnnouncedPause

open BillingPlan BillingRepository Primitives

/-- The word for a standing. -/
def status : Standing → String
  | .unlimited => "unlimited"
  | .trial _ => "trial"
  | .active _ _ => "active"
  | .grace _ _ => "grace"
  | .paused _ => "paused"

/-- How many stores a plan covers. -/
def planStoreLimit : Plan → ℤ
  | .basic => 1
  | .pro => 5

/-- How many stores may take new entries. -/
def storeLimit : Standing → Option ℤ
  | .unlimited => none
  | other => some (other.plan.elim 0 planStoreLimit)

/-- Where an account stands, as phones show it. -/
structure SubscriptionSummary where
  /-- The word for it. -/
  status : String
  /-- The plan whose features apply now. -/
  plan : Option Plan
  /-- When the trial or paid period runs out. -/
  periodEndsAt : Option Timestamp
  /-- When uploads pause if nothing is paid, or paused since. -/
  pausesAt : Option Timestamp
  /-- How many stores may take new entries. -/
  storeLimit : Option ℤ
  /-- Whether staff accounts are included. -/
  allowsStaff : Bool
  deriving DecidableEq, Repr

/-- When the period ends and uploads pause, by the standing alone. -/
def announced (grace : Timestamp) : Standing → Option Timestamp × Option Timestamp
  | .unlimited => (none, none)
  | .trial endsAt => (some endsAt, some (endsAt + grace))
  | .active _ ends => (some ends, some (ends + grace))
  | .grace _ ends => (none, some ends)
  | .paused since => (none, some since)

/-- What is shown of a standing. -/
def SubscriptionSummary.of (standing : Standing) (grace : Timestamp) : SubscriptionSummary where
  status := AnnouncedPause.status standing
  plan := standing.plan
  periodEndsAt := (announced grace standing).1
  pausesAt := (announced grace standing).2
  storeLimit := AnnouncedPause.storeLimit standing
  allowsStaff := standing.allowsStaff

/-- The subscriptions that registration and payments produce. -/
inductive Produced : SubscriptionRecord → Prop
  | registered (trialEndsAt : Timestamp) : Produced ⟨"pro", some trialEndsAt, none⟩
  | firstPayment (plan : Plan) {months : ℕ} (hmonths : 0 < months) (now : Timestamp) :
      Produced (upserted none plan (paidThroughAfter none plan months now))
  | payment {r : SubscriptionRecord} (hr : Produced r) {p : Purchase} (hmonths : 0 < p.months) :
      Produced (extended r p)

/-- How far along a standing is. -/
def rank : Standing → ℕ
  | .unlimited => 0
  | .trial _ => 0
  | .active _ _ => 1
  | .grace _ _ => 2
  | .paused _ => 3

/-- What is shown at an instant is what happens later on, if nothing is paid. -/
structure Truthful (r : SubscriptionRecord) (now grace : Timestamp) : Prop where
  /-- Uploads pause when they are said to. -/
  pauses : ∃ pause,
    (SubscriptionSummary.of (Standing.of (some r) now grace true) grace).pausesAt = some pause ∧
      IsLeast {t | now ≤ t ∧ (Standing.of (some r) t grace true).canUpload = false} pause
  /-- No trial or paid time is left when the period is said to end. -/
  ends : ∀ e,
    (SubscriptionSummary.of (Standing.of (some r) now grace true) grace).periodEndsAt = some e →
      (∀ trial ∈ r.trialEndsAt, trial ≤ e) ∧ ∀ paid ∈ r.paidThrough, paid ≤ e
  /-- The account only moves forward. -/
  forward : ∀ t t', now ≤ t → t ≤ t' →
    rank (Standing.of (some r) t grace true) ≤ rank (Standing.of (some r) t' grace true)

/-- The account is in a trial that is already paid beyond. -/
def PaidInTrial (r : SubscriptionRecord) (now : Timestamp) : Prop :=
  (∃ trial ∈ r.trialEndsAt, now < trial) ∧ r.paidThrough.isSome = true

instance (r : SubscriptionRecord) (now : Timestamp) : Decidable (PaidInTrial r now) :=
  inferInstanceAs (Decidable (_ ∧ _))

section

variable {r : SubscriptionRecord} {now grace t t' : Timestamp}

/-- Months that are paid for end after they start. -/
theorem lt_paidThroughAfter (current : Option SubscriptionRecord) (plan : Plan) {months : ℕ}
    (h : 0 < months) (now : Timestamp) :
    startAfter current plan now < paidThroughAfter current plan months now := by
  rw [paidThroughAfter, checkedAddMonths]
  split_ifs with hdate
  · exact lt_monthsLater h
  · have hdays : 0 < 30 * (months : ℤ) * DAY := by
      have hmonths : (0 : ℤ) < months := by exact_mod_cast h
      have hticks : 0 < DAY := by decide
      positivity
    rw [Option.getD_none]
    linarith

/-- The months of a payment start no earlier than the trial ends. -/
theorem trial_le_startAfter {trial : Timestamp} (htrial : r.trialEndsAt = some trial) (plan : Plan)
    (now : Timestamp) : trial ≤ startAfter (some r) plan now := by
  have hover := trialOver_le_startAfter r plan now
  rw [htrial] at hover
  exact (le_max_left _ _).trans hover

/-- What is paid reaches beyond the trial. -/
theorem Produced.trial_lt_paid (h : Produced r) :
    ∀ trial ∈ r.trialEndsAt, ∀ paid ∈ r.paidThrough, trial < paid := by
  cases h with
  | registered trialEndsAt => exact fun _ _ _ hpaid => absurd hpaid (Option.not_mem_none _)
  | firstPayment plan hmonths at_ => exact fun _ htrial => absurd htrial (Option.not_mem_none _)
  | @payment r hr p hmonths =>
    intro trial htrial paid hpaid
    have htrial : r.trialEndsAt = some trial := htrial
    have hpaid : some (paidThroughAfter (some r) p.plan p.months p.now) = some paid := hpaid
    have hstart := trial_le_startAfter htrial p.plan p.now
    have hlater := lt_paidThroughAfter (some r) p.plan hmonths p.now
    rw [← Option.some.inj hpaid]
    exact hstart.trans_lt hlater

/-- Every account has a trial or has paid. -/
theorem Produced.exists_over (h : Produced r) :
    ∃ expiry, r.paidThrough.or r.trialEndsAt = some expiry := by
  cases h with
  | registered trialEndsAt => exact ⟨trialEndsAt, rfl⟩
  | @firstPayment plan months hmonths at_ =>
    exact ⟨paidThroughAfter none plan months at_, rfl⟩
  | @payment r hr p hmonths => exact ⟨paidThroughAfter (some r) p.plan p.months p.now, rfl⟩

/-- During a trial. -/
theorem of_trial {trial : Timestamp} (htrial : r.trialEndsAt = some trial) (h : now < trial) :
    Standing.of (some r) now grace true = .trial trial := by
  simp [Standing.of, htrial, Option.filter, h]

/-- During what is paid, after any trial. -/
theorem of_active {paid : Timestamp} (htrial : ∀ trial ∈ r.trialEndsAt, trial ≤ now)
    (hpaid : r.paidThrough = some paid) (h : now < paid) :
    Standing.of (some r) now grace true = .active ((Plan.parse r.plan).getD .basic) paid := by
  have hnone : r.trialEndsAt.filter (now < ·) = none := by
    rw [Option.filter_eq_none_iff]
    intro trial ht
    simpa using htrial trial ht
  have hkept : r.paidThrough.filter (now < ·) = some paid := by
    rw [Option.filter_eq_some_iff]
    exact ⟨hpaid, decide_eq_true h⟩
  simp [Standing.of, hnone, hkept]

/-- After both. -/
theorem of_lapsed (htrial : ∀ trial ∈ r.trialEndsAt, trial ≤ now)
    (hpaid : ∀ paid ∈ r.paidThrough, paid ≤ now) :
    Standing.of (some r) now grace true =
      Standing.afterLapse now grace (Standing.lapsed ((Plan.parse r.plan).getD .basic) r) := by
  have hnone : r.trialEndsAt.filter (now < ·) = none := by
    rw [Option.filter_eq_none_iff]
    intro trial ht
    simpa using htrial trial ht
  have hnone' : r.paidThrough.filter (now < ·) = none := by
    rw [Option.filter_eq_none_iff]
    intro paid hp
    simpa using hpaid paid hp
  simp [Standing.of, hnone, hnone']

/-- A trial runs, or else something paid, or else nothing. -/
theorem standing_cases (r : SubscriptionRecord) (now : Timestamp) :
    (∃ trial, r.trialEndsAt = some trial ∧ now < trial) ∨
      (∀ trial ∈ r.trialEndsAt, trial ≤ now) ∧
        ((∃ paid, r.paidThrough = some paid ∧ now < paid) ∨
          ∀ paid ∈ r.paidThrough, paid ≤ now) := by
  by_cases htrial : ∃ trial, r.trialEndsAt = some trial ∧ now < trial
  · exact Or.inl htrial
  · refine Or.inr ⟨fun trial ht => not_lt.mp fun h => htrial ⟨trial, ht, h⟩, ?_⟩
    by_cases hpaid : ∃ paid, r.paidThrough = some paid ∧ now < paid
    · exact Or.inl hpaid
    · exact Or.inr fun paid hp => not_lt.mp fun h => hpaid ⟨paid, hp, h⟩

/-- What lapsed last, and until when it is graced. -/
theorem afterLapse_eq {expiry : Timestamp} (hover : r.paidThrough.or r.trialEndsAt = some expiry)
    (plan : Plan) : ∃ lapsedPlan, Standing.afterLapse now grace (Standing.lapsed plan r) =
      if now < expiry + grace then .grace lapsedPlan (expiry + grace)
      else .paused (expiry + grace) := by
  obtain ⟨stored, trial, paid⟩ := r
  cases paid with
  | some paid =>
    obtain rfl := Option.some.inj hover
    cases trial <;> exact ⟨plan, rfl⟩
  | none =>
    cases trial with
    | none => cases hover
    | some trial =>
      obtain rfl := Option.some.inj hover
      exact ⟨.pro, rfl⟩

/-- Uploads are taken until the grace after the trial and what is paid. -/
theorem canUpload_iff (hgrace : 0 ≤ grace)
    (horder : ∀ trial ∈ r.trialEndsAt, ∀ paid ∈ r.paidThrough, trial < paid)
    {expiry : Timestamp} (hover : r.paidThrough.or r.trialEndsAt = some expiry) :
    (Standing.of (some r) t grace true).canUpload = true ↔ t < expiry + grace := by
  have hlast : (∀ trial ∈ r.trialEndsAt, trial ≤ expiry) ∧
      ∀ paid ∈ r.paidThrough, paid = expiry := by
    cases hpaid : r.paidThrough with
    | none =>
      rw [hpaid] at hover
      exact ⟨fun trial htrial => (Option.some.inj (htrial.symm.trans hover)).le,
        fun _ h => (by cases h)⟩
    | some paid =>
      rw [hpaid] at hover
      obtain rfl := Option.some.inj hover
      exact ⟨fun trial htrial => (horder trial htrial paid hpaid).le,
        fun _ h => (Option.some.inj h).symm⟩
  rcases standing_cases r t with ⟨trial, htrial, h⟩ | ⟨htrial, ⟨paid, hpaid, h⟩ | hpaid⟩
  · rw [of_trial htrial h]
    exact iff_of_true rfl (by linarith [hlast.1 trial htrial])
  · rw [of_active htrial hpaid h]
    exact iff_of_true rfl (by linarith [hlast.2 paid hpaid])
  · obtain ⟨plan, heq⟩ := @afterLapse_eq r t grace expiry hover ((Plan.parse r.plan).getD .basic)
    rw [of_lapsed htrial hpaid, heq]
    split_ifs with h
    · exact iff_of_true rfl h
    · exact iff_of_false (fun hcan => (by cases hcan)) h

/-- The first instant uploads are not taken any more. -/
theorem isLeast_iff (hgrace : 0 ≤ grace)
    (horder : ∀ trial ∈ r.trialEndsAt, ∀ paid ∈ r.paidThrough, trial < paid)
    {expiry : Timestamp} (hover : r.paidThrough.or r.trialEndsAt = some expiry)
    (hcan : (Standing.of (some r) now grace true).canUpload = true) (pause : Timestamp) :
    IsLeast {t | now ≤ t ∧ (Standing.of (some r) t grace true).canUpload = false} pause ↔
      pause = expiry + grace := by
  have hnow := (canUpload_iff hgrace horder hover).mp hcan
  have hleast : IsLeast {t | now ≤ t ∧ (Standing.of (some r) t grace true).canUpload = false}
      (expiry + grace) := by
    constructor
    · refine ⟨hnow.le, ?_⟩
      rw [← Bool.not_eq_true, canUpload_iff hgrace horder hover]
      exact lt_irrefl _
    · rintro t ⟨-, hpaused⟩
      rw [← Bool.not_eq_true, canUpload_iff hgrace horder hover] at hpaused
      exact not_lt.mp hpaused
  exact ⟨fun h => h.unique hleast, fun h => h ▸ hleast⟩

/-- An account only moves forward while nothing is paid. -/
theorem rank_mono (h : t ≤ t') :
    rank (Standing.of (some r) t grace true) ≤ rank (Standing.of (some r) t' grace true) := by
  rcases standing_cases r t with ⟨trial, htrial, ht⟩ | ⟨htrial, hcase⟩
  · rw [of_trial htrial ht]
    exact Nat.zero_le _
  · have htrial' : ∀ trial ∈ r.trialEndsAt, trial ≤ t' := fun trial hmem => (htrial trial hmem).trans h
    have hone : ∀ n paid, r.paidThrough = some paid → n ≤ 1 →
        n ≤ rank (Standing.of (some r) t' grace true) := by
      intro n paid hpaid hn
      by_cases hlater : t' < paid
      · rw [of_active htrial' hpaid hlater]
        exact hn
      · have hover : r.paidThrough.or r.trialEndsAt = some paid := by rw [hpaid]; rfl
        have hlapsed : ∀ p ∈ r.paidThrough, p ≤ t' := by
          intro p hp
          rw [hpaid] at hp
          exact Option.some.inj hp ▸ not_lt.mp hlater
        obtain ⟨plan, heq⟩ := @afterLapse_eq r t' grace paid hover ((Plan.parse r.plan).getD .basic)
        rw [of_lapsed htrial' hlapsed, heq]
        split_ifs
        · exact hn.trans (by norm_num [rank])
        · exact hn.trans (by norm_num [rank])
    rcases hcase with ⟨paid, hpaid, ht⟩ | hpaid
    · rw [of_active htrial hpaid ht]
      exact hone _ paid hpaid le_rfl
    · have hpaid' : ∀ paid ∈ r.paidThrough, paid ≤ t' := fun paid hmem => (hpaid paid hmem).trans h
      rw [of_lapsed htrial hpaid, of_lapsed htrial' hpaid']
      cases hover : r.paidThrough.or r.trialEndsAt with
      | none =>
        obtain ⟨hnone, hnone'⟩ := Option.or_eq_none_iff.mp hover
        have hlapsed : Standing.lapsed ((Plan.parse r.plan).getD .basic) r = none := by
          rw [Standing.lapsed, hnone, hnone']
        rw [hlapsed]
        exact le_rfl
      | some expiry =>
        obtain ⟨plan, heq⟩ := @afterLapse_eq r t grace expiry hover ((Plan.parse r.plan).getD .basic)
        obtain ⟨plan', heq'⟩ :=
          @afterLapse_eq r t' grace expiry hover ((Plan.parse r.plan).getD .basic)
        rw [heq, heq']
        by_cases hgraced : t' < expiry + grace
        · rw [if_pos hgraced, if_pos (h.trans_lt hgraced)]
          exact le_rfl
        · rw [if_neg hgraced]
          split_ifs <;> norm_num [rank]

end

end Kitaza.AnnouncedPause
