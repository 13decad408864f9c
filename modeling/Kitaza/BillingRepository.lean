import Mathlib.Data.Finset.Max
import Kitaza.BillingPlan
import Kitaza.KeyedTable

/-!
# Confirming payments

The payments that have a gateway reference, the subscriptions they extend,
and the transaction that confirms one, statement by statement. Any number of
confirmations run at once, each statement on what is committed when it runs
and on the rows its own transaction wrote; a statement that needs a row
another transaction has locked waits for it.
-/

namespace Kitaza.BillingRepository

open KeyedTable Primitives BillingPlan

/-- Whether a payment has been paid. -/
inductive PaymentStatus where
  | pending
  | paid
  deriving DecidableEq, Repr

/-- A payment as stored. -/
structure Payment where
  /-- The account it is for. -/
  ownerId : Uuid
  /-- The plan that is paid for. -/
  plan : String
  /-- The months that are paid for. -/
  months : ℤ
  /-- The price. -/
  amount : Money
  /-- Whether it has been paid. -/
  status : PaymentStatus
  /-- How it was paid. -/
  method : Option String
  /-- What it extended the subscription to. -/
  paidThrough : Option Timestamp
  /-- When it was paid. -/
  paidAt : Option Timestamp
  deriving DecidableEq, Repr

/-- The tables a confirmation works on. -/
structure Db where
  /-- The owners' names. -/
  owners : Table Uuid String
  /-- Payments under their gateway references, which are unique. -/
  payments : Table String Payment
  /-- Subscriptions under their owners. -/
  subscriptions : Table Uuid SubscriptionRecord

/-- A payment that has just been confirmed, and what it bought. -/
structure ConfirmedPayment where
  /-- The account. -/
  ownerId : Uuid
  /-- The owner's name. -/
  ownerName : String
  /-- The plan. -/
  plan : Plan
  /-- The months. -/
  months : ℕ
  /-- The price. -/
  amount : Money
  /-- How it was paid. -/
  method : Option String
  /-- What it extended the subscription to. -/
  paidThrough : Timestamp
  deriving DecidableEq, Repr

/-- Months of a plan, paid for at an instant. -/
structure Purchase where
  /-- The plan. -/
  plan : Plan
  /-- The months. -/
  months : ℕ
  /-- The clock when the new end is computed. -/
  now : Timestamp
  deriving DecidableEq, Repr

namespace Payment

/-- The plan a payment buys. -/
def boughtPlan (payment : Payment) : Plan := (Plan.parse payment.plan).getD .basic

/-- The months a payment buys. -/
def boughtMonths (payment : Payment) : ℕ := (max payment.months 1).toNat

/-- What a payment buys at an instant. -/
def bought (payment : Payment) (now : Timestamp) : Purchase :=
  ⟨payment.boughtPlan, payment.boughtMonths, now⟩

/-- The payment once it is paid. -/
def markedPaid (now : Timestamp) (method : Option String) (payment : Payment) : Payment :=
  { payment with status := .paid, paidAt := some now, method := method }

end Payment

/-- The subscription row a confirmation writes: a new one, or the one there
is with another plan and another end. -/
def upserted (row : Option SubscriptionRecord) (plan : Plan) (paidThrough : Timestamp) :
    SubscriptionRecord :=
  match row with
  | none => ⟨plan.asStr, none, some paidThrough⟩
  | some row => { row with plan := plan.asStr, paidThrough := some paidThrough }

/-- A subscription after a purchase. -/
def extended (subscription : SubscriptionRecord) (purchase : Purchase) : SubscriptionRecord :=
  upserted (some subscription) purchase.plan
    (paidThroughAfter (some subscription) purchase.plan purchase.months purchase.now)

/-- A subscription after purchases one after another. -/
def afterAll (subscription : SubscriptionRecord) (purchases : List Purchase) : SubscriptionRecord :=
  purchases.foldl extended subscription

theorem afterAll_concat (subscription : SubscriptionRecord) (purchases : List Purchase)
    (p : Purchase) :
    afterAll subscription (purchases ++ [p]) = extended (afterAll subscription purchases) p := by
  rw [afterAll, List.foldl_append]
  rfl

/-- How far a confirmation has come. -/
inductive Phase where
  /-- The transaction has begun. -/
  | begun
  /-- The payment's row is written as paid. -/
  | marked (payment : Payment) (ownerName : String)
  /-- The subscription has been read, and its row locked. -/
  | read (payment : Payment) (ownerName : String) (current : Option SubscriptionRecord)
  /-- The subscription's row is written. -/
  | extended (payment : Payment) (ownerName : String) (subscription : SubscriptionRecord)
      (paidThrough now : Timestamp)
  /-- The payment's row carries what it bought. -/
  | written (payment : Payment) (ownerName : String) (subscription : SubscriptionRecord)
      (paidThrough now : Timestamp)
  /-- The call has returned. -/
  | returned (result : Option ConfirmedPayment)
  /-- The transaction was rolled back by an error or a lost connection. -/
  | failed
  deriving DecidableEq

/-- A confirmation. -/
structure Call where
  /-- The reference it was told. -/
  reference : String
  /-- The way of paying it was told. -/
  method : Option String
  /-- When its transaction began. -/
  began : Timestamp
  /-- How far it has come. -/
  phase : Phase
  deriving DecidableEq

namespace Phase

/-- The payment whose row is locked. -/
def payment : Phase → Option Payment
  | .marked payment _ => some payment
  | .read payment _ _ => some payment
  | .extended payment _ _ _ _ => some payment
  | .written payment _ _ _ _ => some payment
  | _ => none

/-- The owner whose subscription row is locked. -/
def subscriptionOf : Phase → Option Uuid
  | .read payment _ (some _) => some payment.ownerId
  | .extended payment _ _ _ _ => some payment.ownerId
  | .written payment _ _ _ _ => some payment.ownerId
  | _ => none

/-- Whether the call has ended. -/
def ended : Phase → Bool
  | .returned _ => true
  | .failed => true
  | _ => false

/-- The statements to come. -/
def stepsLeft : Phase → ℕ
  | .begun => 5
  | .marked _ _ => 4
  | .read _ _ _ => 3
  | .extended _ _ _ _ _ => 2
  | .written _ _ _ _ _ => 1
  | _ => 0

end Phase

/-- A confirmation that was committed. -/
structure Confirmation where
  /-- The call. -/
  call : ℕ
  /-- The payment's reference. -/
  reference : String
  /-- The account. -/
  ownerId : Uuid
  /-- What it bought, and when. -/
  purchase : Purchase
  deriving DecidableEq

/-- The server. -/
structure State where
  /-- What is committed. -/
  db : Db
  /-- The calls so far. -/
  calls : Table ℕ Call
  /-- The confirmations in the order of their commits. -/
  log : List Confirmation

/-- No call yet. -/
def State.initial (db : Db) : State := ⟨db, Table.empty, []⟩

/-- What can happen next. -/
inductive Action where
  /-- A gateway reports a payment. -/
  | call (i : ℕ) (reference : String) (method : Option String) (now : Timestamp)
  /-- A confirmation runs its next statement. -/
  | next (i : ℕ) (now : Timestamp)
  /-- A confirmation is rolled back: by an error, a lost connection. -/
  | fail (i : ℕ)
  deriving DecidableEq

/-- Another transaction has locked the payment's row. -/
def PaymentHeld (i : ℕ) (reference : String) (s : State) : Prop :=
  s.calls.Any fun j c => j ≠ i ∧ c.reference = reference ∧ c.phase.payment.isSome

/-- Another transaction has locked the subscription's row. -/
def SubscriptionHeld (i : ℕ) (ownerId : Uuid) (s : State) : Prop :=
  s.calls.Any fun j c => j ≠ i ∧ c.phase.subscriptionOf = some ownerId

instance (i : ℕ) (reference : String) (s : State) : Decidable (PaymentHeld i reference s) :=
  inferInstanceAs (Decidable (s.calls.Any _))

instance (i : ℕ) (ownerId : Uuid) (s : State) : Decidable (SubscriptionHeld i ownerId s) :=
  inferInstanceAs (Decidable (s.calls.Any _))

/-- A call that has come further. -/
def State.advance (s : State) (i : ℕ) (c : Call) (phase : Phase) : State :=
  { s with calls := s.calls.put i { c with phase := phase } }

/-- What a commit makes visible. -/
def committed (db : Db) (reference : String) (payment : Payment)
    (subscription : SubscriptionRecord) : Db where
  owners := db.owners
  payments := db.payments.put reference payment
  subscriptions := db.subscriptions.put payment.ownerId subscription

/-- What a confirmation reports. -/
def confirmed (payment : Payment) (ownerName : String) (method : Option String)
    (paidThrough : Timestamp) : ConfirmedPayment where
  ownerId := payment.ownerId
  ownerName := ownerName
  plan := payment.boughtPlan
  months := payment.boughtMonths
  amount := payment.amount
  method := method
  paidThrough := paidThrough

/-- The next statement of a confirmation, at an instant; absent if it waits
for a row or the call has ended. -/
def confirm (s : State) (i : ℕ) (c : Call) (now : Timestamp) : Option State :=
  match c.phase with
  | .begun =>
    match s.db.payments.find? c.reference with
    | none => some (s.advance i c (.returned none))
    | some payment =>
      match payment.status, s.db.owners.find? payment.ownerId with
      | .pending, some ownerName =>
        if PaymentHeld i c.reference s then none
        else some (s.advance i c (.marked (payment.markedPaid c.began c.method) ownerName))
      | _, _ => some (s.advance i c (.returned none))
  | .marked payment ownerName =>
    match s.db.subscriptions.find? payment.ownerId with
    | none => some (s.advance i c (.read payment ownerName none))
    | some current =>
      if SubscriptionHeld i payment.ownerId s then none
      else some (s.advance i c (.read payment ownerName (some current)))
  | .read payment ownerName current =>
    if SubscriptionHeld i payment.ownerId s then none
    else
      let paidThrough := paidThroughAfter current payment.boughtPlan payment.boughtMonths now
      let row := upserted (s.db.subscriptions.find? payment.ownerId) payment.boughtPlan paidThrough
      some (s.advance i c (.extended payment ownerName row paidThrough now))
  | .extended payment ownerName subscription paidThrough read =>
    some (s.advance i c (.written { payment with paidThrough := some paidThrough } ownerName
      subscription paidThrough read))
  | .written payment ownerName subscription paidThrough read =>
    some
      { db := committed s.db c.reference payment subscription
        calls := s.calls.put i { c with
          phase := .returned (some (confirmed payment ownerName c.method paidThrough)) }
        log := s.log ++ [⟨i, c.reference, payment.ownerId, payment.bought read⟩] }
  | .returned _ => none
  | .failed => none

/-- One step of the server. -/
def step (s : State) : Action → Option State
  | .call i reference method now =>
    match s.calls.find? i with
    | some _ => none
    | none => some { s with calls := s.calls.put i ⟨reference, method, now, .begun⟩ }
  | .next i now =>
    match s.calls.find? i with
    | none => none
    | some c => confirm s i c now
  | .fail i =>
    match s.calls.find? i with
    | none => none
    | some c => if c.phase.ended then none else some (s.advance i c .failed)

/-- Steps one after another. -/
def run (s : State) : List Action → Option State
  | [] => some s
  | a :: rest => (step s a).bind fun s' => run s' rest

/-- Every call has ended. -/
def State.AllEnded (s : State) : Prop :=
  ∀ i c, s.calls.find? i = some c → c.phase.ended = true

end Kitaza.BillingRepository
