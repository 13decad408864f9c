import Kitaza.BillingRepository

/-!
# From a checkout to a longer subscription

An owner asks for a checkout, the server opens a payment, the gateway opens a
session to pay in, and the payment's row is given the session's reference before
the owner is told where to pay. Later the gateway reports the session as paid,
any number of times. Any number of checkouts and reports run at once, statement
by statement, and any of them can break off between two statements.
-/

namespace Kitaza.BillingService

open KeyedTable Primitives BillingPlan BillingRepository

/-- Who takes the money, if anyone. -/
inductive BillingMode where
  /-- Nobody. -/
  | off
  /-- A page on this server with a button. -/
  | test
  /-- PayMongo. -/
  | payMongo
  deriving DecidableEq, Repr

/-- A year costs as many months. -/
def YEAR_PRICED_AS_MONTHS : ℤ := 10

/-- The price of months of a plan. -/
def priceCentavos (plan : Plan) (months : ℕ) : ℤ :=
  plan.monthlyCentavos * if months = 12 then YEAR_PRICED_AS_MONTHS else months

/-- What the gateway is asked for, and for whom. -/
structure CheckoutRequest where
  /-- The payment, which is new. -/
  paymentId : Uuid
  /-- The account. -/
  ownerId : Uuid
  /-- The plan. -/
  plan : Plan
  /-- The months. -/
  months : ℕ
  /-- The price. -/
  amountCentavos : ℤ
  deriving DecidableEq, Repr

/-- What the gateway answers. -/
structure Checkout where
  /-- The gateway's id for the session, which its reports quote. -/
  reference : String
  /-- Where the owner's phone opens to pay. -/
  url : String
  deriving DecidableEq, Repr

/-- What the phone is told. -/
structure CheckoutView where
  /-- The payment. -/
  paymentId : Uuid
  /-- Where to pay. -/
  checkoutUrl : String
  /-- The price in pesos. -/
  amount : ℚ
  deriving DecidableEq, Repr

/-- Why there is nothing to pay. -/
inductive CheckoutError where
  /-- The request cannot be met. -/
  | badRequest (message : String)
  /-- The server or the gateway failed. -/
  | internal
  deriving DecidableEq, Repr

/-- How far a checkout has come. -/
inductive CheckoutPhase where
  /-- It has been asked for. -/
  | asked
  /-- The payment's row is there. -/
  | opened
  /-- The gateway has opened a session. -/
  | created (checkout : Checkout)
  /-- The row has its reference, and the owner is told where to pay. -/
  | returned (checkout : Checkout)
  /-- It has failed. -/
  | failed (error : CheckoutError)
  deriving DecidableEq, Repr

namespace CheckoutPhase

/-- Whether there is a row without a reference. -/
def waits : CheckoutPhase → Bool
  | .opened => true
  | .created _ => true
  | _ => false

/-- The session the gateway has opened. -/
def session : CheckoutPhase → Option String
  | .created checkout => some checkout.reference
  | .returned checkout => some checkout.reference
  | _ => none

/-- The session the owner was sent to. -/
def handedOut : CheckoutPhase → Option String
  | .returned checkout => some checkout.reference
  | _ => none

end CheckoutPhase

/-- A checkout. -/
structure CheckoutCall where
  /-- What is asked for. -/
  request : CheckoutRequest
  /-- How far it has come. -/
  phase : CheckoutPhase
  deriving DecidableEq, Repr

/-- What a checkout that has returned tells the phone. -/
def CheckoutCall.view (c : CheckoutCall) : Option CheckoutView :=
  match c.phase with
  | .returned checkout =>
    some ⟨c.request.paymentId, checkout.url, (c.request.amountCentavos : ℚ) / 100⟩
  | _ => none

/-- A session at the gateway. -/
structure Session where
  /-- The payment it names. -/
  referenceNumber : Uuid
  /-- What it charges. -/
  amount : ℤ
  deriving DecidableEq, Repr

/-- The server and the gateway. The payments without a reference are kept apart
from those with one. -/
structure State where
  /-- The checkouts so far. -/
  checkouts : Table ℕ CheckoutCall
  /-- Payments that have no reference. -/
  unreferenced : Table Uuid Payment
  /-- The references of the others. -/
  references : Table Uuid String
  /-- The other payments, the subscriptions and the confirmations. -/
  billing : BillingRepository.State
  /-- The gateway's sessions. -/
  sessions : Table String Session
  /-- The sessions that were paid. -/
  paid : Finset String

/-- A server with owners and their subscriptions, and nothing paid. -/
def State.initial (owners : Table Uuid String) (subscriptions : Table Uuid SubscriptionRecord) :
    State where
  checkouts := Table.empty
  unreferenced := Table.empty
  references := Table.empty
  billing := .initial ⟨owners, Table.empty, subscriptions⟩
  sessions := Table.empty
  paid := ∅

/-- What can happen next. -/
inductive Action where
  /-- An owner asks for a checkout. -/
  | checkout (i : ℕ) (ownerId : Uuid) (plan : Plan) (months : ℕ) (paymentId : Uuid)
  /-- A checkout runs its next statement. -/
  | next (i : ℕ)
  /-- The gateway opens a session for a checkout. -/
  | createCheckout (i : ℕ) (checkout : Checkout)
  /-- A checkout breaks off. -/
  | fail (i : ℕ)
  /-- An owner pays where a checkout said to. -/
  | pay (reference : String)
  /-- The gateway reports a session it was paid for. -/
  | paymongoWebhook (j : ℕ) (reference : String) (method : Option String) (now : Timestamp)
  /-- The button of the test gateway's page. -/
  | payTestCheckout (j : ℕ) (paymentId : Uuid) (now : Timestamp)
  /-- A confirmation runs its next statement. -/
  | confirm (j : ℕ) (now : Timestamp)
  /-- A confirmation is rolled back. -/
  | rollBack (j : ℕ)

/-- The row a payment is opened with. -/
def openPayment (request : CheckoutRequest) : Payment where
  ownerId := request.ownerId
  plan := request.plan.asStr
  months := request.months
  amount := (request.amountCentavos : ℚ) / 100
  status := .pending
  method := none
  paidThrough := none
  paidAt := none

/-- A checkout that has come further. -/
def State.advance (s : State) (i : ℕ) (c : CheckoutCall) (phase : CheckoutPhase) : State :=
  { s with checkouts := s.checkouts.put i { c with phase := phase } }

/-- The checkout of an owner, as far as it comes without a statement. -/
def checkout (mode : BillingMode) (ownerId : Uuid) (plan : Plan) (months : ℕ) (paymentId : Uuid) :
    CheckoutCall where
  request := ⟨paymentId, ownerId, plan, months, priceCentavos plan months⟩
  phase :=
    if mode = .off then .failed (.badRequest "this server does not take payments")
    else if months ∈ OFFERED_MONTHS then .asked
    else .failed (.badRequest "months must be 1 or 12")

/-- Whether a payment's row can be inserted: its id is new and its owner is
there. -/
def insertable (s : State) (request : CheckoutRequest) : Bool :=
  (s.unreferenced.find? request.paymentId).isNone && (s.references.find? request.paymentId).isNone &&
    (s.billing.db.owners.find? request.ownerId).isSome

/-- A payment with its reference. -/
def setReference (s : State) (id : Uuid) (payment : Payment) (reference : String) : State :=
  { s with
    unreferenced := s.unreferenced.filter fun k _ => decide (k ≠ id)
    references := s.references.put id reference
    billing := { s.billing with
      db := { s.billing.db with payments := s.billing.db.payments.put reference payment } } }

/-- The next statement of a checkout. -/
def nextStatement (s : State) (i : ℕ) (c : CheckoutCall) : Option State :=
  match c.phase with
  | .asked =>
    if insertable s c.request then
      some { s.advance i c .opened with
        unreferenced := s.unreferenced.put c.request.paymentId (openPayment c.request) }
    else some (s.advance i c (.failed .internal))
  | .created checkout =>
    match s.unreferenced.find? c.request.paymentId with
    | none => some (s.advance i c (.returned checkout))
    | some payment =>
      -- references are unique
      if (s.billing.db.payments.find? checkout.reference).isSome then
        some (s.advance i c (.failed .internal))
      else
        some ((setReference s c.request.paymentId payment checkout.reference).advance i c
          (.returned checkout))
  | _ => none

/-- The reference of a payment that waits. -/
def pendingReference (s : State) (paymentId : Uuid) : Option (String × Money) :=
  (s.references.find? paymentId).bind fun reference =>
    ((s.billing.db.payments.find? reference).filter fun payment => payment.status = .pending).map
      fun payment => (reference, payment.amount)

/-- An owner has been told to pay there. -/
def HandedOut (s : State) (reference : String) : Prop :=
  s.checkouts.Any fun _ c => c.phase.handedOut = some reference

instance (s : State) (reference : String) : Decidable (HandedOut s reference) :=
  inferInstanceAs (Decidable (s.checkouts.Any _))

/-- A step of a confirmation. -/
def State.confirming (s : State) (a : BillingRepository.Action) : Option State :=
  (BillingRepository.step s.billing a).map fun billing => { s with billing := billing }

/-- One step of the server or the gateway. The gateway gives no reference twice,
and reports the sessions that were paid. -/
def step (mode : BillingMode) (s : State) : Action → Option State
  | .checkout i ownerId plan months paymentId =>
    match s.checkouts.find? i with
    | some _ => none
    | none =>
      some { s with checkouts := s.checkouts.put i (checkout mode ownerId plan months paymentId) }
  | .next i => (s.checkouts.find? i).bind (nextStatement s i)
  | .createCheckout i checkout =>
    match s.checkouts.find? i, s.sessions.find? checkout.reference with
    | some ⟨request, .opened⟩, none =>
      some { s.advance i ⟨request, .opened⟩ (.created checkout) with
        sessions := s.sessions.put checkout.reference ⟨request.paymentId, request.amountCentavos⟩ }
    | _, _ => none
  | .fail i =>
    match s.checkouts.find? i with
    | some ⟨request, .asked⟩ => some (s.advance i ⟨request, .asked⟩ (.failed .internal))
    | some ⟨request, .opened⟩ => some (s.advance i ⟨request, .opened⟩ (.failed .internal))
    | some ⟨request, .created checkout⟩ =>
      some (s.advance i ⟨request, .created checkout⟩ (.failed .internal))
    | _ => none
  | .pay reference =>
    if mode = .payMongo ∧ HandedOut s reference then some { s with paid := insert reference s.paid }
    else none
  | .paymongoWebhook j reference method now =>
    if mode = .payMongo ∧ reference ∈ s.paid then s.confirming (.call j reference method now)
    else none
  | .payTestCheckout j paymentId now =>
    if mode = .test then
      match pendingReference s paymentId with
      | none => some s
      | some (reference, _) =>
        { s with paid := insert reference s.paid }.confirming (.call j reference (some "test") now)
    else none
  | .confirm j now => s.confirming (.next j now)
  | .rollBack j => s.confirming (.fail j)

/-- Steps one after another. -/
def run (mode : BillingMode) (s : State) : List Action → Option State
  | [] => some s
  | a :: rest => (step mode s a).bind fun s' => run mode s' rest

end Kitaza.BillingService
