import Kitaza.BillingRepository

/-!
# Purging accounts

Deletions that have fallen due are carried out by a sweep, in one transaction
of two statements: what was paid is copied out of the payments, and then the
owners are deleted, with everything that is theirs. Either statement works on
what is committed when it starts, and waits for rows that others have locked,
so a payment that is confirmed in between is deleted and not copied.
-/

namespace Kitaza.AccountPurge

open KeyedTable Primitives BillingPlan BillingRepository

/-- A row of `owners`. -/
structure OwnerRow where
  /-- The owner's name. -/
  fullName : String
  /-- When deletion was asked for. -/
  deletionRequestedAt : Option Timestamp
  /-- When deletion becomes final. -/
  deleteAfter : Option Timestamp
  deriving DecidableEq, Repr

/-- A row of `payments`. -/
structure PaymentRow extends Payment where
  /-- The currency. -/
  currency : String
  /-- The gateway. -/
  provider : String
  /-- The gateway's reference. -/
  providerReference : Option String
  deriving DecidableEq, Repr

/-- A row of `accounting_records`. -/
structure AccountingRecord where
  /-- The plan that was paid for. -/
  plan : String
  /-- The months that were paid for. -/
  months : ℤ
  /-- The price. -/
  amount : Money
  /-- The currency. -/
  currency : String
  /-- The gateway. -/
  provider : String
  /-- The gateway's reference. -/
  providerReference : Option String
  /-- When it was paid. -/
  paidAt : Option Timestamp
  /-- When it was copied. -/
  retainedAt : Timestamp
  deriving DecidableEq, Repr

/-- The tables a purge works on. -/
structure Db where
  /-- The table `owners`. -/
  owners : Table Uuid OwnerRow
  /-- The table `payments`. -/
  payments : Table Uuid PaymentRow
  /-- Subscriptions under their owners. -/
  subscriptions : Table Uuid SubscriptionRecord
  /-- What is kept of payments, under their identifiers. -/
  accountingRecords : Table Uuid AccountingRecord

/-- What an owner is told about a deletion. -/
structure DeletionState where
  /-- When it was asked for. -/
  requestedAt : Option Timestamp
  /-- When it becomes final. -/
  deletesAt : Option Timestamp
  deriving DecidableEq, Repr

/-- An owner who asks for deletion; asking twice does not move the date. -/
def OwnerRow.requested (owner : OwnerRow) (grace : ℤ) (now : Timestamp) : OwnerRow :=
  { owner with
    deletionRequestedAt := owner.deletionRequestedAt.or (some now)
    deleteAfter := owner.deleteAfter.or (some (now + grace)) }

/-- An owner who stays. -/
def OwnerRow.cancelled (owner : OwnerRow) : OwnerRow :=
  { owner with deletionRequestedAt := none, deleteAfter := none }

/-- Marks an account for deletion; absent if there is no account. -/
def requestDeletion (db : Db) (ownerId : Uuid) (grace : ℤ) (now : Timestamp) :
    Option (Db × DeletionState) :=
  (db.owners.find? ownerId).map fun owner =>
    let owner := owner.requested grace now
    ({ db with owners := db.owners.put ownerId owner },
      ⟨owner.deletionRequestedAt, owner.deleteAfter⟩)

/-- Takes the mark off an account. -/
def cancelDeletion (db : Db) (ownerId : Uuid) : Db :=
  { db with owners := db.owners.mapRows fun id owner =>
      if id = ownerId then owner.cancelled else owner }

/-- An account whose deletion has become final. -/
def due (now : Timestamp) (owner : OwnerRow) : Bool := owner.deleteAfter.any (· ≤ now)

/-- What is kept of a payment. -/
def AccountingRecord.copied (now : Timestamp) (payment : PaymentRow) : AccountingRecord where
  plan := payment.plan
  months := payment.months
  amount := payment.amount
  currency := payment.currency
  provider := payment.provider
  providerReference := payment.providerReference
  paidAt := payment.paidAt
  retainedAt := now

/-- Whether an account's deletion has become final. -/
def Due (db : Db) (now : Timestamp) (ownerId : Uuid) : Bool :=
  (db.owners.find? ownerId).any (due now)

/-- What due accounts have paid. -/
def paidByDue (now : Timestamp) (db : Db) : Table Uuid AccountingRecord :=
  db.payments.filterMap fun _ payment =>
    if Due db now payment.ownerId && payment.status = .paid then
      some (AccountingRecord.copied now payment)
    else none

/-- The due accounts. -/
def dueOwners (now : Timestamp) (db : Db) : Finset Uuid :=
  (db.owners.filter fun _ owner => due now owner).ids

/-- Records that are there stay as they are. -/
def withRecords (kept records : Table Uuid AccountingRecord) : Table Uuid AccountingRecord :=
  Table.overlay records kept kept.ids

/-- What a sweep leaves: the records it made, and nothing of these owners. -/
def purged (db : Db) (records : Table Uuid AccountingRecord) (owners : Finset Uuid) : Db where
  owners := db.owners.filter fun id _ => id ∉ owners
  payments := db.payments.filter fun _ payment => payment.ownerId ∉ owners
  subscriptions := db.subscriptions.filter fun ownerId _ => ownerId ∉ owners
  accountingRecords := withRecords db.accountingRecords records

/-- How far a sweep has come. -/
inductive SweepPhase where
  /-- The transaction has begun. -/
  | begun
  /-- The rows to copy have been read. -/
  | listed (rows : Table Uuid AccountingRecord)
  /-- They are inserted, but for those that were there. -/
  | copied (records : Table Uuid AccountingRecord)
  /-- The owners to delete have been read. -/
  | chosen (records : Table Uuid AccountingRecord) (owners : Finset Uuid)
  /-- They are deleted, with what is theirs. -/
  | deleted (records : Table Uuid AccountingRecord) (owners : Finset Uuid)
  /-- The sweep has committed. -/
  | returned (deleted : ℕ)
  /-- The transaction was rolled back by an error or a lost connection. -/
  | failed

namespace SweepPhase

/-- The records that are inserted and not yet committed. -/
def records : SweepPhase → Table Uuid AccountingRecord
  | .copied records => records
  | .chosen records _ => records
  | .deleted records _ => records
  | _ => Table.empty

/-- The owners that are deleted, and the deletion not yet committed. -/
def owners : SweepPhase → Finset Uuid
  | .deleted _ owners => owners
  | _ => ∅

/-- Whether a sweep has read what to copy, and not yet deleted. -/
def copying : SweepPhase → Bool
  | .listed _ => true
  | .copied _ => true
  | .chosen _ _ => true
  | _ => false

/-- Whether a sweep has ended. -/
def ended : SweepPhase → Bool
  | .returned _ => true
  | .failed => true
  | _ => false

end SweepPhase

/-- A sweep. -/
structure Sweep where
  /-- When its transaction began. -/
  began : Timestamp
  /-- How far it has come. -/
  phase : SweepPhase

/-- A confirmation of a payment. -/
structure Call where
  /-- The reference it was told. -/
  reference : String
  /-- The way of paying it was told. -/
  method : Option String
  /-- When its transaction began. -/
  began : Timestamp
  /-- The payment it has found. -/
  target : Option Uuid
  /-- How far it has come. -/
  phase : Phase
  deriving DecidableEq

/-- The server. -/
structure State where
  /-- What is committed. -/
  db : Db
  /-- The confirmations so far. -/
  calls : Table ℕ Call
  /-- The sweeps so far. -/
  sweeps : Table ℕ Sweep

/-- No transaction yet. -/
def State.initial (db : Db) : State := ⟨db, Table.empty, Table.empty⟩

/-- What can happen next. -/
inductive Action where
  /-- A gateway reports a payment. -/
  | call (i : ℕ) (reference : String) (method : Option String) (now : Timestamp)
  /-- A confirmation runs its next statement. -/
  | next (i : ℕ) (now : Timestamp)
  /-- A confirmation is rolled back. -/
  | fail (i : ℕ)
  /-- A sweep begins. -/
  | sweep (j : ℕ) (now : Timestamp)
  /-- A sweep comes further. -/
  | nextSweep (j : ℕ)
  /-- A sweep is rolled back. -/
  | failSweep (j : ℕ)
  /-- An owner asks for deletion. -/
  | requestDeletion (ownerId : Uuid) (grace : ℤ) (now : Timestamp)
  /-- An owner stays. -/
  | cancelDeletion (ownerId : Uuid)
  deriving DecidableEq

/-- A confirmation has locked the payment's row. -/
def PaymentHeld (id : Uuid) (s : State) : Prop :=
  s.calls.Any fun _ c => c.target = some id ∧ c.phase.payment.isSome

/-- A confirmation has locked a payment of the owner. -/
def PaymentsHeld (ownerId : Uuid) (s : State) : Prop :=
  s.calls.Any fun _ c => c.phase.payment.any fun payment => payment.ownerId = ownerId

/-- A sweep has deleted the owner, with what is theirs. -/
def OwnerHeld (ownerId : Uuid) (s : State) : Prop :=
  s.sweeps.Any fun _ w => ownerId ∈ w.phase.owners

/-- A sweep has inserted the record. -/
def RecordHeld (id : Uuid) (s : State) : Prop :=
  s.sweeps.Any fun _ w => (w.phase.records.find? id).isSome

/-- Another transaction has locked the subscription's row. -/
def SubscriptionHeld (i : ℕ) (ownerId : Uuid) (s : State) : Prop :=
  (s.calls.Any fun j c => j ≠ i ∧ c.phase.subscriptionOf = some ownerId) ∨ OwnerHeld ownerId s

instance (id : Uuid) (s : State) : Decidable (PaymentHeld id s) :=
  inferInstanceAs (Decidable (s.calls.Any _))

instance (ownerId : Uuid) (s : State) : Decidable (PaymentsHeld ownerId s) :=
  inferInstanceAs (Decidable (s.calls.Any _))

instance (ownerId : Uuid) (s : State) : Decidable (OwnerHeld ownerId s) :=
  inferInstanceAs (Decidable (s.sweeps.Any _))

instance (id : Uuid) (s : State) : Decidable (RecordHeld id s) :=
  inferInstanceAs (Decidable (s.sweeps.Any _))

instance (i : ℕ) (ownerId : Uuid) (s : State) : Decidable (SubscriptionHeld i ownerId s) :=
  inferInstanceAs (Decidable (_ ∨ _))

/-- A confirmation that has come further. -/
def State.advance (s : State) (i : ℕ) (c : Call) (phase : Phase) : State :=
  { s with calls := s.calls.put i { c with phase := phase } }

/-- A sweep that has come further. -/
def State.swept (s : State) (j : ℕ) (w : Sweep) (phase : SweepPhase) : State :=
  { s with sweeps := s.sweeps.put j { w with phase := phase } }

/-- What the commit of a confirmation makes visible. -/
def committed (db : Db) (target : Option Uuid) (payment : Payment)
    (subscription : SubscriptionRecord) : Db :=
  { db with
    payments := db.payments.mapRows fun id row =>
      if some id = target then { row with toPayment := payment } else row
    subscriptions := db.subscriptions.put payment.ownerId subscription }

/-- The next statement of a confirmation, at an instant; absent if it waits
for a row or the call has ended. -/
def confirm (s : State) (i : ℕ) (c : Call) (now : Timestamp) : Option State :=
  match c.phase with
  | .begun =>
    match s.db.payments.entries.find? fun entry =>
        entry.2.providerReference = some c.reference with
    | none => some (s.advance i c (.returned none))
    | some (id, payment) =>
      match payment.status, s.db.owners.find? payment.ownerId with
      | .pending, some owner =>
        if PaymentHeld id s ∨ OwnerHeld payment.ownerId s then none
        else some (s.advance i { c with target := some id }
          (.marked (payment.toPayment.markedPaid c.began c.method) owner.fullName))
      | _, _ => some (s.advance i c (.returned none))
  | .marked payment ownerName =>
    match s.db.subscriptions.find? payment.ownerId with
    | none => some (s.advance i c (.read payment ownerName none))
    | some current =>
      if SubscriptionHeld i payment.ownerId s then none
      else some (s.advance i c (.read payment ownerName (some current)))
  | .read payment ownerName current =>
    if SubscriptionHeld i payment.ownerId s then none
    else
      let paidThrough := paidThroughAfter current payment.boughtPlan payment.boughtMonths now
      let row := upserted (s.db.subscriptions.find? payment.ownerId) payment.boughtPlan paidThrough
      some (s.advance i c (.extended payment ownerName row paidThrough now))
  | .extended payment ownerName subscription paidThrough read =>
    some (s.advance i c (.written { payment with paidThrough := some paidThrough } ownerName
      subscription paidThrough read))
  | .written payment ownerName subscription paidThrough _ =>
    some ({ s with db := committed s.db c.target payment subscription }.advance i c
      (.returned (some (confirmed payment ownerName c.method paidThrough))))
  | .returned _ => none
  | .failed => none

/-- What a sweep does next; absent if it waits for a row or has ended. -/
def purgeAccounts (s : State) (j : ℕ) (w : Sweep) : Option State :=
  match w.phase with
  | .begun => some (s.swept j w (.listed (paidByDue w.began s.db)))
  | .listed rows =>
    if ∃ id ∈ rows.ids, RecordHeld id s then none
    else
      let records := rows.filter fun id _ => (s.db.accountingRecords.find? id).isNone
      some (s.swept j w (.copied records))
  | .copied records => some (s.swept j w (.chosen records (dueOwners w.began s.db)))
  | .chosen records owners =>
    -- a row that changed since it was read is looked at again
    let gone := owners ∩ dueOwners w.began s.db
    if (∃ owner ∈ owners, OwnerHeld owner s) ∨ ∃ owner ∈ gone, PaymentsHeld owner s then none
    else some (s.swept j w (.deleted records gone))
  | .deleted records owners =>
    some ({ s with db := purged s.db records owners }.swept j w (.returned owners.card))
  | .returned _ => none
  | .failed => none

/-- One step of the server. -/
def step (s : State) : Action → Option State
  | .call i reference method now =>
    match s.calls.find? i with
    | some _ => none
    | none => some { s with calls := s.calls.put i ⟨reference, method, now, none, .begun⟩ }
  | .next i now =>
    match s.calls.find? i with
    | none => none
    | some c => confirm s i c now
  | .fail i =>
    match s.calls.find? i with
    | none => none
    | some c => if c.phase.ended then none else some (s.advance i c .failed)
  | .sweep j now =>
    match s.sweeps.find? j with
    | some _ => none
    | none => some { s with sweeps := s.sweeps.put j ⟨now, .begun⟩ }
  | .nextSweep j =>
    match s.sweeps.find? j with
    | none => none
    | some w => purgeAccounts s j w
  | .failSweep j =>
    match s.sweeps.find? j with
    | none => none
    | some w => if w.phase.ended then none else some (s.swept j w .failed)
  | .requestDeletion ownerId grace now =>
    if OwnerHeld ownerId s then none
    else
      match requestDeletion s.db ownerId grace now with
      | none => some s
      | some (db, _) => some { s with db := db }
  | .cancelDeletion ownerId =>
    if OwnerHeld ownerId s then none else some { s with db := cancelDeletion s.db ownerId }

/-- Steps one after another. -/
def run (s : State) : List Action → Option State
  | [] => some s
  | a :: rest => (step s a).bind fun s' => run s' rest

end Kitaza.AccountPurge
