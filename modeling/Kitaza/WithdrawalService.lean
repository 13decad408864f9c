import Kitaza.Payloads

/-!
# Withdrawals

Money the owner takes out for personal use. Only the owner records and
removes it.
-/

namespace Kitaza.WithdrawalService

open KeyedTable Primitives Access Schema Payloads

/-- The values `upsert` writes. -/
structure WithdrawalValues where
  /-- Amount taken out. -/
  amount : Money
  /-- Trimmed text, if any. -/
  reason : Option String
  /-- When it happened. -/
  occurredAt : Timestamp
  deriving DecidableEq, Repr

/-- The row an insert-or-update leaves, or nothing when the identifier
belongs to another store. -/
def upsertRow (now : Timestamp) (storeId : Uuid) (values : WithdrawalValues) :
    Option OwnerWithdrawal → Option OwnerWithdrawal
  | none => some {
      storeId := storeId
      amount := values.amount
      reason := values.reason
      occurredAt := values.occurredAt
      updatedAt := now
      deletedAt := none }
  | some w =>
    if w.storeId = storeId then
      some { w with
        amount := values.amount
        reason := values.reason
        occurredAt := values.occurredAt
        deletedAt := none
        updatedAt := now }
    else none

/-- Insert or update; the result says whether the row is new. -/
def upsert (now : Timestamp) (storeId withdrawalId : Uuid) (values : WithdrawalValues) (db : Db) :
    Option ((OwnerWithdrawal × Bool) × Db) :=
  (upsertRow now storeId values (db.ownerWithdrawals.find? withdrawalId)).map fun row =>
    ((row, (db.ownerWithdrawals.find? withdrawalId).isNone),
      { db with ownerWithdrawals := db.ownerWithdrawals.put withdrawalId row })

/-- A live withdrawal of the store. -/
def findLive (storeId withdrawalId : Uuid) (db : Db) : Option OwnerWithdrawal :=
  (db.ownerWithdrawals.find? withdrawalId).filter fun w =>
    w.storeId == storeId && w.deletedAt.isNone

/-- Mark a live withdrawal of the store removed. -/
def softDelete (now : Timestamp) (storeId withdrawalId : Uuid) (db : Db) :
    Option (OwnerWithdrawal × Db) :=
  (findLive storeId withdrawalId db).map fun w =>
    (w, { db with
      ownerWithdrawals := db.ownerWithdrawals.put withdrawalId
        { w with deletedAt := some now, updatedAt := now } })

/-- Record a withdrawal; the result is its identifier and row. -/
def record (now : Timestamp) (storeId : Uuid) (actor : Actor) (request : RecordWithdrawalRequest)
    (db : Db) : Except ApiError ((Uuid × OwnerWithdrawal) × Db) := do
  actor.requireOwner
  let withdrawalId := request.id.getD (Uuid.newV4 db.ownerWithdrawals 0)
  let values : WithdrawalValues :=
    ⟨moneyFromF64 request.amount, trimmed request.reason, request.occurredAt.getD now⟩
  match upsert now storeId withdrawalId values db with
  | none => .error foreignId
  | some ((withdrawal, inserted), db) =>
    .ok ((withdrawalId, withdrawal),
      if inserted then
        recordAudit now actor ⟨storeId, .withdrawalRecorded, withdrawalId,
          withdrawal.occurredAt, .withdrawal withdrawal.amount⟩ db
      else db)

/-- Remove a withdrawal. -/
def remove (now : Timestamp) (storeId : Uuid) (actor : Actor) (withdrawalId : Uuid) (db : Db) :
    Except ApiError Db := do
  actor.requireOwner
  match softDelete now storeId withdrawalId db with
  | none => .error (.notFound "withdrawal")
  | some (removed, db) =>
    .ok (recordAudit now actor
      ⟨storeId, .withdrawalDeleted, withdrawalId, now, .withdrawal removed.amount⟩ db)

end Kitaza.WithdrawalService
