import Kitaza.Payloads

/-!
# Expenses

Insert-or-update on the device's identifier. An existing expense is only
overwritten by the owner or by whoever first recorded it.
-/

namespace Kitaza.ExpenseService

open KeyedTable Primitives Access Schema Payloads

/-- The closed list of categories. -/
def CATEGORIES : List String :=
  ["inventory", "utilities", "salary", "transportation", "rent", "supplies", "repairs",
    "taxes_permits", "other"]

/-- Read a category. -/
def parseCategory (raw : String) : Except ApiError String :=
  let category := toLowercase (trim raw)
  if category ∈ CATEGORIES then .ok category
  else .error (.badRequest ("unknown expense category '" ++ category ++ "'"))

/-- The values `upsert` writes. -/
structure ExpenseValues where
  /-- One of the closed list of categories. -/
  category : String
  /-- Trimmed text, if any. -/
  description : Option String
  /-- Amount spent. -/
  amount : Money
  /-- When it happened. -/
  occurredAt : Timestamp
  deriving DecidableEq, Repr

/-- The row an insert-or-update leaves, or nothing when it is refused. -/
def upsertRow (now : Timestamp) (storeId : Uuid) (values : ExpenseValues) (actor : Actor) :
    Option Expense → Option Expense
  | none => some {
      storeId := storeId
      category := values.category
      description := values.description
      amount := values.amount
      occurredAt := values.occurredAt
      recordedByStaffId := actor.staffId
      updatedAt := now
      deletedAt := none }
  | some e =>
    if e.storeId = storeId ∧ (actor.isOwner || sqlEq e.recordedByStaffId actor.staffId) then
      some { e with
        category := values.category
        description := values.description
        amount := values.amount
        occurredAt := values.occurredAt
        deletedAt := none
        updatedAt := now }
    else none

/-- Insert or update; the result says whether the row is new. -/
def upsert (now : Timestamp) (storeId expenseId : Uuid) (values : ExpenseValues) (actor : Actor)
    (db : Db) : Option ((Expense × Bool) × Db) :=
  (upsertRow now storeId values actor (db.expenses.find? expenseId)).map fun row =>
    ((row, (db.expenses.find? expenseId).isNone),
      { db with expenses := db.expenses.put expenseId row })

/-- A live expense of the store. -/
def findLive (storeId expenseId : Uuid) (db : Db) : Option Expense :=
  (db.expenses.find? expenseId).filter fun e => e.storeId == storeId && e.deletedAt.isNone

/-- Mark a live expense of the store removed. -/
def softDelete (now : Timestamp) (storeId expenseId : Uuid) (db : Db) : Option (Expense × Db) :=
  (findLive storeId expenseId db).map fun e =>
    (e, { db with
      expenses := db.expenses.put expenseId { e with deletedAt := some now, updatedAt := now } })

/-- Record an expense; the result is its identifier and row. -/
def record (now : Timestamp) (storeId : Uuid) (actor : Actor) (request : RecordExpenseRequest)
    (db : Db) : Except ApiError ((Uuid × Expense) × Db) := do
  actor.require .recordExpenses
  let category ← parseCategory request.category
  let expenseId := request.id.getD (Uuid.newV4 db.expenses 0)
  let values : ExpenseValues :=
    ⟨category, trimmed request.description, moneyFromF64 request.amount,
      request.occurredAt.getD now⟩
  match upsert now storeId expenseId values actor db with
  | none => .error (.forbidden "only the owner can change an expense someone else recorded")
  | some ((expense, inserted), db) =>
    .ok ((expenseId, expense),
      if inserted then
        recordAudit now actor ⟨storeId, .expenseRecorded, expenseId, expense.occurredAt,
          .expense expense.amount expense.category⟩ db
      else db)

/-- Remove an expense. -/
def remove (now : Timestamp) (storeId : Uuid) (actor : Actor) (expenseId : Uuid) (db : Db) :
    Except ApiError Db := do
  actor.require .deleteRecords
  match softDelete now storeId expenseId db with
  | none => .error (.notFound "expense")
  | some (removed, db) =>
    .ok (recordAudit now actor
      ⟨storeId, .expenseDeleted, expenseId, now, .expense removed.amount removed.category⟩ db)

end Kitaza.ExpenseService
