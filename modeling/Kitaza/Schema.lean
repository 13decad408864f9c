import Mathlib.Data.Finset.Max
import Kitaza.Access

/-!
# The store database

The rows of the six business tables and the activity log, with the columns
the modelled statements read or write. A row's identifier is its key in the
table. Deletion is soft: a deleted row keeps its place and carries the
instant of its removal.
-/

namespace Kitaza.Schema

open KeyedTable Primitives Access

/-- A row of `products`. -/
structure Product where
  /-- The store it belongs to. -/
  storeId : Uuid
  /-- Name shown on lists and receipts. -/
  name : String
  /-- Scanned code, unique in the store where present. -/
  barcode : Option String
  /-- What one unit is called. -/
  unitLabel : String
  /-- Latest cost of one unit. -/
  costPrice : Money
  /-- Price of one unit. -/
  sellingPrice : Money
  /-- Units on the shelf, as the ledger has them. -/
  stockQuantity : Quantity
  /-- Level at which to reorder. -/
  reorderLevel : Quantity
  /-- Whether the product is offered for sale. -/
  isActive : Bool
  /-- Last write. -/
  updatedAt : Timestamp
  /-- Removal, if it was removed. -/
  deletedAt : Option Timestamp
  deriving DecidableEq, Repr

/-- A row of `sales`. -/
structure Sale where
  /-- The store it belongs to. -/
  storeId : Uuid
  /-- One of the allowed payment methods. -/
  paymentMethod : String
  /-- Gross less discount. -/
  totalAmount : Money
  /-- Cost of what was sold. -/
  costAmount : Money
  /-- Discount on the whole sale. -/
  discountAmount : Money
  /-- Free text. -/
  note : Option String
  /-- When it happened on the device. -/
  occurredAt : Timestamp
  /-- Who rang it up; absent for the owner. -/
  recordedByStaffId : Option Uuid
  /-- Last write. -/
  updatedAt : Timestamp
  /-- When it was voided, if it was. -/
  deletedAt : Option Timestamp
  deriving DecidableEq, Repr

/-- A row of `sale_items`. -/
structure SaleItem where
  /-- The sale the line belongs to. -/
  saleId : Uuid
  /-- The product sold; absent for a quick sale. -/
  productId : Option Uuid
  /-- The name at the time of the sale. -/
  productName : String
  /-- Units sold. -/
  quantity : Quantity
  /-- Price of one unit. -/
  unitPrice : Money
  /-- Cost of one unit. -/
  unitCost : Money
  /-- Price times quantity, rounded. -/
  lineTotal : Money
  deriving DecidableEq, Repr

/-- The kinds of stock movement the ledger knows. -/
inductive MovementKind where
  | stockIn
  | stockOut
  | sale
  | adjustment
  | spoilage
  deriving DecidableEq, Repr

/-- A row of `stock_movements`. -/
structure StockMovement where
  /-- The store it belongs to. -/
  storeId : Uuid
  /-- The product moved. -/
  productId : Uuid
  /-- Its kind. -/
  movement : MovementKind
  /-- Signed change of the stock. -/
  quantity : Quantity
  /-- Cost of one unit, where known. -/
  unitCost : Money
  /-- Free text; sale rows carry the sale's note. -/
  note : Option String
  /-- When it happened on the device. -/
  occurredAt : Timestamp
  /-- Last write. -/
  updatedAt : Timestamp
  /-- When it was retired, if it was. -/
  deletedAt : Option Timestamp
  deriving DecidableEq, Repr

/-- A row of `expenses`. -/
structure Expense where
  /-- The store it belongs to. -/
  storeId : Uuid
  /-- One of the closed list of categories. -/
  category : String
  /-- Free text. -/
  description : Option String
  /-- Amount spent. -/
  amount : Money
  /-- When it happened on the device. -/
  occurredAt : Timestamp
  /-- Who recorded it; absent for the owner. -/
  recordedByStaffId : Option Uuid
  /-- Last write. -/
  updatedAt : Timestamp
  /-- Removal, if it was removed. -/
  deletedAt : Option Timestamp
  deriving DecidableEq, Repr

/-- A row of `owner_withdrawals`. -/
structure OwnerWithdrawal where
  /-- The store it belongs to. -/
  storeId : Uuid
  /-- Amount taken out. -/
  amount : Money
  /-- Free text. -/
  reason : Option String
  /-- When it happened on the device. -/
  occurredAt : Timestamp
  /-- Last write. -/
  updatedAt : Timestamp
  /-- Removal, if it was removed. -/
  deletedAt : Option Timestamp
  deriving DecidableEq, Repr

/-- The actions the modelled services log. -/
inductive AuditAction where
  | saleRecorded
  | saleVoided
  | expenseRecorded
  | expenseDeleted
  | withdrawalRecorded
  | withdrawalDeleted
  | productAdded
  | productChanged
  | productRemoved
  | stockReceived
  | stockRemoved
  | stockCounted
  | stockSpoiled
  deriving DecidableEq, Repr

/-- The log entry for a stock movement kind, as the ledger names them. -/
def AuditAction.forMovement : MovementKind → Option AuditAction
  | .stockIn => some .stockReceived
  | .stockOut => some .stockRemoved
  | .adjustment => some .stockCounted
  | .spoilage => some .stockSpoiled
  | .sale => none

/-- The details column of a log row; each constructor is one of the
objects the services write, its arguments the object's fields. -/
inductive AuditDetails where
  | saleRecorded (total : Money) (items : ℕ) (paymentMethod : String)
  | saleVoided (total : Money) (soldAt : Timestamp)
  | expense (amount : Money) (category : String)
  | withdrawal (amount : Money)
  | productAdded (name : String) (sellingPrice : Money)
  | productChanged (name : String) (nameChange : Option (String × String))
      (sellingPriceChange costPriceChange : Option (Money × Money))
  | productRemoved (name : String)
  | stockCounted (name : String) (counted change : Quantity)
  | stockMoved (name : String) (quantity : Quantity)
  deriving DecidableEq, Repr

/-- One thing that happened, about to be written to the log. -/
structure AuditEntry where
  /-- The store it happened in. -/
  storeId : Uuid
  /-- What happened. -/
  action : AuditAction
  /-- The record it happened to. -/
  entityId : Uuid
  /-- When it happened on the device. -/
  occurredAt : Timestamp
  /-- What the log line says. -/
  details : AuditDetails
  deriving DecidableEq, Repr

/-- A row of `audit_events`; its place in the log is its sequence number. -/
structure AuditEvent where
  /-- The account. -/
  ownerId : Uuid
  /-- The staff member who did it; absent for the owner. -/
  staffId : Option Uuid
  /-- Their name at the time. -/
  actorName : String
  /-- The device at the time. -/
  deviceName : String
  /-- What was written. -/
  entry : AuditEntry
  /-- When the server wrote it. -/
  recordedAt : Timestamp
  deriving DecidableEq, Repr

/-- The row an update joined with several rows takes its values from. The
database promises one of them and not which, and not the same one each time. -/
structure JoinRule where
  /-- The row taken, by the instant of the statement and the rows joined. -/
  pick : Timestamp → Finset Uuid → Uuid
  /-- It is one of them. -/
  pick_mem : ∀ (now : Timestamp) (ids : Finset Uuid), ids.Nonempty → pick now ids ∈ ids

/-- Always the row with the least identifier. -/
def JoinRule.least : JoinRule where
  pick _ ids := ids.min.untopD Uuid.nil
  pick_mem _ ids h := by
    obtain ⟨id, hid⟩ := Finset.min_of_nonempty h
    rw [hid]
    exact Finset.mem_of_min hid

/-- The store database. -/
structure Db where
  /-- Products, removed ones included. -/
  products : Table Uuid Product
  /-- Sales, voided ones included. -/
  sales : Table Uuid Sale
  /-- Sale lines. -/
  saleItems : Table Uuid SaleItem
  /-- The stock ledger, retired rows included. -/
  stockMovements : Table Uuid StockMovement
  /-- Expenses, removed ones included. -/
  expenses : Table Uuid Expense
  /-- Withdrawals, removed ones included. -/
  ownerWithdrawals : Table Uuid OwnerWithdrawal
  /-- The activity log, oldest first. -/
  auditEvents : List AuditEvent
  /-- How the engine runs an update joined with several rows. -/
  joins : JoinRule

/-- The database of a deployment nobody has used. -/
def Db.empty : Db :=
  ⟨Table.empty, Table.empty, Table.empty, Table.empty, Table.empty, Table.empty, [], .least⟩

instance : Inhabited Db := ⟨Db.empty⟩

/-- Append an entry to the activity log. -/
def recordAudit (now : Timestamp) (actor : Actor) (entry : AuditEntry) (db : Db) : Db :=
  { db with
    auditEvents := db.auditEvents ++
      [⟨actor.ownerId, actor.staffId, actor.name, actor.deviceName, entry, now⟩] }

section

variable (now : Timestamp) (actor : Actor) (entry : AuditEntry) (db : Db)

@[simp] theorem recordAudit_products : (recordAudit now actor entry db).products = db.products :=
  rfl

@[simp] theorem recordAudit_sales : (recordAudit now actor entry db).sales = db.sales := rfl

@[simp] theorem recordAudit_saleItems :
    (recordAudit now actor entry db).saleItems = db.saleItems := rfl

@[simp] theorem recordAudit_stockMovements :
    (recordAudit now actor entry db).stockMovements = db.stockMovements := rfl

@[simp] theorem recordAudit_expenses : (recordAudit now actor entry db).expenses = db.expenses :=
  rfl

@[simp] theorem recordAudit_ownerWithdrawals :
    (recordAudit now actor entry db).ownerWithdrawals = db.ownerWithdrawals := rfl

@[simp] theorem recordAudit_joins : (recordAudit now actor entry db).joins = db.joins := rfl

end

/-- Write a log entry if there is one. -/
def recordAudit? (now : Timestamp) (actor : Actor) (entry : Option AuditEntry) (db : Db) : Db :=
  match entry with
  | none => db
  | some entry => recordAudit now actor entry db

section

variable (now : Timestamp) (actor : Actor) (entry : Option AuditEntry) (db : Db)

@[simp] theorem recordAudit?_products : (recordAudit? now actor entry db).products = db.products := by
  cases entry <;> rfl

@[simp] theorem recordAudit?_sales : (recordAudit? now actor entry db).sales = db.sales := by
  cases entry <;> rfl

@[simp] theorem recordAudit?_saleItems :
    (recordAudit? now actor entry db).saleItems = db.saleItems := by
  cases entry <;> rfl

@[simp] theorem recordAudit?_stockMovements :
    (recordAudit? now actor entry db).stockMovements = db.stockMovements := by
  cases entry <;> rfl

@[simp] theorem recordAudit?_expenses :
    (recordAudit? now actor entry db).expenses = db.expenses := by
  cases entry <;> rfl

@[simp] theorem recordAudit?_ownerWithdrawals :
    (recordAudit? now actor entry db).ownerWithdrawals = db.ownerWithdrawals := by
  cases entry <;> rfl

@[simp] theorem recordAudit?_joins : (recordAudit? now actor entry db).joins = db.joins := by
  cases entry <;> rfl

end

/-- SQL equality: an absent value equals nothing. -/
def sqlEq (a b : Option Uuid) : Bool := a.isSome && a == b

end Kitaza.Schema
