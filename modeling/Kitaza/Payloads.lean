import Kitaza.Schema

/-!
# Request bodies and their field validation

What a device sends, and the field rules every body passes before a
handler sees it. A figure is the decimal number the body spells. A push is
one body: the rules of all its rows are checked together.
-/

namespace Kitaza.Payloads

open Primitives

/-- A product to create or change. -/
structure SaveProductRequest where
  /-- The device's identifier for it. -/
  id : Option Uuid
  /-- Name, one to 120 characters. -/
  name : String
  /-- Scanned code. -/
  barcode : Option String
  /-- What one unit is called. -/
  unitLabel : String
  /-- Cost of one unit. -/
  costPrice : ℚ
  /-- Price of one unit. -/
  sellingPrice : ℚ
  /-- Stock of a product the server does not know yet. -/
  openingStock : ℚ
  /-- Level at which to reorder. -/
  reorderLevel : ℚ
  deriving DecidableEq, Repr

/-- The field rules of a product. -/
def SaveProductRequest.Valid (r : SaveProductRequest) : Prop :=
  1 ≤ r.name.length ∧ r.name.length ≤ 120 ∧ 0 ≤ r.costPrice ∧ 0 ≤ r.sellingPrice ∧
    0 ≤ r.openingStock ∧ 0 ≤ r.reorderLevel

instance (r : SaveProductRequest) : Decidable r.Valid :=
  inferInstanceAs (Decidable (_ ∧ _))

/-- A delivery, removal, spoilage or count. -/
structure RecordMovementRequest where
  /-- The device's identifier for it. -/
  id : Option Uuid
  /-- The product moved. -/
  productId : Uuid
  /-- `stock_in`, `stock_out`, `adjustment` or `spoilage`. -/
  movement : String
  /-- An amount, or the counted total of an adjustment. -/
  quantity : ℚ
  /-- Cost of one unit delivered. -/
  unitCost : ℚ
  /-- Free text. -/
  note : Option String
  /-- When it happened; absent means now. -/
  occurredAt : Option Timestamp
  deriving DecidableEq, Repr

/-- The field rules of a stock movement. -/
def RecordMovementRequest.Valid (r : RecordMovementRequest) : Prop :=
  1 ≤ r.movement.length ∧ 0 ≤ r.quantity ∧ 0 ≤ r.unitCost

instance (r : RecordMovementRequest) : Decidable r.Valid :=
  inferInstanceAs (Decidable (_ ∧ _))

/-- One line of a sale. -/
structure SaleLineRequest where
  /-- The device's identifier for it. -/
  id : Option Uuid
  /-- The product sold; absent for a quick sale. -/
  productId : Option Uuid
  /-- Name of a quick sale. -/
  productName : Option String
  /-- Units sold. -/
  quantity : ℚ
  /-- Price of one unit; absent means the catalogue's. -/
  unitPrice : Option ℚ
  /-- Cost of one unit; absent means the catalogue's. -/
  unitCost : Option ℚ
  deriving DecidableEq, Repr

/-- The field rules of a sale line. -/
def SaleLineRequest.Valid (r : SaleLineRequest) : Prop := 0 < r.quantity

instance (r : SaleLineRequest) : Decidable r.Valid := inferInstanceAs (Decidable (0 < _))

/-- A sale. -/
structure RecordSaleRequest where
  /-- The device's identifier for it. -/
  id : Option Uuid
  /-- How it was paid; absent means cash. -/
  paymentMethod : Option String
  /-- Discount on the whole sale. -/
  discountAmount : ℚ
  /-- Free text. -/
  note : Option String
  /-- When it happened; absent means now. -/
  occurredAt : Option Timestamp
  /-- The lines, at least one. -/
  items : List SaleLineRequest
  deriving DecidableEq, Repr

/-- The field rules of a sale. -/
def RecordSaleRequest.Valid (r : RecordSaleRequest) : Prop :=
  0 ≤ r.discountAmount ∧ 1 ≤ r.items.length ∧ ∀ item ∈ r.items, item.Valid

instance (r : RecordSaleRequest) : Decidable r.Valid :=
  inferInstanceAs (Decidable (_ ∧ _))

/-- An expense. -/
structure RecordExpenseRequest where
  /-- The device's identifier for it. -/
  id : Option Uuid
  /-- One of the closed list of categories. -/
  category : String
  /-- Free text. -/
  description : Option String
  /-- Amount spent. -/
  amount : ℚ
  /-- When it happened; absent means now. -/
  occurredAt : Option Timestamp
  deriving DecidableEq, Repr

/-- The field rules of an expense. -/
def RecordExpenseRequest.Valid (r : RecordExpenseRequest) : Prop :=
  1 ≤ r.category.length ∧ 0 < r.amount

instance (r : RecordExpenseRequest) : Decidable r.Valid :=
  inferInstanceAs (Decidable (_ ∧ _))

/-- A withdrawal. -/
structure RecordWithdrawalRequest where
  /-- The device's identifier for it. -/
  id : Option Uuid
  /-- Amount taken out. -/
  amount : ℚ
  /-- Free text. -/
  reason : Option String
  /-- When it happened; absent means now. -/
  occurredAt : Option Timestamp
  deriving DecidableEq, Repr

/-- The field rules of a withdrawal. -/
def RecordWithdrawalRequest.Valid (r : RecordWithdrawalRequest) : Prop := 0 < r.amount

instance (r : RecordWithdrawalRequest) : Decidable r.Valid := inferInstanceAs (Decidable (0 < _))

/-- A void or removal made on the device. -/
structure DeletionRequest where
  /-- `sale`, `expense`, `withdrawal` or `product`. -/
  entity : String
  /-- The record to remove. -/
  id : Uuid
  deriving DecidableEq, Repr

/-- The field rules of a deletion. -/
def DeletionRequest.Valid (r : DeletionRequest) : Prop := 1 ≤ r.entity.length

instance (r : DeletionRequest) : Decidable r.Valid := inferInstanceAs (Decidable (1 ≤ _))

/-- Everything a device queued while it was offline. -/
structure PushRequest where
  /-- Products created or changed. -/
  products : List SaveProductRequest
  /-- Deliveries, removals, spoilage and counts. -/
  stockMovements : List RecordMovementRequest
  /-- Sales recorded. -/
  sales : List RecordSaleRequest
  /-- Expenses recorded. -/
  expenses : List RecordExpenseRequest
  /-- Withdrawals recorded. -/
  withdrawals : List RecordWithdrawalRequest
  /-- Voids and removals. -/
  deletions : List DeletionRequest
  deriving DecidableEq, Repr

/-- The field rules of a push: those of every row it carries. -/
def PushRequest.Valid (r : PushRequest) : Prop :=
  (∀ product ∈ r.products, product.Valid) ∧ (∀ movement ∈ r.stockMovements, movement.Valid) ∧
    (∀ sale ∈ r.sales, sale.Valid) ∧ (∀ expense ∈ r.expenses, expense.Valid) ∧
    (∀ withdrawal ∈ r.withdrawals, withdrawal.Valid) ∧ ∀ deletion ∈ r.deletions, deletion.Valid

instance (r : PushRequest) : Decidable r.Valid :=
  inferInstanceAs (Decidable (_ ∧ _))

/-- Run the field rules before the handler sees the body. Only errors of
the body's own fields are spelled out, so a push, whose rules are all
nested in its rows, is refused with an empty message. -/
def validatedJson (r : PushRequest) : Except ApiError PushRequest :=
  if r.Valid then .ok r else .error (.badRequest "")

end Kitaza.Payloads
