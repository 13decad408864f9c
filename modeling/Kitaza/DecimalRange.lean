import Kitaza.SaleHeader
import Kitaza.SyncPush

/-!
# Figures beyond the decimal range

The server's decimals hold 96 bits, and an operation whose result does not fit
aborts the request it is part of: the rows before it are applied and nobody is
told of any. A line's figures are checked for their sign at most, so a push gets
its answer exactly when the products and running totals of its sales stay in
range. What is in range but wider than its column is refused by the database,
which costs its own row only.
-/

namespace Kitaza.DecimalRange

open KeyedTable Primitives Access Schema Payloads SaleRepository SyncPush

/-- From here a result rounds to an integer of more than 96 bits. -/
def decimalLimit : ℚ := 2 ^ 96 - 1 / 2

/-- The result of an operation on decimals; there is none where it aborts. What
is in range and has more digits than 96 bits hold is rounded by the code and
kept exact here: figures within their columns have none such. -/
def checked (x : ℚ) : Option ℚ := if |x| < decimalLimit then some x else none

theorem checked_eq_some {x y : ℚ} : checked x = some y ↔ |x| < decimalLimit ∧ x = y := by
  rw [checked]
  split_ifs with h
  · simp [h]
  · simp [h]

/-- A figure wider than `NUMERIC(14,2)`. -/
def MoneyOverflows (x : Money) : Prop := 10 ^ 12 ≤ |x|

/-- A figure wider than `NUMERIC(14,3)`. -/
def QuantityOverflows (x : Quantity) : Prop := 10 ^ 11 ≤ |x|

instance (x : Money) : Decidable (MoneyOverflows x) := inferInstanceAs (Decidable (_ ≤ _))

instance (x : Quantity) : Decidable (QuantityOverflows x) := inferInstanceAs (Decidable (_ ≤ _))

/-- Every figure fits its column. -/
structure Fits (db : Db) : Prop where
  /-- Products. -/
  products : ¬ db.products.Any fun _ p => MoneyOverflows p.costPrice ∨
    MoneyOverflows p.sellingPrice ∨ QuantityOverflows p.stockQuantity ∨
    QuantityOverflows p.reorderLevel
  /-- Sales. -/
  sales : ¬ db.sales.Any fun _ s => MoneyOverflows s.totalAmount ∨
    MoneyOverflows s.costAmount ∨ MoneyOverflows s.discountAmount
  /-- Their lines. -/
  saleItems : ¬ db.saleItems.Any fun _ i => QuantityOverflows i.quantity ∨
    MoneyOverflows i.unitPrice ∨ MoneyOverflows i.unitCost ∨ MoneyOverflows i.lineTotal
  /-- Stock movements. -/
  stockMovements : ¬ db.stockMovements.Any fun _ m => QuantityOverflows m.quantity ∨
    MoneyOverflows m.unitCost
  /-- Expenses. -/
  expenses : ¬ db.expenses.Any fun _ e => MoneyOverflows e.amount
  /-- Withdrawals. -/
  ownerWithdrawals : ¬ db.ownerWithdrawals.Any fun _ w => MoneyOverflows w.amount

instance (db : Db) : Decidable (Fits db) :=
  decidable_of_iff
    ((¬ db.products.Any fun _ p => MoneyOverflows p.costPrice ∨ MoneyOverflows p.sellingPrice ∨
        QuantityOverflows p.stockQuantity ∨ QuantityOverflows p.reorderLevel) ∧
      (¬ db.sales.Any fun _ s => MoneyOverflows s.totalAmount ∨ MoneyOverflows s.costAmount ∨
        MoneyOverflows s.discountAmount) ∧
      (¬ db.saleItems.Any fun _ i => QuantityOverflows i.quantity ∨ MoneyOverflows i.unitPrice ∨
        MoneyOverflows i.unitCost ∨ MoneyOverflows i.lineTotal) ∧
      (¬ db.stockMovements.Any fun _ m => QuantityOverflows m.quantity ∨
        MoneyOverflows m.unitCost) ∧
      (¬ db.expenses.Any fun _ e => MoneyOverflows e.amount) ∧
      ¬ db.ownerWithdrawals.Any fun _ w => MoneyOverflows w.amount)
    ⟨fun ⟨h₁, h₂, h₃, h₄, h₅, h₆⟩ => ⟨h₁, h₂, h₃, h₄, h₅, h₆⟩,
      fun h => ⟨h.products, h.sales, h.saleItems, h.stockMovements, h.expenses,
        h.ownerWithdrawals⟩⟩

/-- A database as it can be stored. -/
abbrev StoredDb := { db : Db // Fits db }

/-- What the statements of a sale's lines leave, one database a statement, as
far as they get. -/
def lineStates (now : Timestamp) (drawn : ℕ → Uuid) (sale : PreparedSale) :
    List PreparedLine → ℕ → Db → List Db
  | [], _, _ => []
  | line :: rest, i, db =>
    match insertItem sale.id line db with
    | .error _ => []
    | .ok inserted =>
      match line.productId with
      | none => inserted :: lineStates now drawn sale rest (i + 1) inserted
      | some productId =>
        let deducted := deductStock now sale.storeId productId line.quantity inserted
        match insertMovement (drawn i) (saleMovement now sale line productId) deducted with
        | .error _ => [inserted, deducted]
        | .ok moved => inserted :: deducted :: moved :: lineStates now drawn sale rest (i + 1) moved

/-- What the statements of the writing half of a sale's transaction leave. -/
def writeStates (now : Timestamp) (drawn : ℕ → Uuid) (sale : PreparedSale) (recorder : Recorder)
    (db : Db) : List Db :=
  let upserted := upsertSale now sale recorder.staffId db
  let cleared := deleteItems sale.id upserted
  upserted :: cleared :: lineStates now drawn sale sale.lines 0 cleared

/-- What the statements of a sale's transaction leave. -/
def saleStates (now : Timestamp) (drawn : ℕ → Uuid) (sale : PreparedSale) (recorder : Recorder)
    (db : Db) : List Db :=
  match db.sales.find? sale.id with
  | none => writeStates now drawn sale recorder db
  | some existing =>
    if existing.storeId ≠ sale.storeId then []
    else if existing.deletedAt.isSome then []
    else if recorder.isOwner = false ∧ existing.recordedByStaffId ≠ recorder.staffId then []
    else
      let undone := undoSale now sale.id sale.storeId db
      restoreStockFor now sale.id sale.storeId db :: undone ::
        writeStates now drawn sale recorder undone

/-- The row that a product's save asks to insert. -/
def insertedProduct (now : Timestamp) (storeId id : Uuid) (values : ProductService.ProductValues) :
    List Db :=
  (ProductService.upsertRow now storeId values none).toList.map fun row =>
    { Db.empty with products := Table.empty.put id row }

/-- The row that a row of a push other than a sale asks to insert, on its own, if
the service lets it come so far. Its figures are cut to their columns before the
database looks for a row it is to update instead. -/
def inserted (now : Timestamp) (storeId : Uuid) (actor : Actor) : PushRow → Db → List Db
  | .product request, db =>
    let id := ProductService.savedId request db
    let values := ProductService.savedValues actor request (ProductService.find storeId id db)
    if actor.can .manageProducts = true ∧ ¬ values.sellingPrice < values.costPrice then
      insertedProduct now storeId id values
    else []
  | .movement request, db =>
    match InventoryService.stockEffect (toLowercase (trim request.movement))
        (quantityFromF64 request.quantity), ProductService.find storeId request.productId db with
    | .ok (kind, effect), some product =>
      if actor.can .manageProducts = true ∧
          (kind = .adjustment ∨ quantityFromF64 request.quantity ≠ 0) then
        let entry := InventoryService.entryOf now storeId actor request kind effect db
        let row := InventoryService.ledgerRow now entry (effect.delta product.stockQuantity)
        [{ Db.empty with stockMovements := Table.empty.put entry.movementId row }]
      else []
    | _, _ => []
  | .expense request, db =>
    match actor.require .recordExpenses, ExpenseService.parseCategory request.category with
    | .ok _, .ok category =>
      let values : ExpenseService.ExpenseValues :=
        ⟨category, trimmed request.description, moneyFromF64 request.amount,
          request.occurredAt.getD now⟩
      let id := request.id.getD (Uuid.newV4 db.expenses 0)
      (ExpenseService.upsertRow now storeId values actor none).toList.map fun row =>
        { Db.empty with expenses := Table.empty.put id row }
    | _, _ => []
  | .withdrawal request, db =>
    match actor.requireOwner with
    | .ok _ =>
      let values : WithdrawalService.WithdrawalValues :=
        ⟨moneyFromF64 request.amount, trimmed request.reason, request.occurredAt.getD now⟩
      let id := request.id.getD (Uuid.newV4 db.ownerWithdrawals 0)
      (WithdrawalService.upsertRow now storeId values none).toList.map fun row =>
        { Db.empty with ownerWithdrawals := Table.empty.put id row }
    | .error _ => []
  | .sale _, _ => []
  | .deletion _, _ => []

/-- What the statements of a row leave on the way to what it leaves in the end.
Only a sale has more than one statement that writes figures. -/
def passed (now : Timestamp) (storeId : Uuid) (actor : Actor) (row : PushRow) (db : Db) :
    List Db :=
  match row with
  | .sale request =>
    match SaleService.normalisePaymentMethod request.paymentMethod,
        SaleService.resolveLines storeId db (SaleService.visibleItems actor request.items) 0 with
    | .ok method, .ok lines =>
      saleStates now (Uuid.newV4 db.stockMovements)
        (SaleService.prepareSale now storeId (request.id.getD (Uuid.newV4 db.sales 0)) method
          request lines) (SaleService.recorderOf actor) db
    | _, _ => []
  | row => inserted now storeId actor row db

/-- What is refused for a figure wider than its column. -/
def numericOverflow : ApiError := .internal "numeric field overflow"

/-- A transaction fails at the first statement that leaves a figure wider than
its column. -/
def stored {β : Type} (passed : List Db) (result : Except ApiError (β × Db)) :
    Except ApiError (β × StoredDb) :=
  if ∀ db ∈ passed, Fits db then
    match result with
    | .error e => .error e
    | .ok (b, db) => if h : Fits db then .ok (b, ⟨db, h⟩) else .error numericOverflow
  else .error numericOverflow

/-- What becomes of a row whose arithmetic does not abort. -/
def result (now : Timestamp) (storeId : Uuid) (actor : Actor) (row : PushRow) (db : StoredDb) :
    Except ApiError (Option Uuid × StoredDb) :=
  stored (passed now storeId actor row db.1) (row.apply now storeId actor db.1)

/-- Resolve a line; its total is multiplied last. -/
def resolveLine (storeId lineId : Uuid) (item : SaleLineRequest) (db : Db) :
    Option (Except ApiError PreparedLine) :=
  match SaleService.resolveLine storeId lineId item db with
  | .error e => some (.error e)
  | .ok line => (checked (line.unitPrice * line.quantity)).map fun _ => .ok line

/-- Add a line to what the lines before it come to and cost; sums that take more
than 96 bits to write are rounded by the code and kept exact here. -/
def addLine (sums : Money × Money) (line : PreparedLine) : Option (Money × Money) := do
  let gross ← checked (sums.1 + line.lineTotal)
  let lineCost ← checked (line.unitCost * line.quantity)
  let cost ← checked (sums.2 + lineCost)
  some (gross, cost)

/-- Resolve the lines and add them up, until one fails. -/
def resolveLines (storeId : Uuid) (db : Db) :
    List SaleLineRequest → ℕ → Money × Money → Option (Except ApiError (Money × Money))
  | [], _, sums => some (.ok sums)
  | item :: rest, i, sums => do
    match ← resolveLine storeId (item.id.getD (Uuid.newV4 db.saleItems i)) item db with
    | .error e => some (.error e)
    | .ok line =>
      let sums ← addLine sums line
      resolveLines storeId db rest (i + 1) sums

/-- Record a sale. -/
def recordSale (now : Timestamp) (storeId : Uuid) (actor : Actor) (request : RecordSaleRequest)
    (db : Db) : Option (Except ApiError (SaleService.SaleDetail × Db)) :=
  match SaleService.normalisePaymentMethod request.paymentMethod with
  | .error e => some (.error e)
  | .ok _ => do
    match ← resolveLines storeId db (SaleService.visibleItems actor request.items) 0 (0, 0) with
    | .error e => some (.error e)
    | .ok sums =>
      let discount := min (moneyFromF64 request.discountAmount) sums.1
      let _ ← checked (sums.1 - discount)
      some (SaleService.record now storeId actor request db)

/-- Record a sale and store what that leaves. -/
def record (now : Timestamp) (storeId : Uuid) (actor : Actor) (request : RecordSaleRequest)
    (db : StoredDb) : Option (Except ApiError (SaleService.SaleDetail × StoredDb)) :=
  (recordSale now storeId actor request db.1).map
    (stored (passed now storeId actor (.sale request) db.1))

/-- Record a stock movement; a count is compared with the stock on hand. -/
def recordMovement (now : Timestamp) (storeId : Uuid) (actor : Actor)
    (request : RecordMovementRequest) (db : Db) : Option (Except ApiError Db) :=
  match actor.require .manageProducts, InventoryService.stockEffect
      (toLowercase (trim request.movement)) (quantityFromF64 request.quantity),
      ProductService.find storeId request.productId db with
  | .ok _, .ok (_, .setTo counted), some product =>
    (checked (counted - product.stockQuantity)).map fun _ =>
      InventoryService.record now storeId actor request db
  | _, _, _ => some (InventoryService.record now storeId actor request db)

/-- Apply one row. -/
def apply (now : Timestamp) (storeId : Uuid) (actor : Actor) (row : PushRow) (db : StoredDb) :
    Option (Except ApiError (Option Uuid × StoredDb)) :=
  let storing := stored (passed now storeId actor row db.1)
  match row with
  | .sale request => (recordSale now storeId actor request db.1).map fun r =>
    storing (r.map fun saved => (some saved.1.id, saved.2))
  | .movement request => (recordMovement now storeId actor request db.1).map fun r =>
    storing (r.map fun db => (request.id, db))
  | row => some (storing (row.apply now storeId actor db.1))

/-- The database after a row; one that is refused, or aborts, leaves it alone. -/
def rowLeft (now : Timestamp) (storeId : Uuid) (actor : Actor) (row : PushRow) (db : StoredDb) :
    StoredDb :=
  match apply now storeId actor row db with
  | some (.ok (_, db')) => db'
  | _ => db

/-- The database after rows, up to the one that aborts their push. -/
def rowsLeft (now : Timestamp) (storeId : Uuid) (actor : Actor) : List PushRow → StoredDb → StoredDb
  | [], db => db
  | row :: rest, db =>
    match apply now storeId actor row db with
    | none => db
    | some _ => rowsLeft now storeId actor rest (rowLeft now storeId actor row db)

/-- Apply one row and note what became of it. -/
def pushRow (now : Timestamp) (storeId : Uuid) (actor : Actor) (s : Outcome × StoredDb)
    (row : PushRow) : Option (Outcome × StoredDb) :=
  (apply now storeId actor row s.2).map fun
    | .ok (id, db) => (s.1.addAppliedIfKnown row.entity id, db)
    | .error e => (s.1.addRejected row.entity row.id? e, s.2)

/-- Apply everything a device queued. -/
def push (now : Timestamp) (storeId : Uuid) (actor : Actor) (request : PushRequest)
    (db : StoredDb) : Option (PushOutcome × StoredDb) :=
  ((rows now request).foldlM (pushRow now storeId actor) (Outcome.empty, db)).map fun s =>
    (⟨s.1.applied, s.1.rejected, now⟩, s.2)

/-- The endpoint: field validation of the whole body, then the push. -/
def pushChanges (now : Timestamp) (storeId : Uuid) (actor : Actor) (body : PushRequest)
    (db : StoredDb) : Option (Except ApiError (PushOutcome × StoredDb)) :=
  match validatedJson body with
  | .error e => some (.error e)
  | .ok request => (push now storeId actor request db).map .ok

/-- A row is named as applied or refused. -/
def Named (outcome : PushOutcome) (row : PushRow) : Prop :=
  ∀ id, row.id? = some id → ⟨row.entity, id⟩ ∈ outcome.applied ∨
    ∃ reason, ⟨row.entity, some id, reason⟩ ∈ outcome.rejected

/-- The lines before the first that is refused. -/
def resolved (storeId : Uuid) (db : Db) : List SaleLineRequest → ℕ → List PreparedLine
  | [], _ => []
  | item :: rest, i =>
    match SaleService.resolveLine storeId (item.id.getD (Uuid.newV4 db.saleItems i)) item db with
    | .error _ => []
    | .ok line => line :: resolved storeId db rest (i + 1)

/-- Every line's total and cost, and what the lines up to it come to and cost,
is in range. -/
def LinesInRange (gross cost : Money) (lines : List PreparedLine) : Prop :=
  ∀ before line after, lines = before ++ line :: after →
    |line.unitPrice * line.quantity| < decimalLimit ∧
    |line.unitCost * line.quantity| < decimalLimit ∧
    |gross + (((before ++ [line]).map PreparedLine.lineTotal).sum)| < decimalLimit ∧
    |cost + (((before ++ [line]).map fun line => line.unitCost * line.quantity).sum)| <
      decimalLimit

/-- A row whose figures stay in range: a sale's lines, and a count less the
stock on hand. -/
def InRange (storeId : Uuid) (actor : Actor) (db : Db) : PushRow → Prop
  | .sale request =>
    (∃ method, SaleService.normalisePaymentMethod request.paymentMethod = .ok method) →
      LinesInRange 0 0 (resolved storeId db (SaleService.visibleItems actor request.items) 0)
  | .movement request =>
    actor.can .manageProducts = true → toLowercase (trim request.movement) = "adjustment" →
      ∀ product, ProductService.find storeId request.productId db = some product →
        |quantityFromF64 request.quantity - product.stockQuantity| < decimalLimit
  | _ => True

/-- The database after a row. -/
def after (now : Timestamp) (storeId : Uuid) (actor : Actor) (row : PushRow) (db : StoredDb) :
    StoredDb :=
  match result now storeId actor row db with
  | .ok (_, db') => db'
  | .error _ => db

/-- What a sale's discount takes off its lines leaves a figure in range, as it does
unless it is negative. -/
def RemainderInRange (storeId : Uuid) (actor : Actor) (db : Db) : PushRow → Prop
  | .sale request =>
    ∀ sums ∈ (resolveLines storeId db (SaleService.visibleItems actor request.items) 0 (0, 0)).bind
        Except.toOption,
      |sums.1 - min (moneyFromF64 request.discountAmount) sums.1| < decimalLimit
  | _ => True

/-- The decimals and the columns hold every figure of a row. -/
structure Held (now : Timestamp) (storeId : Uuid) (actor : Actor) (row : PushRow) (db : Db) :
    Prop where
  /-- Its arithmetic stays in range. -/
  inRange : InRange storeId actor db row
  /-- To the end. -/
  remainder : RemainderInRange storeId actor db row
  /-- What its statements pass through fits. -/
  passed : ∀ d ∈ passed now storeId actor row db, Fits d
  /-- So does what it leaves. -/
  left : ∀ id db', row.apply now storeId actor db = .ok (id, db') → Fits db'

/-- They hold the figures of each row in the database it is applied to. -/
def AllHeld (now : Timestamp) (storeId : Uuid) (actor : Actor) : List PushRow → Db → Prop
  | [], _ => True
  | row :: rest, db =>
    Held now storeId actor row db ∧
      AllHeld now storeId actor rest (SyncPush.pushRow now storeId actor (Outcome.empty, db) row).2

/-- Each row's figures are in range of the database it is applied to. -/
def AllInRange (now : Timestamp) (storeId : Uuid) (actor : Actor) :
    List PushRow → StoredDb → Prop
  | [], _ => True
  | row :: rest, db =>
    InRange storeId actor db.1 row ∧
      AllInRange now storeId actor rest (after now storeId actor row db)

section Sale

variable {storeId : Uuid} {db : Db}

theorem addLine_eq_some {sums sums' : Money × Money} {line : PreparedLine} :
    addLine sums line = some sums' ↔
      (|sums.1 + line.lineTotal| < decimalLimit ∧ |line.unitCost * line.quantity| < decimalLimit ∧
        |sums.2 + line.unitCost * line.quantity| < decimalLimit) ∧
      sums' = (sums.1 + line.lineTotal, sums.2 + line.unitCost * line.quantity) := by
  simp only [addLine, Option.bind_eq_bind, Option.bind_eq_some_iff, checked_eq_some,
    Option.some.injEq]
  constructor
  · rintro ⟨_, ⟨hgross, rfl⟩, _, ⟨hline, rfl⟩, _, ⟨hcost, rfl⟩, rfl⟩
    exact ⟨⟨hgross, hline, hcost⟩, rfl⟩
  · rintro ⟨⟨hgross, hline, hcost⟩, rfl⟩
    exact ⟨_, ⟨hgross, rfl⟩, _, ⟨hline, rfl⟩, _, ⟨hcost, rfl⟩, rfl⟩

theorem linesInRange_nil (gross cost : Money) : LinesInRange gross cost [] := by
  intro before line after h
  simp at h

/-- Lines are in range when the first is and the rest are after it. -/
theorem linesInRange_cons {gross cost : Money} {line : PreparedLine} {rest : List PreparedLine} :
    LinesInRange gross cost (line :: rest) ↔
      (|line.unitPrice * line.quantity| < decimalLimit ∧
        |line.unitCost * line.quantity| < decimalLimit ∧
        |gross + line.lineTotal| < decimalLimit ∧
        |cost + line.unitCost * line.quantity| < decimalLimit) ∧
      LinesInRange (gross + line.lineTotal) (cost + line.unitCost * line.quantity) rest := by
  constructor
  · intro h
    refine ⟨by simpa using h [] line rest rfl, ?_⟩
    rintro before l after rfl
    have hl := h (line :: before) l after rfl
    simpa only [List.cons_append, List.map_cons, List.sum_cons, add_assoc] using hl
  · rintro ⟨hfirst, hrest⟩ before l after h
    cases before with
    | nil =>
      cases h
      simpa using hfirst
    | cons b before =>
      cases h
      have hl := hrest before l after rfl
      simpa only [List.cons_append, List.map_cons, List.sum_cons, add_assoc] using hl

theorem cons_linesInRange {gross cost : Money} {line : PreparedLine} {rest : List PreparedLine} :
    (|line.unitPrice * line.quantity| < decimalLimit ∧
        |line.unitCost * line.quantity| < decimalLimit ∧
        |gross + line.lineTotal| < decimalLimit ∧
        |cost + line.unitCost * line.quantity| < decimalLimit) ∧
      LinesInRange (gross + line.lineTotal) (cost + line.unitCost * line.quantity) rest ↔
    LinesInRange gross cost (line :: rest) := linesInRange_cons.symm

/-- Whether lines are in range, line by line. -/
def LinesInRange.decide : (lines : List PreparedLine) → (gross cost : Money) →
    Decidable (LinesInRange gross cost lines)
  | [], gross, cost => .isTrue (linesInRange_nil gross cost)
  | line :: rest, gross, cost =>
    have := LinesInRange.decide rest (gross + line.lineTotal)
      (cost + line.unitCost * line.quantity)
    decidable_of_iff _ cons_linesInRange

instance (gross cost : Money) (lines : List PreparedLine) :
    Decidable (LinesInRange gross cost lines) := LinesInRange.decide lines gross cost

theorem isOk_iff_exists {α : Type} {x : Except ApiError α} :
    x.isOk = true ↔ ∃ a, x = .ok a := by
  cases x with
  | error e => simp [Except.isOk, Except.toBool]
  | ok a => simp [Except.isOk, Except.toBool]

instance {α : Type} (x : Except ApiError α) : Decidable (∃ a, x = .ok a) :=
  decidable_of_iff _ isOk_iff_exists

instance (actor : Actor) : (row : PushRow) → Decidable (InRange storeId actor db row)
  | .sale _ => inferInstanceAs (Decidable (_ → LinesInRange _ _ _))
  | .movement request =>
    inferInstanceAs (Decidable (_ → _ → ∀ product ∈ ProductService.find storeId request.productId
      db, |quantityFromF64 request.quantity - product.stockQuantity| < decimalLimit))
  | .product _ => .isTrue trivial
  | .expense _ => .isTrue trivial
  | .withdrawal _ => .isTrue trivial
  | .deletion _ => .isTrue trivial

theorem fits_iff_forall {x : Except ApiError (Option Uuid × Db)} :
    (∀ r ∈ x.toOption, Fits r.2) ↔ ∀ id db', x = .ok (id, db') → Fits db' := by
  cases x with
  | error e => simp [Except.toOption]
  | ok saved =>
    constructor
    · rintro h id db' hok
      cases hok
      exact h _ rfl
    · rintro h r hr
      cases hr
      exact h _ _ rfl

instance (actor : Actor) : (row : PushRow) → Decidable (RemainderInRange storeId actor db row)
  | .sale _ => inferInstanceAs (Decidable (∀ sums ∈ _, _))
  | .product _ => .isTrue trivial
  | .movement _ => .isTrue trivial
  | .expense _ => .isTrue trivial
  | .withdrawal _ => .isTrue trivial
  | .deletion _ => .isTrue trivial

theorem held_iff {now : Timestamp} {actor : Actor} {row : PushRow} :
    (InRange storeId actor db row ∧ RemainderInRange storeId actor db row ∧ (∀ d ∈ passed now storeId actor row db, Fits d) ∧
      ∀ r ∈ (row.apply now storeId actor db).toOption, Fits r.2) ↔
        Held now storeId actor row db := by
  rw [fits_iff_forall]
  exact ⟨fun ⟨h₁, h₂, h₃, h₄⟩ => ⟨h₁, h₂, h₃, h₄⟩,
    fun h => ⟨h.inRange, h.remainder, h.passed, h.left⟩⟩

instance (now : Timestamp) (actor : Actor) (row : PushRow) :
    Decidable (Held now storeId actor row db) := decidable_of_iff _ held_iff

/-- Whether the figures of rows are held, row by row. -/
def AllHeld.decide (now : Timestamp) (storeId : Uuid) (actor : Actor) :
    (rows : List PushRow) → (db : Db) → Decidable (AllHeld now storeId actor rows db)
  | [], _ => .isTrue trivial
  | row :: rest, db =>
    have := AllHeld.decide now storeId actor rest
      (SyncPush.pushRow now storeId actor (Outcome.empty, db) row).2
    inferInstanceAs (Decidable (Held now storeId actor row db ∧
      AllHeld now storeId actor rest _))

instance (now : Timestamp) (actor : Actor) (rows : List PushRow) :
    Decidable (AllHeld now storeId actor rows db) := AllHeld.decide now storeId actor rows db

/-- Adding up the lines aborts exactly when a figure leaves the range, and
refuses what the service refuses. -/
structure LinesAdded (storeId : Uuid) (db : Db) (items : List SaleLineRequest) (i : ℕ)
    (sums : Money × Money) : Prop where
  /-- It aborts out of range only. -/
  isSome : (resolveLines storeId db items i sums).isSome ↔
    LinesInRange sums.1 sums.2 (resolved storeId db items i)
  /-- What it refuses is refused. -/
  refused : ∀ e, resolveLines storeId db items i sums = some (.error e) →
    SaleService.resolveLines storeId db items i = .error e
  /-- What it adds up to is in range. -/
  gross : ∀ sums', resolveLines storeId db items i sums = some (.ok sums') →
    |sums.1| < decimalLimit → |sums'.1| < decimalLimit

theorem linesAdded (items : List SaleLineRequest) (i : ℕ) (sums : Money × Money) :
    LinesAdded storeId db items i sums := by
  induction items generalizing i sums with
  | nil =>
    refine ⟨?_, ?_, ?_⟩
    · simp only [resolveLines, resolved, Option.isSome_some, true_iff]
      exact linesInRange_nil _ _
    · intro e h
      cases h
    · intro sums' h hsums
      cases h
      exact hsums
  | cons item rest ih =>
    cases hline : SaleService.resolveLine storeId (item.id.getD (Uuid.newV4 db.saleItems i)) item
        db with
    | error e =>
      have hstop : resolveLines storeId db (item :: rest) i sums = some (.error e) := by
        simp only [resolveLines, resolveLine, hline]
        rfl
      refine ⟨?_, ?_, ?_⟩
      · simp only [hstop, resolved, hline, Option.isSome_some, true_iff]
        exact linesInRange_nil _ _
      · intro e' h
        rw [hstop] at h
        cases h
        rw [SaleService.resolveLines, hline]
        rfl
      · intro sums' h
        rw [hstop] at h
        cases h
    | ok line =>
      by_cases hfirst : |line.unitPrice * line.quantity| < decimalLimit ∧
          |line.unitCost * line.quantity| < decimalLimit ∧
          |sums.1 + line.lineTotal| < decimalLimit ∧
          |sums.2 + line.unitCost * line.quantity| < decimalLimit
      · have hadd := addLine_eq_some.mpr ⟨⟨hfirst.2.2.1, hfirst.2.1, hfirst.2.2.2⟩, rfl⟩
        have hgo : resolveLines storeId db (item :: rest) i sums =
            resolveLines storeId db rest (i + 1)
              (sums.1 + line.lineTotal, sums.2 + line.unitCost * line.quantity) := by
          simp only [resolveLines, resolveLine, hline, checked, if_pos hfirst.1, Option.map_some,
            Option.bind_eq_bind, Option.bind_some, hadd]
        have hrest := ih (i + 1) (sums.1 + line.lineTotal, sums.2 + line.unitCost * line.quantity)
        refine ⟨?_, ?_, ?_⟩
        · rw [hgo, hrest.isSome]
          simp only [resolved, hline, linesInRange_cons, hfirst, and_self, true_and]
        · intro e h
          rw [SaleService.resolveLines, hline]
          change (SaleService.resolveLines storeId db rest (i + 1) >>= _) = _
          rw [hrest.refused e (hgo ▸ h)]
          rfl
        · intro sums' h _
          exact hrest.gross sums' (hgo ▸ h) hfirst.2.2.1
      · have hnone : resolveLines storeId db (item :: rest) i sums = none := by
          simp only [resolveLines, resolveLine, hline, Option.bind_eq_bind]
          by_cases hprice : |line.unitPrice * line.quantity| < decimalLimit
          · have hadd : addLine sums line = none := by
              rw [Option.eq_none_iff_forall_ne_some]
              intro sums' h
              obtain ⟨⟨hgross, hcost, htotal⟩, -⟩ := addLine_eq_some.mp h
              exact hfirst ⟨hprice, hcost, hgross, htotal⟩
            simp only [checked, if_pos hprice, Option.map_some, Option.bind_some, hadd,
              Option.bind_none]
          · simp only [checked, if_neg hprice, Option.map_none, Option.bind_none]
        refine ⟨?_, ?_, ?_⟩
        · simp only [hnone, Option.isSome_none, Bool.false_eq_true, resolved, hline,
            linesInRange_cons, false_iff]
          exact fun h => hfirst h.1
        · intro e h
          rw [hnone] at h
          cases h
        · intro sums' h
          rw [hnone] at h
          cases h

/-- What a discount leaves of a figure in range is in range. -/
theorem remainder_inRange {gross discount : Money} (hgross : |gross| < decimalLimit)
    (hdiscount : 0 ≤ discount) : |gross - min discount gross| < decimalLimit := by
  rcases le_total discount gross with hle | hle
  · rw [min_eq_left hle, abs_of_nonneg (sub_nonneg.mpr hle)]
    have habs := le_abs_self gross
    linarith
  · rw [min_eq_right hle, sub_self, abs_zero, decimalLimit]
    norm_num

/-- The field rules ask for a discount that is not negative. -/
theorem remainder_of_valid {actor : Actor} {row : PushRow} (h : row.Valid) :
    RemainderInRange storeId actor db row := by
  cases row with
  | sale request =>
    intro sums hsums
    obtain ⟨result, hlines, hok⟩ := Option.bind_eq_some_iff.mp hsums
    cases result with
    | error e => cases hok
    | ok sums' =>
      cases hok
      have hgross := (linesAdded _ 0 (0, 0)).gross sums hlines
        (by rw [abs_zero, decimalLimit]; norm_num)
      exact remainder_inRange hgross (SaleHeader.moneyFromF64_nonneg h.1)
  | _ => trivial

/-- Recording a sale aborts exactly when a figure of it leaves the range; and
otherwise it does what the service does. -/
theorem recordSale_spec {now : Timestamp} {actor : Actor} {request : RecordSaleRequest}
    (hrest : RemainderInRange storeId actor db (.sale request)) :
    ((recordSale now storeId actor request db).isSome ↔
      InRange storeId actor db (.sale request)) ∧
    ∀ r, recordSale now storeId actor request db = some r →
      r = SaleService.record now storeId actor request db := by
  cases hmethod : SaleService.normalisePaymentMethod request.paymentMethod with
  | error e =>
    have hstop : recordSale now storeId actor request db = some (.error e) := by
      simp only [recordSale, hmethod]
    have hservice : SaleService.record now storeId actor request db = .error e := by
      simp only [SaleService.record, hmethod]
      rfl
    refine ⟨?_, ?_⟩
    · simp only [hstop, Option.isSome_some, InRange, hmethod, true_iff]
      rintro ⟨method, h⟩
      cases h
    · intro r h
      rw [hstop] at h
      cases h
      exact hservice.symm
  | ok method =>
    have hadded := @linesAdded storeId db (SaleService.visibleItems actor request.items) 0 (0, 0)
    have hin : InRange storeId actor db (.sale request) ↔ (resolveLines storeId db
        (SaleService.visibleItems actor request.items) 0 (0, 0)).isSome := by
      rw [hadded.isSome, InRange]
      exact ⟨fun h => h ⟨method, hmethod⟩, fun h _ => h⟩
    rw [hin]
    cases hlines : resolveLines storeId db (SaleService.visibleItems actor request.items) 0
        (0, 0) with
    | none =>
      have hnone : recordSale now storeId actor request db = none := by
        simp only [recordSale, hmethod, hlines]
        rfl
      refine ⟨by simp [hnone], ?_⟩
      intro r h
      rw [hnone] at h
      cases h
    | some result =>
      cases result with
      | error e =>
        have hstop : recordSale now storeId actor request db = some (.error e) := by
          simp only [recordSale, hmethod, hlines]
          rfl
        refine ⟨by simp [hstop], ?_⟩
        intro r h
        rw [hstop] at h
        cases h
        simp only [SaleService.record, hmethod, hadded.refused e hlines]
        rfl
      | ok sums =>
        have hleft := hrest sums (by rw [hlines]; rfl)
        have hgo : recordSale now storeId actor request db =
            some (SaleService.record now storeId actor request db) := by
          simp only [recordSale, hmethod, hlines, Option.bind_eq_bind, Option.bind_some, checked,
            if_pos hleft]
        refine ⟨by simp [hgo], ?_⟩
        intro r h
        rw [hgo] at h
        exact (Option.some.inj h).symm

/-- What is reported of a row has no part in whether it is stored. -/
theorem stored_map {β γ : Type} (g : β → γ) (passed : List Db) (r : Except ApiError (β × Db)) :
    stored passed (r.map fun saved => (g saved.1, saved.2)) =
      (stored passed r).map fun saved => (g saved.1, saved.2) := by
  unfold stored
  split_ifs
  · cases r with
    | error e => rfl
    | ok saved =>
      dsimp only [Except.map]
      split_ifs <;> rfl
  · rfl

/-- A sale whose arithmetic does not abort has its remainder in range. -/
theorem remainder_of_recordSale {now : Timestamp} {actor : Actor} {request : RecordSaleRequest}
    {r : Except ApiError (SaleService.SaleDetail × Db)}
    (hmethod : ∃ method, SaleService.normalisePaymentMethod request.paymentMethod = .ok method)
    (h : recordSale now storeId actor request db = some r) :
    RemainderInRange storeId actor db (.sale request) := by
  obtain ⟨method, hmethod⟩ := hmethod
  intro sums hsums
  obtain ⟨result, hlines, hok⟩ := Option.bind_eq_some_iff.mp hsums
  cases result with
  | error e => cases hok
  | ok sums' =>
    cases hok
    unfold recordSale at h
    rw [hmethod] at h
    simp only [hlines, Option.bind_eq_bind, Option.bind_some] at h
    obtain ⟨_, hleft, -⟩ := Option.bind_eq_some_iff.mp h
    exact (checked_eq_some.mp hleft).1

/-- Where its arithmetic does not abort, a sale does what the service does. -/
theorem recordSale_eq {now : Timestamp} {actor : Actor} {request : RecordSaleRequest}
    {r : Except ApiError (SaleService.SaleDetail × Db)}
    (h : recordSale now storeId actor request db = some r) :
    r = SaleService.record now storeId actor request db := by
  cases hmethod : SaleService.normalisePaymentMethod request.paymentMethod with
  | error e =>
    simp only [recordSale, hmethod] at h
    cases h
    simp only [SaleService.record, hmethod]
    rfl
  | ok method =>
    exact (recordSale_spec (remainder_of_recordSale ⟨method, hmethod⟩ h)).2 r h

/-- The arithmetic of a sale stays in range: that of its lines, and what its
discount leaves of them. -/
def SaleInRange (storeId : Uuid) (actor : Actor) (request : RecordSaleRequest) (db : Db) : Prop :=
  InRange storeId actor db (.sale request) ∧
    ((∃ method, SaleService.normalisePaymentMethod request.paymentMethod = .ok method) →
      RemainderInRange storeId actor db (.sale request))

theorem recordSale_isSome {now : Timestamp} {actor : Actor} {request : RecordSaleRequest} :
    (recordSale now storeId actor request db).isSome ↔ SaleInRange storeId actor request db := by
  constructor
  · intro hsome
    obtain ⟨r, hr⟩ := Option.isSome_iff_exists.mp hsome
    refine ⟨fun hmethod => ?_, fun hmethod => remainder_of_recordSale hmethod hr⟩
    exact (recordSale_spec (remainder_of_recordSale hmethod hr)).1.mp hsome hmethod
  · rintro ⟨hin, hrest⟩
    cases hmethod : SaleService.normalisePaymentMethod request.paymentMethod with
    | error e => simp only [recordSale, hmethod, Option.isSome_some]
    | ok method => exact (recordSale_spec (hrest ⟨method, hmethod⟩)).1.mpr hin

/-- What is stored fits, and so does all it passed. -/
theorem stored_eq_ok {β : Type} {passed : List Db} {r : Except ApiError (β × Db)} {b : β}
    {db : StoredDb} : stored passed r = .ok (b, db) ↔
      (∀ d ∈ passed, Fits d) ∧ r = .ok (b, db.1) := by
  unfold stored
  split_ifs with hpassed
  · rw [and_iff_right hpassed]
    cases r with
    | error e => simp
    | ok saved =>
      obtain ⟨b', db'⟩ := saved
      dsimp only
      split_ifs with hfits
      · simp only [Except.ok.injEq, Prod.mk.injEq]
        exact and_congr_right fun _ => ⟨fun h => congrArg Subtype.val h, fun h => Subtype.ext h⟩
      · simp only [Except.ok.injEq, Prod.mk.injEq, false_iff, not_and]
        rintro - rfl
        exact hfits db.2
  · simp [hpassed]

/-- A sale is recorded where its arithmetic stays in range, what its statements
leave fits, and the service records it. -/
theorem record_eq_ok {now : Timestamp} {actor : Actor} {request : RecordSaleRequest}
    {db db' : StoredDb} {detail : SaleService.SaleDetail} :
    record now storeId actor request db = some (.ok (detail, db')) ↔
      SaleInRange storeId actor request db.1 ∧
      (∀ d ∈ passed now storeId actor (.sale request) db.1, Fits d) ∧
      SaleService.record now storeId actor request db.1 = .ok (detail, db'.1) := by
  rw [record, Option.map_eq_some_iff]
  constructor
  · rintro ⟨r, hr, hstored⟩
    obtain ⟨hpassed, rfl⟩ := stored_eq_ok.mp hstored
    exact ⟨recordSale_isSome.mp (by rw [hr]; rfl), hpassed, (recordSale_eq hr).symm⟩
  · rintro ⟨hrange, hpassed, hok⟩
    obtain ⟨r, hr⟩ := Option.isSome_iff_exists.mp (recordSale_isSome.mpr hrange)
    exact ⟨r, hr, stored_eq_ok.mpr ⟨hpassed, by rw [recordSale_eq hr, hok]⟩⟩

end Sale

/-- Only an adjustment is a count. -/
theorem stockEffect_setTo_iff {movement : String} {quantity counted : Quantity}
    {kind : MovementKind} :
    InventoryService.stockEffect movement quantity = .ok (kind, .setTo counted) ↔
      movement = "adjustment" ∧ kind = .adjustment ∧ counted = quantity := by
  unfold InventoryService.stockEffect
  constructor
  · intro h
    split at h
    · cases h
    · split at h
      · cases h
      · split_ifs at h with hm
        cases h
        exact ⟨hm, rfl, rfl⟩
  · rintro ⟨rfl, rfl, rfl⟩
    rfl

theorem recordMovement_spec {now : Timestamp} {storeId : Uuid} {actor : Actor}
    {request : RecordMovementRequest} {db : Db} :
    ((recordMovement now storeId actor request db).isSome ↔
      InRange storeId actor db (.movement request)) ∧
    ∀ r, recordMovement now storeId actor request db = some r →
      r = InventoryService.record now storeId actor request db := by
  unfold recordMovement
  split
  · next counted product hcan heffect hfind =>
    obtain ⟨hkind, -, rfl⟩ := stockEffect_setTo_iff.mp heffect
    have hin : InRange storeId actor db (.movement request) ↔
        |quantityFromF64 request.quantity - product.stockQuantity| < decimalLimit := by
      rw [InRange]
      constructor
      · intro h
        exact h (Actor.require_eq_ok.mp hcan) hkind product hfind
      · intro h _ _ product' hfind'
        cases hfind.symm.trans hfind'
        exact h
    rw [hin]
    refine ⟨?_, ?_⟩
    · rw [Option.isSome_map, checked]
      split_ifs with h <;> simp [h]
    · intro r h
      obtain ⟨_, -, rfl⟩ := Option.map_eq_some_iff.mp h
      rfl
  · next hother =>
    refine ⟨?_, fun r h => (Option.some.inj h).symm⟩
    simp only [Option.isSome_some, InRange, true_iff]
    intro hcan hkind product hfind
    exact absurd hfind (hother () .adjustment _ product (Actor.require_eq_ok.mpr hcan)
      (stockEffect_setTo_iff.mpr ⟨hkind, rfl, rfl⟩))

section Push

variable {now : Timestamp} {storeId : Uuid} {actor : Actor}

/-- Applying a row aborts exactly when its figures leave the range. -/
theorem apply_spec {row : PushRow} {db : StoredDb}
    (hrest : RemainderInRange storeId actor db.1 row) :
    ((apply now storeId actor row db).isSome ↔ InRange storeId actor db.1 row) ∧
    ∀ r, apply now storeId actor row db = some r → r = result now storeId actor row db := by
  cases row with
  | sale request =>
    obtain ⟨hsome, hsame⟩ := @recordSale_spec storeId db.1 now actor request hrest
    refine ⟨?_, ?_⟩
    · rw [← hsome, apply, Option.isSome_map]
    · intro r h
      obtain ⟨r', hr', rfl⟩ := Option.map_eq_some_iff.mp h
      rw [hsame r' hr']
      rfl
  | movement request =>
    obtain ⟨hsome, hsame⟩ := @recordMovement_spec now storeId actor request db.1
    refine ⟨?_, ?_⟩
    · rw [← hsome, apply, Option.isSome_map]
    · intro r h
      obtain ⟨r', hr', rfl⟩ := Option.map_eq_some_iff.mp h
      rw [hsame r' hr']
      rfl
  | product request => exact ⟨by simp [apply, InRange], fun r h => (Option.some.inj h).symm⟩
  | expense request => exact ⟨by simp [apply, InRange], fun r h => (Option.some.inj h).symm⟩
  | withdrawal request => exact ⟨by simp [apply, InRange], fun r h => (Option.some.inj h).symm⟩
  | deletion request => exact ⟨by simp [apply, InRange], fun r h => (Option.some.inj h).symm⟩

/-- A row whose arithmetic does not abort does what its service does. -/
theorem apply_eq {row : PushRow} {db : StoredDb}
    {r : Except ApiError (Option Uuid × StoredDb)}
    (h : apply now storeId actor row db = some r) : r = result now storeId actor row db := by
  cases row with
  | sale request =>
    obtain ⟨r', hr', rfl⟩ := Option.map_eq_some_iff.mp h
    rw [recordSale_eq hr']
    rfl
  | product request => exact (@apply_spec now storeId actor (.product request) db trivial).2 r h
  | movement request => exact (@apply_spec now storeId actor (.movement request) db trivial).2 r h
  | expense request => exact (@apply_spec now storeId actor (.expense request) db trivial).2 r h
  | withdrawal request =>
    exact (@apply_spec now storeId actor (.withdrawal request) db trivial).2 r h
  | deletion request => exact (@apply_spec now storeId actor (.deletion request) db trivial).2 r h

theorem ok_of_apply {row : PushRow} {db db' : StoredDb} {id : Option Uuid}
    (h : apply now storeId actor row db = some (.ok (id, db'))) :
    row.apply now storeId actor db.1 = .ok (id, db'.1) :=
  (stored_eq_ok.mp (apply_eq h).symm).2

/-- The arithmetic of a row stays in range. -/
def RowInRange (storeId : Uuid) (actor : Actor) (db : Db) : PushRow → Prop
  | .sale request => SaleInRange storeId actor request db
  | row => InRange storeId actor db row

theorem apply_isSome {row : PushRow} {db : StoredDb} :
    (apply now storeId actor row db).isSome ↔ RowInRange storeId actor db.1 row := by
  cases row with
  | sale request => rw [apply, Option.isSome_map, recordSale_isSome, RowInRange]
  | product request => exact (@apply_spec now storeId actor (.product request) db trivial).1
  | movement request => exact (@apply_spec now storeId actor (.movement request) db trivial).1
  | expense request => exact (@apply_spec now storeId actor (.expense request) db trivial).1
  | withdrawal request => exact (@apply_spec now storeId actor (.withdrawal request) db trivial).1
  | deletion request => exact (@apply_spec now storeId actor (.deletion request) db trivial).1

theorem rowLeft_of_ok {row : PushRow} {db db' : StoredDb} {id : Option Uuid}
    (h : apply now storeId actor row db = some (.ok (id, db'))) :
    rowLeft now storeId actor row db = db' := by
  rw [rowLeft, h]

theorem rowsLeft_of_isSome {row : PushRow} {rest : List PushRow} {db : StoredDb}
    (h : (apply now storeId actor row db).isSome) : rowsLeft now storeId actor (row :: rest) db =
      rowsLeft now storeId actor rest (rowLeft now storeId actor row db) := by
  obtain ⟨r, hr⟩ := Option.isSome_iff_exists.mp h
  rw [rowsLeft, hr]

theorem rowsLeft_of_not_isSome {row : PushRow} {rest : List PushRow} {db : StoredDb}
    (h : ¬ (apply now storeId actor row db).isSome) :
    rowsLeft now storeId actor (row :: rest) db = db := by
  rw [rowsLeft, Option.not_isSome_iff_eq_none.mp h]

/-- A push that is answered leaves what its rows leave. -/
theorem push_left {request : PushRequest} {db db' : StoredDb} {outcome : PushOutcome}
    (h : push now storeId actor request db = some (outcome, db')) :
    db' = rowsLeft now storeId actor (rows now request) db := by
  have hrows : ∀ (rows : List PushRow) (s s' : Outcome × StoredDb),
      rows.foldlM (pushRow now storeId actor) s = some s' →
        s'.2 = rowsLeft now storeId actor rows s.2 := by
    intro rows
    induction rows with
    | nil =>
      intro s s' hs
      cases hs
      rfl
    | cons row rest ih =>
      intro s s' hs
      rw [List.foldlM_cons] at hs
      obtain ⟨u, hu, hs⟩ := Option.bind_eq_some_iff.mp hs
      obtain ⟨r, hr, rfl⟩ := Option.map_eq_some_iff.mp hu
      rw [ih _ s' hs, rowsLeft_of_isSome (by rw [hr]; rfl), rowLeft, hr]
      cases r <;> rfl
  obtain ⟨s', hs', he⟩ := Option.map_eq_some_iff.mp h
  cases he
  exact hrows _ _ s' hs'

/-- A row that is applied is reported under the identifier it carries. -/
theorem id_of_apply {row : PushRow} {db db' : Db} {id : Option Uuid} {given : Uuid}
    (h : row.apply now storeId actor db = .ok (id, db')) (hid : row.id? = some given) :
    id = some given := by
  cases row with
  | product request =>
    obtain ⟨⟨saved, db₁⟩, hr, he⟩ := map_eq_ok.mp h
    cases he
    obtain ⟨-, -, row, -, -, rfl, -⟩ := ProductService.save_eq_ok.mp hr
    rw [ProductService.savedId, show request.id = some given from hid, Option.getD_some]
  | sale request =>
    obtain ⟨⟨detail, db₁⟩, hr, he⟩ := map_eq_ok.mp h
    cases he
    obtain ⟨method, -, hr⟩ := bind_eq_ok.mp hr
    obtain ⟨lines, -, hr⟩ := bind_eq_ok.mp hr
    obtain ⟨⟨recorded, db₂⟩, hrecord, hr⟩ := bind_eq_ok.mp hr
    have hdetail : detail.id = recorded.id := by
      cases hr
      rfl
    have hrecorded := (SaleEffects.created_of_record hrecord).1
    rw [hdetail, hrecorded]
    change some (request.id.getD _) = some given
    rw [show request.id = some given from hid, Option.getD_some]
  | movement request =>
    obtain ⟨db₁, -, he⟩ := map_eq_ok.mp h
    cases he
    exact hid
  | expense request =>
    obtain ⟨⟨saved, db₁⟩, hr, he⟩ := map_eq_ok.mp h
    cases he
    obtain ⟨_, -, hr⟩ := bind_eq_ok.mp hr
    obtain ⟨category, -, hr⟩ := bind_eq_ok.mp hr
    dsimp only at hr
    split at hr
    · cases hr
    · cases hr
      rw [show request.id = some given from hid, Option.getD_some]
  | withdrawal request =>
    obtain ⟨⟨saved, db₁⟩, hr, he⟩ := map_eq_ok.mp h
    cases he
    obtain ⟨_, -, hr⟩ := bind_eq_ok.mp hr
    dsimp only at hr
    split at hr
    · cases hr
    · cases hr
      rw [show request.id = some given from hid, Option.getD_some]
  | deletion request =>
    obtain ⟨db₁, -, he⟩ := map_eq_ok.mp h
    cases he
    exact hid

/-- What becomes of a row, and of the database. -/
theorem pushRow_spec {row : PushRow} {s : Outcome × StoredDb} (hvalid : row.Valid) :
    ((pushRow now storeId actor s row).isSome ↔ InRange storeId actor s.2.1 row) ∧
    ∀ s', pushRow now storeId actor s row = some s' →
      s'.2 = after now storeId actor row s.2 ∧
      s.1.applied ⊆ s'.1.applied ∧ s.1.rejected ⊆ s'.1.rejected ∧
      Named ⟨s'.1.applied, s'.1.rejected, now⟩ row := by
  obtain ⟨hsome, hsame⟩ := @apply_spec now storeId actor row s.2 (remainder_of_valid hvalid)
  refine ⟨by rw [← hsome, pushRow, Option.isSome_map], ?_⟩
  intro s' h
  obtain ⟨r, hr, rfl⟩ := Option.map_eq_some_iff.mp h
  have hstored := hsame r hr
  cases hrow : result now storeId actor row s.2 with
  | error e =>
    rw [hrow] at hstored
    subst hstored
    refine ⟨?_, List.Subset.refl _, List.subset_append_left _ _, ?_⟩
    · rw [after, hrow]
    · intro id hid
      right
      refine ⟨reasonOf e, List.mem_append_right _ ?_⟩
      rw [← hid]
      exact List.mem_cons_self
  | ok saved =>
    obtain ⟨id, db'⟩ := saved
    rw [hrow] at hstored
    subst hstored
    refine ⟨?_, ?_, ?_, ?_⟩
    · rw [after, hrow]
    · cases id with
      | none => exact List.Subset.refl _
      | some id => exact List.subset_append_left _ _
    · cases id <;> exact List.Subset.refl _
    · intro given hid
      left
      have happlied : row.apply now storeId actor s.2.1 = .ok (id, db'.1) := by
        exact (stored_eq_ok.mp hrow).2
      rw [id_of_apply happlied hid]
      exact List.mem_append_right _ List.mem_cons_self

/-- Applying the rows aborts exactly when the figures of one leave the range;
otherwise each is named. -/
theorem pushRows_spec {rows : List PushRow} (hvalid : ∀ row ∈ rows, row.Valid)
    (s : Outcome × StoredDb) :
    ((rows.foldlM (pushRow now storeId actor) s).isSome ↔
      AllInRange now storeId actor rows s.2) ∧
    ∀ s', rows.foldlM (pushRow now storeId actor) s = some s' →
      s.1.applied ⊆ s'.1.applied ∧ s.1.rejected ⊆ s'.1.rejected ∧
      ∀ row ∈ rows, Named ⟨s'.1.applied, s'.1.rejected, now⟩ row := by
  induction rows generalizing s with
  | nil =>
    refine ⟨by simp [AllInRange], ?_⟩
    intro s' h
    cases h
    exact ⟨List.Subset.refl _, List.Subset.refl _, fun row hrow => (by cases hrow)⟩
  | cons row rest ih =>
    obtain ⟨hsome, hdone⟩ := @pushRow_spec now storeId actor row s (hvalid row List.mem_cons_self)
    have hrest := ih fun r hr => hvalid r (List.mem_cons_of_mem _ hr)
    rw [List.foldlM_cons, Option.bind_eq_bind]
    cases hrow : pushRow now storeId actor s row with
    | none =>
      rw [hrow] at hsome
      refine ⟨?_, ?_⟩
      · have hout : ¬ InRange storeId actor s.2.1 row := by simpa using hsome
        simp [AllInRange, hout]
      · intro s' h
        cases h
    | some u =>
      rw [hrow] at hsome
      obtain ⟨hdb, happlied, hrejected, hnamed⟩ := hdone u hrow
      have hin : InRange storeId actor s.2.1 row := hsome.mp rfl
      obtain ⟨hgo, hkept⟩ := hrest u
      refine ⟨?_, ?_⟩
      · rw [Option.bind_some, hgo, hdb]
        simp only [AllInRange, hin, true_and]
      · intro s' h
        obtain ⟨happlied', hrejected', hnamed'⟩ := hkept s' h
        refine ⟨List.Subset.trans happlied happlied', List.Subset.trans hrejected hrejected', ?_⟩
        intro r hr
        rcases List.mem_cons.mp hr with rfl | hr
        · intro id hid
          rcases hnamed id hid with hin | ⟨reason, hin⟩
          · exact Or.inl (happlied' hin)
          · exact Or.inr ⟨reason, hrejected' hin⟩
        · exact hnamed' r hr

/-- A row whose figures are held does what exact arithmetic would. -/
theorem result_of_held {row : PushRow} {db : StoredDb} (h : Held now storeId actor row db.1) :
    (∃ e, row.apply now storeId actor db.1 = .error e ∧
        result now storeId actor row db = .error e) ∨
      ∃ id db', row.apply now storeId actor db.1 = .ok (id, db'.1) ∧
        result now storeId actor row db = .ok (id, db') := by
  cases hrow : row.apply now storeId actor db.1 with
  | error e =>
    left
    refine ⟨e, rfl, ?_⟩
    unfold result stored
    rw [if_pos h.passed, hrow]
  | ok saved =>
    obtain ⟨id, db'⟩ := saved
    right
    exact ⟨id, ⟨db', h.left id db' hrow⟩, rfl, stored_eq_ok.mpr ⟨h.passed, hrow⟩⟩

theorem pushRow_of_held {row : PushRow} {o : Outcome} {db : StoredDb}
    (h : Held now storeId actor row db.1) :
    ∃ db', pushRow now storeId actor (o, db) row =
        some ((SyncPush.pushRow now storeId actor (o, db.1) row).1, db') ∧
      db'.1 = (SyncPush.pushRow now storeId actor (o, db.1) row).2 := by
  obtain ⟨hsome, hsame⟩ := @apply_spec now storeId actor row db h.remainder
  obtain ⟨r, hr⟩ := Option.isSome_iff_exists.mp (hsome.mpr h.inRange)
  have hres := hsame r hr
  rw [pushRow, hr, hres]
  rcases result_of_held h with ⟨e, he, hstored⟩ | ⟨id, db', hok, hstored⟩
  · rw [hstored, pushRow_of_error (o, db.1) he]
    exact ⟨db, rfl, rfl⟩
  · rw [hstored, pushRow_of_ok (o, db.1) hok]
    exact ⟨db', rfl, rfl⟩

/-- Rows whose figures are held do what exact arithmetic would. -/
theorem pushRows_of_held {rows : List PushRow} {o : Outcome}
    {db : StoredDb} (h : AllHeld now storeId actor rows db.1) :
    ∃ db', rows.foldlM (pushRow now storeId actor) (o, db) =
        some ((pushRows now storeId actor (o, db.1) rows).1, db') ∧
      db'.1 = (pushRows now storeId actor (o, db.1) rows).2 := by
  induction rows generalizing o db with
  | nil => exact ⟨db, rfl, rfl⟩
  | cons row rest ih =>
    obtain ⟨hrow, hrest⟩ := h
    obtain ⟨db₁, hpush, hdb₁⟩ := pushRow_of_held hrow
    have hsame : (SyncPush.pushRow now storeId actor (o, db.1) row).2 =
        (SyncPush.pushRow now storeId actor (Outcome.empty, db.1) row).2 := by
      have happend := pushRow_append now storeId actor o Outcome.empty db.1 row
      rw [Outcome.append_empty] at happend
      rw [happend]
    rw [← hsame, ← hdb₁] at hrest
    obtain ⟨db', hgo, hdb'⟩ := ih (o := (SyncPush.pushRow now storeId actor (o, db.1) row).1) hrest
    have hstep : pushRows now storeId actor (o, db.1) (row :: rest) = pushRows now storeId actor
        ((SyncPush.pushRow now storeId actor (o, db.1) row).1, db₁.1) rest := by
      rw [hdb₁]
      rfl
    refine ⟨db', ?_, ?_⟩
    · rw [List.foldlM_cons, hpush, hstep]
      exact hgo
    · rw [hdb', hstep]

/-- The rows of a push that obeys the field rules obey theirs. -/
theorem valid_of_mem_rows {request : PushRequest} (h : request.Valid) {row : PushRow}
    (hrow : row ∈ rows now request) : row.Valid := by
  simp only [rows, List.mem_append, List.mem_map] at hrow
  rcases hrow with (((⟨r, hr, rfl⟩ | ⟨event, hevent, rfl⟩) | ⟨r, hr, rfl⟩) | ⟨r, hr, rfl⟩) |
    ⟨r, hr, rfl⟩
  · exact h.1 r hr
  · simp only [intoTimeline, List.mem_insertionSort, List.mem_append, List.mem_map] at hevent
    rcases hevent with ⟨r, hr, rfl⟩ | ⟨r, hr, rfl⟩
    · exact h.2.2.1 r hr
    · exact h.2.1 r hr
  · exact h.2.2.2.1 r hr
  · exact h.2.2.2.2.1 r hr
  · exact h.2.2.2.2.2 r hr

/-- A push whose figures are held does what exact arithmetic would. -/
theorem push_of_held {request : PushRequest} {db : StoredDb}
    (h : AllHeld now storeId actor (rows now request) db.1) :
    ∃ db', push now storeId actor request db =
        some ((SyncPush.push now storeId actor request db.1).1, db') ∧
      db'.1 = (SyncPush.push now storeId actor request db.1).2 := by
  obtain ⟨db', hgo, hdb'⟩ := pushRows_of_held (o := Outcome.empty) h
  refine ⟨db', ?_, ?_⟩
  · rw [push, hgo, push_eq_pushRows]
    rfl
  · rw [hdb', push_eq_pushRows]

/-- A push that obeys the field rules is answered, with every row that carries
an identifier named, exactly when each row's figures are in range of the
database it meets. -/
theorem answered_iff {request : PushRequest} (h : request.Valid) (db : StoredDb) :
    (∃ outcome db', push now storeId actor request db = some (outcome, db') ∧
      ∀ row ∈ rows now request, Named outcome row) ↔
    AllInRange now storeId actor (rows now request) db := by
  have hspec := @pushRows_spec now storeId actor (rows now request)
    (fun row hrow => valid_of_mem_rows h hrow) (Outcome.empty, db)
  rw [← hspec.1, Option.isSome_iff_exists]
  constructor
  · rintro ⟨outcome, db', hpush, -⟩
    obtain ⟨s', hs', -⟩ := Option.map_eq_some_iff.mp hpush
    exact ⟨s', hs'⟩
  · rintro ⟨s', hs'⟩
    refine ⟨⟨s'.1.applied, s'.1.rejected, now⟩, s'.2, ?_, (hspec.2 s' hs').2.2⟩
    rw [push, hs']
    rfl

end Push

/-- The store's owner. -/
def owner : Actor := ⟨⟨1⟩, "Ana", "phone", none⟩

/-- A database nobody has used. -/
def unused : StoredDb := ⟨Db.empty, by decide⟩

/-- A push of one quick sale of so many units at so much. -/
def pushOf (quantity unitPrice : ℚ) : PushRequest where
  products := []
  stockMovements := []
  sales := [⟨some ⟨20⟩, none, 0, none, none,
    [⟨some ⟨30⟩, none, none, quantity, some unitPrice, none⟩]⟩]
  expenses := []
  withdrawals := []
  deletions := []

theorem answered_iff_pushOf : ∃ outcome db',
    push 1 ⟨4⟩ owner (pushOf 2 25) unused = some (outcome, db') ∧
      ∀ row ∈ rows 1 (pushOf 2 25), Named outcome row := by
  refine (answered_iff (by decide +kernel) unused).mpr ⟨fun _ => ?_, trivial⟩
  have hlines : resolved ⟨4⟩ Db.empty (SaleService.visibleItems owner
      [⟨some ⟨30⟩, none, none, 2, some 25, none⟩]) 0 =
      [⟨⟨30⟩, none, "Quick sale", 2, 25, 0, 50⟩] := by decide +kernel
  change LinesInRange 0 0 (resolved ⟨4⟩ Db.empty (SaleService.visibleItems owner
      [⟨some ⟨30⟩, none, none, 2, some 25, none⟩]) 0)
  rw [hlines]
  refine linesInRange_cons.mpr ⟨?_, linesInRange_nil _ _⟩
  decide +kernel

/-- Figures that pass the field rules and leave the range take the answer to
the whole push with them. -/
theorem product_out_of_range_aborts : (pushOf (10 ^ 20) (10 ^ 20)).Valid ∧
    ¬ ∃ outcome db', push 1 ⟨4⟩ owner (pushOf (10 ^ 20) (10 ^ 20)) unused = some (outcome, db') ∧
      ∀ row ∈ rows 1 (pushOf (10 ^ 20) (10 ^ 20)), Named outcome row := by
  refine ⟨by decide +kernel, ?_⟩
  rintro ⟨outcome, db', hpush, -⟩
  have hnone : (push 1 ⟨4⟩ owner (pushOf (10 ^ 20) (10 ^ 20)) unused).isNone = true := by
    decide +kernel
  rw [hpush] at hnone
  cases hnone

end Kitaza.DecimalRange
