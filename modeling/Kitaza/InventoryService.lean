import Kitaza.SaleRepository

/-!
# Stock movements

One ledger row and the product's running total move together, in one
transaction. A movement the server already has changes nothing.
-/

namespace Kitaza.InventoryService

open KeyedTable Primitives Access Schema Payloads

/-- How a movement changes stock. -/
inductive StockEffect where
  /-- By an amount. -/
  | change (delta : Quantity)
  /-- To a counted total. -/
  | setTo (counted : Quantity)
  deriving DecidableEq, Repr

/-- A movement to write to the ledger. -/
structure LedgerEntry where
  /-- The store it belongs to. -/
  storeId : Uuid
  /-- Identifier of the movement. -/
  movementId : Uuid
  /-- The product moved. -/
  productId : Uuid
  /-- Its kind. -/
  movement : MovementKind
  /-- What it does to the stock. -/
  effect : StockEffect
  /-- Cost of one unit delivered. -/
  unitCost : Money
  /-- Free text. -/
  note : Option String
  /-- When it happened. -/
  occurredAt : Timestamp
  deriving DecidableEq, Repr

/-- What an applied movement did. -/
structure AppliedMovement where
  /-- The product's name. -/
  productName : String
  /-- What the stock actually moved by. -/
  change : Quantity
  deriving DecidableEq, Repr

/-- The change an effect makes to the stock on hand. -/
def StockEffect.delta (onHand : Quantity) : StockEffect → Quantity
  | .change delta => delta
  | .setTo counted => counted - onHand

/-- The ledger row of an entry that moves the stock by `delta`. -/
def ledgerRow (now : Timestamp) (entry : LedgerEntry) (delta : Quantity) : StockMovement where
  storeId := entry.storeId
  productId := entry.productId
  movement := entry.movement
  quantity := delta
  unitCost := entry.unitCost
  note := entry.note
  occurredAt := entry.occurredAt
  updatedAt := now
  deletedAt := none

/-- The product after a movement: the stock moved, the cost a delivery
names taken over. -/
def movedProduct (now : Timestamp) (delta : Quantity) (unitCost : Money) (p : Product) : Product :=
  { p with
    stockQuantity := p.stockQuantity + delta
    costPrice := if 0 < unitCost then unitCost else p.costPrice
    updatedAt := now }

/-- Write one ledger row and move the product's running total to match.
The result is absent when the movement had already been recorded. -/
def recordMovement (now : Timestamp) (entry : LedgerEntry) (db : Db) :
    Except ApiError (Option AppliedMovement × Db) :=
  match ProductService.find entry.storeId entry.productId db with
  | none => .error (.notFound "product")
  | some product =>
    let delta := entry.effect.delta product.stockQuantity
    if (db.stockMovements.find? entry.movementId).isSome then .ok (none, db)
    else .ok (some ⟨product.name, delta⟩, { db with
      stockMovements := db.stockMovements.put entry.movementId (ledgerRow now entry delta)
      products := db.products.put entry.productId
        (movedProduct now delta entry.unitCost product) })

/-- What a successful movement does. -/
theorem recordMovement_eq_ok {now : Timestamp} {entry : LedgerEntry} {db db' : Db}
    {applied : Option AppliedMovement} :
    recordMovement now entry db = .ok (applied, db') ↔
      ∃ p, ProductService.find entry.storeId entry.productId db = some p ∧
        (((db.stockMovements.find? entry.movementId).isSome = true ∧ applied = none ∧ db' = db) ∨
          (db.stockMovements.find? entry.movementId = none ∧
            applied = some ⟨p.name, entry.effect.delta p.stockQuantity⟩ ∧
            db' = { db with
              stockMovements := db.stockMovements.put entry.movementId
                (ledgerRow now entry (entry.effect.delta p.stockQuantity))
              products := db.products.put entry.productId
                (movedProduct now (entry.effect.delta p.stockQuantity) entry.unitCost p) })) := by
  unfold recordMovement
  cases ProductService.find entry.storeId entry.productId db with
  | none => simp
  | some p =>
    cases hm : db.stockMovements.find? entry.movementId with
    | none =>
      simp only [Option.isSome_none, Bool.false_eq_true, if_false, Except.ok.injEq, Prod.mk.injEq,
        Option.some.injEq, exists_eq_left', false_and, true_and, false_or]
      exact and_congr eq_comm eq_comm
    | some m =>
      simp only [Option.isSome_some, if_true, Except.ok.injEq, Prod.mk.injEq, Option.some.injEq,
        exists_eq_left', true_and, reduceCtorEq, false_and, or_false]
      exact and_congr eq_comm eq_comm

/-- Movements that add stock. -/
def INBOUND_MOVEMENTS : List (String × MovementKind) := [("stock_in", .stockIn)]

/-- Movements that take stock away. -/
def OUTBOUND_MOVEMENTS : List (String × MovementKind) :=
  [("stock_out", .stockOut), ("spoilage", .spoilage)]

/-- The kind and effect of a posted movement. -/
def stockEffect (movement : String) (quantity : Quantity) :
    Except ApiError (MovementKind × StockEffect) :=
  match INBOUND_MOVEMENTS.lookup movement with
  | some kind => .ok (kind, .change quantity)
  | none =>
    match OUTBOUND_MOVEMENTS.lookup movement with
    | some kind => .ok (kind, .change (-quantity))
    | none =>
      if movement = "adjustment" then .ok (.adjustment, .setTo quantity)
      else .error (.badRequest ("unsupported stock movement '" ++ movement ++ "'"))

/-- What the log says about a movement. -/
def movementDetails (kind : MovementKind) (quantity : Quantity) (applied : AppliedMovement) :
    AuditDetails :=
  if kind = .adjustment then .stockCounted applied.productName quantity applied.change
  else .stockMoved applied.productName quantity

/-- The ledger entry of a request. -/
def entryOf (now : Timestamp) (storeId : Uuid) (actor : Actor) (request : RecordMovementRequest)
    (kind : MovementKind) (effect : StockEffect) (db : Db) : LedgerEntry where
  storeId := storeId
  movementId := request.id.getD (Uuid.newV4 db.stockMovements 0)
  productId := request.productId
  movement := kind
  effect := effect
  unitCost := if actor.can .viewProfit then moneyFromF64 request.unitCost else 0
  note := trimmed request.note
  occurredAt := request.occurredAt.getD now

/-- Log an applied movement. -/
def logMovement (now : Timestamp) (actor : Actor) (entry : LedgerEntry) (quantity : Quantity)
    (applied : Option AppliedMovement) (db : Db) : Db :=
  match applied, AuditAction.forMovement entry.movement with
  | some applied, some action =>
    recordAudit now actor ⟨entry.storeId, action, entry.productId, entry.occurredAt,
      movementDetails entry.movement quantity applied⟩ db
  | _, _ => db

/-- Record a stock movement. -/
def record (now : Timestamp) (storeId : Uuid) (actor : Actor) (request : RecordMovementRequest)
    (db : Db) : Except ApiError Db := do
  actor.require .manageProducts
  let quantity := quantityFromF64 request.quantity
  let (kind, effect) ← stockEffect (toLowercase (trim request.movement)) quantity
  if kind ≠ .adjustment ∧ quantity = 0 then
    .error (.badRequest "quantity must be greater than zero")
  else
    let entry := entryOf now storeId actor request kind effect db
    let (applied, db) ← recordMovement now entry db
    .ok (logMovement now actor entry quantity applied db)

/-- Logging touches the log alone. -/
theorem logMovement_eq (now : Timestamp) (actor : Actor) (entry : LedgerEntry)
    (quantity : Quantity) (applied : Option AppliedMovement) (db : Db) :
    ∃ events, logMovement now actor entry quantity applied db = { db with auditEvents := events } := by
  unfold logMovement
  split
  · exact ⟨_, rfl⟩
  · exact ⟨_, rfl⟩

/-- A movement whose figures pass is what the repository makes of it. -/
theorem record_of_entry {now : Timestamp} {storeId : Uuid} {actor : Actor}
    {request : RecordMovementRequest} {db db₁ : Db} {kind : MovementKind} {effect : StockEffect}
    {applied : Option AppliedMovement} (hcan : actor.can .manageProducts = true)
    (heffect : stockEffect (toLowercase (trim request.movement))
      (quantityFromF64 request.quantity) = .ok (kind, effect))
    (hq : kind = .adjustment ∨ quantityFromF64 request.quantity ≠ 0)
    (h : recordMovement now (entryOf now storeId actor request kind effect db) db =
      .ok (applied, db₁)) :
    ∃ events, record now storeId actor request db = .ok { db₁ with auditEvents := events } := by
  obtain ⟨events, hlog⟩ := logMovement_eq now actor
    (entryOf now storeId actor request kind effect db) (quantityFromF64 request.quantity) applied db₁
  refine ⟨events, ?_⟩
  have hfigures : ¬(kind ≠ .adjustment ∧ quantityFromF64 request.quantity = 0) :=
    fun hc => hq.elim hc.1 fun hne => hne hc.2
  simp only [record, Actor.require_eq_ok.mpr hcan, bind, Except.bind, heffect, if_neg hfigures, h,
    hlog]

end Kitaza.InventoryService
