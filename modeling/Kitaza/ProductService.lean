import Kitaza.Payloads

/-!
# Products

The catalogue's statements and the service over them. Stock is set when a
product is first inserted and belongs to the ledger afterwards; a removed
product comes back when its identifier is saved again.
-/

namespace Kitaza.ProductService

open KeyedTable Primitives Access Schema Payloads

/-- The values `upsert` writes. -/
structure ProductValues where
  /-- Trimmed name. -/
  name : String
  /-- Trimmed code, if any. -/
  barcode : Option String
  /-- Trimmed unit. -/
  unitLabel : String
  /-- Cost of one unit. -/
  costPrice : Money
  /-- Price of one unit. -/
  sellingPrice : Money
  /-- Stock of a new product. -/
  openingStock : Quantity
  /-- Level at which to reorder. -/
  reorderLevel : Quantity
  deriving DecidableEq, Repr

/-- A live product of the store. -/
def find (storeId productId : Uuid) (db : Db) : Option Product :=
  (db.products.find? productId).filter fun p => p.storeId == storeId && p.deletedAt.isNone

theorem find_eq_some {storeId productId : Uuid} {db : Db} {p : Product} :
    find storeId productId db = some p ↔
      db.products.find? productId = some p ∧ p.storeId = storeId ∧ p.deletedAt = none := by
  simp [find, Option.filter_eq_some_iff]

/-- Whether the unique index on store and barcode, which also covers
removed products, holds this code for another product. -/
def BarcodeTaken (storeId productId : Uuid) (barcode : Option String)
    (products : Table Uuid Product) : Prop :=
  products.Any fun id p => id ≠ productId ∧ p.storeId = storeId ∧ p.barcode.isSome ∧
    p.barcode = barcode

instance (storeId productId : Uuid) (barcode : Option String) (products : Table Uuid Product) :
    Decidable (BarcodeTaken storeId productId barcode products) :=
  inferInstanceAs (Decidable (products.Any _))

/-- The row an insert-or-update leaves under the client's identifier, or
nothing when the identifier belongs to another store. -/
def upsertRow (now : Timestamp) (storeId : Uuid) (values : ProductValues) :
    Option Product → Option Product
  | none => some {
      storeId := storeId
      name := values.name
      barcode := values.barcode
      unitLabel := values.unitLabel
      costPrice := values.costPrice
      sellingPrice := values.sellingPrice
      stockQuantity := values.openingStock
      reorderLevel := values.reorderLevel
      isActive := true
      updatedAt := now
      deletedAt := none }
  | some p =>
    if p.storeId = storeId then
      some { p with
        name := values.name
        barcode := values.barcode
        unitLabel := values.unitLabel
        costPrice := values.costPrice
        sellingPrice := values.sellingPrice
        reorderLevel := values.reorderLevel
        isActive := true
        deletedAt := none
        updatedAt := now }
    else none

/-- Insert-or-update keyed on the client's identifier. Stock is only set on
insert; afterwards it belongs to the ledger. -/
def upsert (now : Timestamp) (storeId productId : Uuid) (values : ProductValues) (db : Db) :
    Except ApiError (Product × Db) :=
  match upsertRow now storeId values (db.products.find? productId) with
  | none => .error foreignId
  | some row =>
    if BarcodeTaken storeId productId row.barcode db.products then
      .error (.internal "products_store_barcode_unique")
    else .ok (row, { db with products := db.products.put productId row })

theorem upsertRow_some {now : Timestamp} {storeId : Uuid} {values : ProductValues} {p row : Product}
    (h : upsertRow now storeId values (some p) = some row) :
    p.storeId = storeId ∧ row.storeId = storeId ∧ row.stockQuantity = p.stockQuantity := by
  dsimp only [upsertRow] at h
  split_ifs at h with hs
  cases h
  exact ⟨hs, hs, rfl⟩

theorem upsert_eq_ok {now : Timestamp} {storeId productId : Uuid} {values : ProductValues}
    {db db' : Db} {row : Product} :
    upsert now storeId productId values db = .ok (row, db') ↔
      upsertRow now storeId values (db.products.find? productId) = some row ∧
      ¬ BarcodeTaken storeId productId row.barcode db.products ∧
      db' = { db with products := db.products.put productId row } := by
  unfold upsert
  cases upsertRow now storeId values (db.products.find? productId) with
  | none => simp
  | some r =>
    dsimp only
    split_ifs with hb
    · simp only [Option.some.injEq, false_iff, not_and]
      rintro rfl hn
      exact absurd hb hn
    · simp only [Except.ok.injEq, Prod.mk.injEq, Option.some.injEq]
      constructor
      · rintro ⟨rfl, rfl⟩
        exact ⟨rfl, hb, rfl⟩
      · rintro ⟨rfl, _, rfl⟩
        exact ⟨rfl, rfl⟩

/-- Mark a live product of the store removed. -/
def softDelete (now : Timestamp) (storeId productId : Uuid) (db : Db) : Option (String × Db) :=
  (find storeId productId db).map fun p =>
    (p.name, { db with
      products := db.products.put productId
        { p with deletedAt := some now, isActive := false, updatedAt := now } })

/-- An old and a new value, where they differ. -/
def changed {α : Type} [DecidableEq α] (old new : α) : Option (α × α) :=
  if old = new then none else some (old, new)

/-- What the log should say about a save, if anything. -/
def describeSave (now : Timestamp) (storeId productId : Uuid) (before : Option Product)
    (after : Product) : Option AuditEntry :=
  match before with
  | none => some ⟨storeId, .productAdded, productId, now,
      .productAdded after.name after.sellingPrice⟩
  | some before =>
    let name := changed before.name after.name
    let sellingPrice := changed before.sellingPrice after.sellingPrice
    let costPrice := changed before.costPrice after.costPrice
    if name.isNone && sellingPrice.isNone && costPrice.isNone then none
    else some ⟨storeId, .productChanged, productId, now,
      .productChanged after.name name sellingPrice costPrice⟩

/-- The cost a save stores: a device without cost access keeps the stored
cost instead of the zero it was shown. -/
def savedCost (actor : Actor) (request : SaveProductRequest) (before : Option Product) : Money :=
  if actor.can .viewProfit then moneyFromF64 request.costPrice
  else (before.map Product.costPrice).getD 0

/-- The values a save writes. -/
def savedValues (actor : Actor) (request : SaveProductRequest) (before : Option Product) :
    ProductValues where
  name := trim request.name
  barcode := trimmed request.barcode
  unitLabel := trim request.unitLabel
  costPrice := savedCost actor request before
  sellingPrice := moneyFromF64 request.sellingPrice
  openingStock := quantityFromF64 request.openingStock
  reorderLevel := quantityFromF64 request.reorderLevel

/-- Create or change a product; the result is its identifier and row. -/
def save (now : Timestamp) (storeId : Uuid) (actor : Actor) (request : SaveProductRequest)
    (db : Db) : Except ApiError ((Uuid × Product) × Db) := do
  actor.require .manageProducts
  let productId := request.id.getD (Uuid.newV4 db.products 0)
  let before := find storeId productId db
  let values := savedValues actor request before
  if values.sellingPrice < values.costPrice then
    .error (.badRequest
      "selling price is lower than cost price, this product would lose money")
  else
    let (product, db) ← upsert now storeId productId values db
    .ok ((productId, product),
      recordAudit? now actor (describeSave now storeId productId before product) db)

/-- The identifier a save writes under. -/
def savedId (request : SaveProductRequest) (db : Db) : Uuid :=
  request.id.getD (Uuid.newV4 db.products 0)

/-- What a successful save does. -/
theorem save_eq_ok {now : Timestamp} {storeId : Uuid} {actor : Actor}
    {request : SaveProductRequest} {db db' : Db} {saved : Uuid × Product} :
    save now storeId actor request db = .ok (saved, db') ↔
      let id := savedId request db
      let before := find storeId id db
      let values := savedValues actor request before
      actor.can .manageProducts = true ∧ ¬ values.sellingPrice < values.costPrice ∧
        ∃ row, upsertRow now storeId values (db.products.find? id) = some row ∧
          ¬ BarcodeTaken storeId id row.barcode db.products ∧ saved = (id, row) ∧
          db' = recordAudit? now actor (describeSave now storeId id before row)
            { db with products := db.products.put id row } := by
  dsimp only [savedId]
  unfold save
  rw [bind_eq_ok]
  constructor
  · rintro ⟨_, hreq, h⟩
    refine ⟨Actor.require_eq_ok.mp hreq, ?_⟩
    dsimp only at h
    split_ifs at h with hlt
    obtain ⟨⟨row, db₁⟩, hup, h⟩ := bind_eq_ok.mp h
    obtain ⟨hrow, hb, rfl⟩ := upsert_eq_ok.mp hup
    cases h
    exact ⟨hlt, row, hrow, hb, rfl, rfl⟩
  · rintro ⟨hcan, hlt, row, hrow, hb, rfl, rfl⟩
    refine ⟨(), Actor.require_eq_ok.mpr hcan, ?_⟩
    dsimp only
    rw [if_neg hlt, upsert_eq_ok.mpr ⟨hrow, hb, rfl⟩]
    rfl

/-- Remove a product. -/
def remove (now : Timestamp) (storeId : Uuid) (actor : Actor) (productId : Uuid) (db : Db) :
    Except ApiError Db := do
  actor.require .manageProducts
  match softDelete now storeId productId db with
  | none => .error (.notFound "product")
  | some (name, db) =>
    .ok (recordAudit now actor
      ⟨storeId, .productRemoved, productId, now, .productRemoved name⟩ db)

end Kitaza.ProductService
