import Kitaza.RowEffects

/-!
# What the catalogue says of a product

Everything a product row holds but its stock and the time of its last
write. Sales, voids, expenses and withdrawals leave it alone, and so does a
stock movement that brings no cost; what is left are saved and removed
products and costed deliveries.
-/

namespace Kitaza.Catalogue

open KeyedTable Primitives Access Schema Payloads ProductService SaleRepository SaleEffects
  InventoryService SyncPush RowEffects

/-- A product without its stock and the time of its last write. -/
def catalogued (p : Product) : Product := { p with stockQuantity := 0, updatedAt := 0 }

/-- The products without their stock. -/
def catalogue (db : Db) : Table Uuid Product := db.products.mapRows fun _ => catalogued

theorem find?_catalogue (db : Db) (id : Uuid) :
    (catalogue db).find? id = (db.products.find? id).map catalogued := rfl

/-- Rewriting products in nothing but their stock keeps the catalogue. -/
theorem mapRows_catalogued {t : Table Uuid Product} {f : Uuid → Product → Product}
    (h : ∀ id p, catalogued (f id p) = catalogued p) :
    ((t.mapRows f).mapRows fun _ => catalogued) = t.mapRows fun _ => catalogued := by
  rw [Table.mapRows_mapRows]
  simp only [h]

/-- What an insert-or-update of a product leaves. -/
structure Upserted (storeId : Uuid) (values : ProductValues) (existing : Option Product)
    (row : Product) : Prop where
  /-- It is the store's. -/
  ofStore : row.storeId = storeId
  /-- It is live, also when it was removed before. -/
  live : row.deletedAt = none
  /-- It has the cost the save names. -/
  cost : row.costPrice = values.costPrice
  /-- It has the barcode the save names. -/
  barcode : row.barcode = values.barcode
  /-- The row it replaces was the store's. -/
  own : ∀ p, existing = some p → p.storeId = storeId

theorem upsertRow_eq_some {now : Timestamp} {storeId : Uuid} {values : ProductValues}
    {existing : Option Product} {row : Product}
    (h : upsertRow now storeId values existing = some row) :
    Upserted storeId values existing row := by
  cases existing with
  | none =>
    cases h
    exact ⟨rfl, rfl, rfl, rfl, fun p hp => by cases hp⟩
  | some p =>
    dsimp only [upsertRow] at h
    split_ifs at h with hs
    cases h
    exact ⟨hs, rfl, rfl, rfl, fun q hq => by cases hq; exact hs⟩

section Sales

variable {now : Timestamp} {storeId saleId : Uuid} {sale : PreparedSale}

theorem catalogued_restored (joins : JoinRule) (saleItems : Table Uuid SaleItem) (id : Uuid)
    (p : Product) :
    catalogued (restored joins now saleId storeId saleItems id p) = catalogued p := by
  unfold restored
  cases joinedLine joins now saleId id saleItems with
  | none => rfl
  | some item =>
    dsimp only
    split_ifs <;> rfl

theorem catalogue_undoSale (db : Db) : catalogue (undoSale now saleId storeId db) = catalogue db :=
  mapRows_catalogued fun id p => catalogued_restored db.joins db.saleItems id p

theorem catalogued_deducted (lines : List PreparedLine) (id : Uuid) (p : Product) :
    catalogued (deducted now storeId lines id p) = catalogued p := by
  unfold deducted
  split_ifs <;> rfl

/-- Writing the lines of a sale moves nothing but stock. -/
theorem catalogue_written {drawn : ℕ → Uuid} {lines : List PreparedLine} {i : ℕ} {db db' : Db}
    (h : LinesWritten now drawn sale lines i db db') : catalogue db' = catalogue db := by
  apply Table.ext_find?
  intro id
  rw [find?_catalogue, find?_catalogue, h.products, Option.map_map]
  congr 1
  funext p
  exact catalogued_deducted lines id p

/-- Recording a sale moves nothing but stock. -/
theorem catalogue_recorded {drawn : ℕ → Uuid} {recorder : Recorder} {db db' : Db}
    (h : SaleRecorded now drawn sale recorder db db') : catalogue db' = catalogue db := by
  cases h with
  | voided existing stored own gone same => rw [same]
  | new unknown writable written => exact (catalogue_written written).trans rfl
  | again existing stored own live may writable written =>
    rw [catalogue_written written]
    exact catalogue_undoSale db

end Sales

/-- The log is no part of the catalogue. -/
theorem catalogue_sameRows {db db' : Db} (h : SameRows db db') : catalogue db' = catalogue db := by
  rw [h]
  rfl

/-- A movement that brings no cost moves nothing but stock. -/
theorem catalogued_moved (now : Timestamp) (delta : Quantity) (p : Product) :
    catalogued (movedProduct now delta 0 p) = catalogued p := by
  simp [catalogued, movedProduct]

/-- Rows through which somebody without profit access writes the catalogue:
saved products and removals of products. -/
def Catalogues : PushRow → Prop
  | .product _ => True
  | .deletion request => request.entity = "product"
  | _ => False

/-- Any other row of somebody without profit access leaves the catalogue
alone. -/
theorem catalogue_apply {now : Timestamp} {storeId : Uuid} {actor : Actor} {row : PushRow}
    {db db' : Db} {id : Option Uuid} (hblind : actor.can .viewProfit = false)
    (hrow : ¬Catalogues row) (h : row.apply now storeId actor db = .ok (id, db')) :
    catalogue db' = catalogue db := by
  cases effect_of_apply h with
  | saved may priced upserted coded effect => exact absurd trivial hrow
  | sold asked recorded effect => rw [catalogue_sameRows effect, catalogue_recorded recorded]
  | movedBefore may => rfl
  | moved may ofStore product cost kind listed unknown effect =>
    rw [catalogue_sameRows effect, catalogue, catalogue, Table.mapRows_put, cost hblind,
      catalogued_moved]
    exact Table.put_eq_self (by rw [Table.find?_mapRows, (find_eq_some.mp listed).1,
      Option.map_some])
  | spent may named category upserted effect => exact (catalogue_sameRows effect).trans rfl
  | withdrawn may named upserted effect => exact (catalogue_sameRows effect).trans rfl
  | nothing => rfl
  | voided entity may live effect =>
    rw [catalogue_sameRows effect, catalogue_undoSale]
    rfl
  | unspent entity may live effect => exact (catalogue_sameRows effect).trans rfl
  | unwithdrawn entity may live effect => exact (catalogue_sameRows effect).trans rfl
  | unlisted entity may live effect => exact absurd entity hrow

end Kitaza.Catalogue
