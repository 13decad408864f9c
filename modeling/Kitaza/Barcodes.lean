import Kitaza.Catalogue
import Kitaza.ProductColumns

/-!
# Barcodes

A barcode is looked up among the live products of a store, but the index that
keeps it unique covers the removed ones as well. Two live products never share
a barcode; and a save under a barcode no live product has goes through exactly
when no removed product has it either and its figures fit their columns.
-/

namespace Kitaza.Barcodes

open KeyedTable Primitives Access Schema Payloads ProductService Catalogue SyncPush ProductColumns
open DecimalRange (StoredDb Fits MoneyOverflows QuantityOverflows result stored stored_eq_ok)

/-- What changes the catalogue. -/
inductive Command where
  | save (storeId : Uuid) (actor : Actor) (request : SaveProductRequest)
  | remove (storeId : Uuid) (actor : Actor) (productId : Uuid)

/-- Carry out a command. -/
def perform (now : Timestamp) : Command → StoredDb → Except ApiError StoredDb
  | .save storeId actor request, db =>
    (result now storeId actor (.product request) db).map Prod.snd
  | .remove storeId actor productId, db =>
    (stored [] ((remove now storeId actor productId db.1).map fun db => ((), db))).map Prod.snd

/-- The database after a command; one that fails leaves it alone. -/
def apply (db : StoredDb) (sent : Timestamp × Command) : StoredDb :=
  match perform sent.1 sent.2 db with
  | .ok db' => db'
  | .error _ => db

/-- The database after a run of saves and removals. -/
def run (commands : List (Timestamp × Command)) : StoredDb :=
  commands.foldl apply DecimalRange.unused

section

variable (storeId id : Uuid) (barcode : Option String) (products : Table Uuid Product)

/-- Another live product of the store has the barcode. -/
def HeldByLive : Prop :=
  products.Any fun k p => k ≠ id ∧ p.storeId = storeId ∧ p.deletedAt = none ∧ p.barcode.isSome ∧
    p.barcode = barcode

/-- Another product of the store has the barcode, and was removed. -/
def HeldByRemoved : Prop :=
  products.Any fun k p => k ≠ id ∧ p.storeId = storeId ∧ p.deletedAt.isSome ∧ p.barcode.isSome ∧
    p.barcode = barcode

instance : Decidable (HeldByLive storeId id barcode products) :=
  inferInstanceAs (Decidable (products.Any _))

instance : Decidable (HeldByRemoved storeId id barcode products) :=
  inferInstanceAs (Decidable (products.Any _))

end

/-- The index does not ask whether a product was removed. -/
theorem barcodeTaken_iff {storeId id : Uuid} {barcode : Option String}
    {products : Table Uuid Product} : BarcodeTaken storeId id barcode products ↔
      HeldByLive storeId id barcode products ∨ HeldByRemoved storeId id barcode products := by
  constructor
  · rintro ⟨k, p, hp, hne, hstore, hsome, hcode⟩
    cases hd : p.deletedAt with
    | none => exact Or.inl ⟨k, p, hp, hne, hstore, hd, hsome, hcode⟩
    | some removed => exact Or.inr ⟨k, p, hp, hne, hstore, by rw [hd]; rfl, hsome, hcode⟩
  · rintro (⟨k, p, hp, hne, hstore, -, hsome, hcode⟩ | ⟨k, p, hp, hne, hstore, -, hsome, hcode⟩)
    · exact ⟨k, p, hp, hne, hstore, hsome, hcode⟩
    · exact ⟨k, p, hp, hne, hstore, hsome, hcode⟩

/-- A save nothing speaks against: the actor may make it, the product does not
lose money, its identifier is new or the store's, and no other live product of
the store has its barcode. -/
structure Sound (storeId : Uuid) (actor : Actor) (request : SaveProductRequest) (db : Db) :
    Prop where
  /-- The actor may make it. -/
  can : actor.can .manageProducts = true
  /-- The product does not lose money. -/
  priced : (savedCost actor request (find storeId (savedId request db) db)) ≤
    moneyFromF64 request.sellingPrice
  /-- The identifier is new or the store's. -/
  own : ∀ p, db.products.find? (savedId request db) = some p → p.storeId = storeId
  /-- No other live product has the barcode. -/
  free : ¬ HeldByLive storeId (savedId request db) (trimmed request.barcode) db.products

/-- The figures of a save fit their columns. -/
structure FiguresFit (storeId : Uuid) (actor : Actor) (request : SaveProductRequest) (db : Db) :
    Prop where
  /-- The cost it stores. -/
  cost : ¬ MoneyOverflows (savedCost actor request (find storeId (savedId request db) db))
  /-- The price. -/
  price : ¬ MoneyOverflows (moneyFromF64 request.sellingPrice)
  /-- The opening stock, which an insert carries even for a product that has stock. -/
  stock : ¬ QuantityOverflows (quantityFromF64 request.openingStock)
  /-- The reorder level. -/
  reorderLevel : ¬ QuantityOverflows (quantityFromF64 request.reorderLevel)

section

variable {storeId : Uuid} {actor : Actor} {request : SaveProductRequest}

/-- What the insert of a sound save brings fits exactly when its figures do. -/
theorem passed_fits_iff {db : Db} (h : Sound storeId actor request db) (now : Timestamp) :
    (∀ d ∈ DecimalRange.passed now storeId actor (.product request) db, Fits d) ↔
      FiguresFit storeId actor request db := by
  have hreach : actor.can .manageProducts = true ∧
      ¬ (savedValues actor request (find storeId (savedId request db) db)).sellingPrice <
        (savedValues actor request (find storeId (savedId request db) db)).costPrice :=
    ⟨h.can, not_lt.mpr h.priced⟩
  simp only [DecimalRange.passed, DecimalRange.inserted, if_pos hreach]
  rw [insertedProduct_fits_iff]
  exact ⟨fun h => ⟨h.cost, h.price, h.stock, h.reorderLevel⟩,
    fun h => ⟨h.cost, h.price, h.stock, h.reorderLevel⟩⟩

/-- Such a save is refused only over a product that was removed, or for a
figure wider than its column. -/
theorem save_iff {db : StoredDb} (h : Sound storeId actor request db.1) (now : Timestamp) :
    (∃ saved, result now storeId actor (.product request) db = .ok saved) ↔
      ¬ HeldByRemoved storeId (savedId request db.1) (trimmed request.barcode) db.1.products ∧
        FiguresFit storeId actor request db.1 := by
  rw [← passed_fits_iff h now]
  constructor
  · rintro ⟨⟨id, db'⟩, hresult⟩
    obtain ⟨hpassed, hrow⟩ := stored_eq_ok.mp hresult
    obtain ⟨⟨saved, db₁⟩, hsave, -⟩ := map_eq_ok.mp hrow
    obtain ⟨-, -, row, hrow, hfree, -, -⟩ := save_eq_ok.mp hsave
    rw [(upsertRow_eq_some hrow).barcode] at hfree
    exact ⟨fun hremoved => hfree (barcodeTaken_iff.mpr (Or.inr hremoved)), hpassed⟩
  · rintro ⟨hremoved, hpassed⟩
    have hfigures := (passed_fits_iff h now).mp hpassed
    have hfree := mt barcodeTaken_iff.mp (not_or.mpr ⟨h.free, hremoved⟩)
    obtain ⟨row, hrow⟩ : ∃ row, upsertRow now storeId
        (savedValues actor request (find storeId (savedId request db.1) db.1))
        (db.1.products.find? (savedId request db.1)) = some row := by
      cases hp : db.1.products.find? (savedId request db.1) with
      | none => exact ⟨_, rfl⟩
      | some p => exact ⟨_, if_pos (h.own p hp)⟩
    have hcoded : ¬ BarcodeTaken storeId (savedId request db.1) row.barcode db.1.products := by
      rw [(upsertRow_eq_some hrow).barcode]
      exact hfree
    obtain ⟨entry, hsave⟩ : ∃ entry, save now storeId actor request db.1 =
        .ok ((savedId request db.1, row), recordAudit? now actor entry
          { db.1 with products := db.1.products.put (savedId request db.1) row }) :=
      ⟨_, save_eq_ok.mpr ⟨h.can, not_lt.mpr h.priced, row, hrow, hcoded, rfl, rfl⟩⟩
    have hfits : Fits { db.1 with products := db.1.products.put (savedId request db.1) row } :=
      fits_upserted db.2 hrow ⟨hfigures.cost, hfigures.price, hfigures.stock, hfigures.reorderLevel⟩
    refine ⟨⟨some (savedId request db.1), ⟨recordAudit? now actor entry _,
      fits_recordAudit?.mpr hfits⟩⟩, stored_eq_ok.mpr ⟨hpassed, ?_⟩⟩
    exact map_eq_ok.mpr ⟨_, hsave, rfl⟩

end

/-- No two products of a store have the same barcode. -/
def Unique (products : Table Uuid Product) : Prop :=
  ∀ id p, products.find? id = some p → ¬ BarcodeTaken p.storeId id p.barcode products

/-- No two live products of a store have the same barcode. -/
def UniqueAmongLive (products : Table Uuid Product) : Prop :=
  ∀ id p, products.find? id = some p → p.deletedAt = none →
    ¬ HeldByLive p.storeId id p.barcode products

theorem Unique.live {products : Table Uuid Product} (h : Unique products) :
    UniqueAmongLive products := fun id p hp _ hlive =>
  h id p hp (barcodeTaken_iff.mpr (Or.inl hlive))

/-- Writing a row whose barcode is free keeps barcodes unique. -/
theorem Unique.put {products : Table Uuid Product} (h : Unique products) {id : Uuid}
    {row : Product} (hfree : ¬ BarcodeTaken row.storeId id row.barcode products) :
    Unique (products.put id row) := by
  rintro k p hp ⟨k', p', hp', hne, hstore, hsome, hcode⟩
  by_cases hk : k = id
  · subst hk
    rw [Table.find?_put_self] at hp
    cases hp
    rw [Table.find?_put_ne _ _ hne] at hp'
    exact hfree ⟨k', p', hp', hne, hstore, hsome, hcode⟩
  · rw [Table.find?_put_ne _ _ hk] at hp
    by_cases hk' : k' = id
    · subst hk'
      rw [Table.find?_put_self] at hp'
      cases hp'
      exact hfree ⟨k, p, hp, hk, hstore.symm, hcode ▸ hsome, hcode.symm⟩
    · rw [Table.find?_put_ne _ _ hk'] at hp'
      exact h k p hp ⟨k', p', hp', hne, hstore, hsome, hcode⟩

/-- A product that is removed keeps its place in the index. -/
theorem Unique.softDelete {now : Timestamp} {storeId productId : Uuid} {db db' : Db}
    {name : String} (h : Unique db.products)
    (hd : ProductService.softDelete now storeId productId db = some (name, db')) :
    Unique db'.products := by
  rw [ProductService.softDelete, Option.map_eq_some_iff] at hd
  obtain ⟨p, hp, hd⟩ := hd
  cases hd
  exact h.put (h productId p (find_eq_some.mp hp).1)

/-- Every command keeps barcodes unique. -/
theorem unique_perform {now : Timestamp} {command : Command} {db db' : StoredDb}
    (h : Unique db.1.products) (hok : perform now command db = .ok db') :
    Unique db'.1.products := by
  cases command with
  | save storeId actor request =>
    obtain ⟨⟨id, db₁⟩, hresult, rfl⟩ := map_eq_ok.mp hok
    obtain ⟨⟨saved, db₂⟩, hsave, hsame⟩ := map_eq_ok.mp (stored_eq_ok.mp hresult).2
    obtain ⟨-, -, row, hrow, hfree, -, hdb⟩ := save_eq_ok.mp hsave
    have hstore := (upsertRow_eq_some hrow).ofStore
    have hleft : db₁.1 = db₂ := (congrArg Prod.snd hsame).symm
    rw [hleft, hdb, recordAudit?_products]
    exact h.put (hstore.symm ▸ hfree)
  | remove storeId actor productId =>
    obtain ⟨⟨_, db₁⟩, hresult, rfl⟩ := map_eq_ok.mp hok
    obtain ⟨db₂, hremove, hsame⟩ := map_eq_ok.mp (stored_eq_ok.mp hresult).2
    have hleft : db₁.1 = db₂ := (congrArg Prod.snd hsame).symm
    unfold remove at hremove
    obtain ⟨_, -, hremove⟩ := bind_eq_ok.mp hremove
    cases hd : ProductService.softDelete now storeId productId db.1 with
    | none =>
      rw [hd] at hremove
      cases hremove
    | some removed =>
      have hkept : Unique removed.2.products := h.softDelete hd
      rw [hd] at hremove
      cases hremove
      rw [hleft]
      exact hkept

theorem unique_apply {db : StoredDb} (h : Unique db.1.products) (sent : Timestamp × Command) :
    Unique (apply db sent).1.products := by
  rw [apply]
  cases hok : perform sent.1 sent.2 db with
  | ok db' => exact unique_perform h hok
  | error e => exact h

/-- So does every run. -/
theorem unique_run (commands : List (Timestamp × Command)) :
    Unique (run commands).1.products := by
  induction commands using List.reverseRecOn with
  | nil =>
    intro id p hp
    cases hp
  | append_singleton commands sent ih =>
    rw [run, List.foldl_append]
    exact unique_apply ih sent

/-- The store's owner. -/
def owner : Actor := ⟨⟨1⟩, "Ana", "phone", none⟩

/-- A product with a barcode. -/
def coded (id : Uuid) (barcode : String) : SaveProductRequest :=
  ⟨some id, "Soap", some barcode, "pcs", 10, 15, 0, 0⟩

/-- One product was saved and removed, and another saved. -/
def soapCommands : List (Timestamp × Command) :=
  [(1, .save ⟨4⟩ owner (coded ⟨10⟩ "4801")), (2, .remove ⟨4⟩ owner ⟨10⟩),
    (3, .save ⟨4⟩ owner (coded ⟨12⟩ "4802"))]

/-- The database after them. -/
def soapRemoved : StoredDb := run soapCommands

/-- The new product's identifier is free. -/
theorem soapRemoved_own (barcode : String) (p : Product)
    (hp : soapRemoved.1.products.find? (savedId (coded ⟨11⟩ barcode) soapRemoved.1) = some p) :
    p.storeId = ⟨4⟩ := by
  have hfree : soapRemoved.1.products.find? ⟨11⟩ = none := by decide +kernel
  cases hfree.symm.trans hp

end Kitaza.Barcodes
