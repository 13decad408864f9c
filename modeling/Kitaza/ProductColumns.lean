import Kitaza.DecimalRange

/-!
# The columns a product's save writes

The row a save asks to insert is cut to its columns before the database looks
for one to update instead, so its opening stock has to fit even where a product
has its stock already.
-/

namespace Kitaza.ProductColumns

open KeyedTable Primitives Access Schema ProductService
open DecimalRange (Fits MoneyOverflows QuantityOverflows insertedProduct)

/-- The figures of a save fit their columns. -/
structure ValuesFit (values : ProductValues) : Prop where
  /-- The cost. -/
  cost : ¬ MoneyOverflows values.costPrice
  /-- The price. -/
  price : ¬ MoneyOverflows values.sellingPrice
  /-- The opening stock. -/
  stock : ¬ QuantityOverflows values.openingStock
  /-- The reorder level. -/
  reorderLevel : ¬ QuantityOverflows values.reorderLevel

theorem empty_fits : Fits Db.empty := DecimalRange.unused.2

/-- A product's row fits with the rest when its own figures do. -/
theorem fits_put_iff {db : Db} (h : Fits db) {id : Uuid} {row : Product} :
    Fits { db with products := db.products.put id row } ↔
      ¬ (MoneyOverflows row.costPrice ∨ MoneyOverflows row.sellingPrice ∨
        QuantityOverflows row.stockQuantity ∨ QuantityOverflows row.reorderLevel) := by
  constructor
  · intro hfits hwide
    exact hfits.products ⟨id, row, Table.find?_put_self _ _ _, hwide⟩
  · intro hrow
    refine ⟨?_, h.sales, h.saleItems, h.stockMovements, h.expenses, h.ownerWithdrawals⟩
    rintro ⟨k, p, hp, hwide⟩
    rw [Table.find?_put] at hp
    split_ifs at hp
    · cases hp
      exact hrow hwide
    · exact h.products ⟨k, p, hp, hwide⟩

/-- The log takes no column of figures. -/
theorem fits_recordAudit? {now : Timestamp} {actor : Actor} {entry : Option AuditEntry} {db : Db} :
    Fits (recordAudit? now actor entry db) ↔ Fits db := by
  constructor
  · intro h
    exact ⟨by simpa using h.products, by simpa using h.sales, by simpa using h.saleItems,
      by simpa using h.stockMovements, by simpa using h.expenses, by simpa using h.ownerWithdrawals⟩
  · intro h
    exact ⟨by simpa using h.products, by simpa using h.sales, by simpa using h.saleItems,
      by simpa using h.stockMovements, by simpa using h.expenses, by simpa using h.ownerWithdrawals⟩

/-- The stock a save leaves is the product's, or the opening stock. -/
theorem figures_of_upsertRow {now : Timestamp} {storeId : Uuid} {values : ProductValues}
    {existing : Option Product} {row : Product}
    (h : upsertRow now storeId values existing = some row) :
    row.costPrice = values.costPrice ∧ row.sellingPrice = values.sellingPrice ∧
      row.reorderLevel = values.reorderLevel ∧
      row.stockQuantity = existing.elim values.openingStock Product.stockQuantity := by
  cases existing with
  | none =>
    cases h
    exact ⟨rfl, rfl, rfl, rfl⟩
  | some p =>
    dsimp only [upsertRow] at h
    split_ifs at h
    cases h
    exact ⟨rfl, rfl, rfl, rfl⟩

/-- The row a save asks to insert fits exactly when its figures do. -/
theorem insertedProduct_fits_iff {now : Timestamp} {storeId id : Uuid} {values : ProductValues} :
    (∀ d ∈ insertedProduct now storeId id values, Fits d) ↔ ValuesFit values := by
  simp only [insertedProduct, upsertRow, Option.toList_some, List.map_cons, List.map_nil,
    List.forall_mem_singleton]
  rw [show (Table.empty : Table Uuid Product) = Db.empty.products from rfl,
    fits_put_iff empty_fits]
  simp only [not_or]
  exact ⟨fun ⟨h₁, h₂, h₃, h₄⟩ => ⟨h₁, h₂, h₃, h₄⟩,
    fun h => ⟨h.cost, h.price, h.stock, h.reorderLevel⟩⟩

/-- The row it leaves has them, or the stock the product had. -/
theorem fits_upserted {now : Timestamp} {storeId id : Uuid} {values : ProductValues}
    {row : Product} {db : Db} (h : Fits db)
    (hrow : upsertRow now storeId values (db.products.find? id) = some row)
    (hvalues : ValuesFit values) : Fits { db with products := db.products.put id row } := by
  obtain ⟨hcost, hprice, hlevel, hstock⟩ := figures_of_upsertRow hrow
  have hstockFits : ¬ QuantityOverflows row.stockQuantity := by
    rw [hstock]
    cases hp : db.products.find? id with
    | none => exact hvalues.stock
    | some p => exact fun hwide => h.products ⟨_, p, hp, Or.inr (Or.inr (Or.inl hwide))⟩
  rw [fits_put_iff h, hcost, hprice, hlevel]
  rintro (hwide | hwide | hwide | hwide)
  · exact hvalues.cost hwide
  · exact hvalues.price hwide
  · exact hstockFits hwide
  · exact hvalues.reorderLevel hwide

end Kitaza.ProductColumns
