import Kitaza.DecimalRange

/-!
# The columns a sale's transaction passes through

The database checks a column when a statement writes it, not when the
transaction ends: a stock that is given back and taken again has to fit in
between. A sale's transaction goes through exactly when its header, its lines,
and every stock after giving back and after each deduction fit their columns.
-/

namespace Kitaza.StockColumns

open KeyedTable Primitives Access Schema Payloads SaleRepository SaleService SaleEffects RowEffects
  DecimalRange

/-- The figures of a line fit the columns they are stored in. -/
def LineFits (line : PreparedLine) : Prop :=
  ¬ (QuantityOverflows line.quantity ∨ MoneyOverflows line.unitPrice ∨
    MoneyOverflows line.unitCost ∨ MoneyOverflows line.lineTotal)

/-- So do those of a sale's header. -/
def HeaderFits (sale : PreparedSale) : Prop :=
  ¬ (MoneyOverflows sale.totalAmount ∨ MoneyOverflows (numericMoney sale.costAmount) ∨
    MoneyOverflows sale.discountAmount)

/-- Every stock on hand fits its column. -/
def StocksFit (products : Table Uuid Product) : Prop :=
  ¬ products.Any fun _ p => QuantityOverflows p.stockQuantity

/-- A rewriting that changes no figure of a product but its stock. -/
structure StockOnly (f : Uuid → Product → Product) : Prop where
  /-- The cost stays. -/
  cost : ∀ id p, (f id p).costPrice = p.costPrice
  /-- So does the price. -/
  price : ∀ id p, (f id p).sellingPrice = p.sellingPrice
  /-- And the reorder level. -/
  reorder : ∀ id p, (f id p).reorderLevel = p.reorderLevel

theorem stockOnly_restored (joins : JoinRule) (now : Timestamp) (saleId storeId : Uuid)
    (saleItems : Table Uuid SaleItem) : StockOnly (restored joins now saleId storeId saleItems) := by
  constructor
  all_goals
    intro id p
    unfold restored
    cases joinedLine joins now saleId id saleItems with
    | none => rfl
    | some item =>
      dsimp only
      split_ifs <;> rfl

theorem stockOnly_deducted (now : Timestamp) (storeId : Uuid) (lines : List PreparedLine) :
    StockOnly (deducted now storeId lines) := by
  constructor
  all_goals
    intro id p
    unfold deducted
    split_ifs <;> rfl

/-- Of such a rewriting only the stocks have to be looked at. -/
theorem fits_mapRows {f : Uuid → Product → Product} (hf : StockOnly f) {db : Db} (h : Fits db) :
    Fits { db with products := db.products.mapRows f } ↔ StocksFit (db.products.mapRows f) := by
  have hproducts := Table.not_any.mp h.products
  constructor
  · intro hfits hany
    apply hfits.products
    obtain ⟨k, r, hr, hover⟩ := hany
    exact ⟨k, r, hr, Or.inr (Or.inr (Or.inl hover))⟩
  · intro hstocks
    refine ⟨?_, h.sales, h.saleItems, h.stockMovements, h.expenses, h.ownerWithdrawals⟩
    rw [Table.any_mapRows]
    rintro ⟨k, r, hr, hover⟩
    rw [hf.cost, hf.price, hf.reorder] at hover
    rcases hover with hcost | hprice | hstock | hreorder
    · exact hproducts k r hr (Or.inl hcost)
    · exact hproducts k r hr (Or.inr (Or.inl hprice))
    · exact hstocks (Table.any_mapRows.mpr ⟨k, r, hr, hstock⟩)
    · exact hproducts k r hr (Or.inr (Or.inr (Or.inr hreorder)))

/-- What is only added to the log changes nothing. -/
theorem Fits.of_sameRows {db db' : Db} (h : SameRows db db') : Fits db' ↔ Fits db := by
  rw [h]
  exact ⟨fun ⟨h₁, h₂, h₃, h₄, h₅, h₆⟩ => ⟨h₁, h₂, h₃, h₄, h₅, h₆⟩,
    fun ⟨h₁, h₂, h₃, h₄, h₅, h₆⟩ => ⟨h₁, h₂, h₃, h₄, h₅, h₆⟩⟩

/-- A line inserted where its identifier is free. -/
theorem fits_insertItem {saleId : Uuid} {line : PreparedLine} {db db' : Db} (h : Fits db)
    (hok : insertItem saleId line db = .ok db') : Fits db' ↔ LineFits line := by
  obtain ⟨-, -, rfl⟩ := insertItem_eq_ok.mp hok
  have hitems := Table.not_any.mp h.saleItems
  constructor
  · intro hfits
    exact (Table.not_any_put.mp hfits.saleItems).1
  · intro hline
    exact ⟨h.products, h.sales, Table.not_any_put.mpr ⟨hline, fun j s _ hs => hitems j s hs⟩,
      h.stockMovements, h.expenses, h.ownerWithdrawals⟩

/-- The ledger row of a line fits as the line does. -/
theorem fits_insertMovement {now : Timestamp} {id productId : Uuid} {sale : PreparedSale}
    {line : PreparedLine} {db db' : Db} (h : Fits db) (hline : LineFits line)
    (hok : insertMovement id (saleMovement now sale line productId) db = .ok db') : Fits db' := by
  obtain ⟨-, -, rfl⟩ := insertMovement_eq_ok.mp hok
  have hmovements := Table.not_any.mp h.stockMovements
  refine ⟨h.products, h.sales, h.saleItems, Table.not_any_put.mpr ⟨?_, fun j s _ hs =>
    hmovements j s hs⟩, h.expenses, h.ownerWithdrawals⟩
  rintro (hquantity | hcost)
  · apply hline
    rw [QuantityOverflows, saleMovement, abs_neg] at hquantity
    exact Or.inl hquantity
  · exact hline (Or.inr (Or.inr (Or.inl hcost)))

/-- Taking one line's stock. -/
theorem deductStock_eq (now : Timestamp) {storeId productId : Uuid} {line : PreparedLine}
    (hp : line.productId = some productId) (db : Db) :
    deductStock now storeId productId line.quantity db =
      { db with products := db.products.mapRows (deducted now storeId [line]) } := by
  have hrow : (fun (id : Uuid) (p : Product) => if id = productId ∧ p.storeId = storeId then
      { p with stockQuantity := p.stockQuantity - line.quantity, updatedAt := now } else p) =
      deducted now storeId [line] := by
    funext id p
    have hnames : Names [line] id ↔ id = productId := by
      simp [Names, hp, eq_comm]
    by_cases hid : id = productId
    · subst hid
      by_cases hs : p.storeId = storeId
      · simp [deducted, hs, hnames, takenBy, hp]
      · simp [deducted, hs]
    · simp [deducted, hid, hnames]
  rw [deductStock, hrow]

/-- Nothing is taken by a line that names no product. -/
theorem deducted_quick (now : Timestamp) (storeId : Uuid) {line : PreparedLine}
    (hp : line.productId = none) (rest : List PreparedLine) :
    deducted now storeId (line :: rest) = deducted now storeId rest := by
  funext id p
  have hone : deducted now storeId [line] id p = p := by
    apply deducted_of_not_names
    rintro ⟨l, hl, hname⟩
    obtain rfl := List.mem_singleton.mp hl
    cases hp.symm.trans hname
  rw [← List.singleton_append, ← deducted_append, hone]

section Lines

variable {now : Timestamp} {drawn : ℕ → Uuid} {sale : PreparedSale}

/-- Taking the first line's stock, then that of the others. -/
theorem mapRows_deducted (products : Table Uuid Product) (line : PreparedLine)
    (rest : List PreparedLine) :
    (products.mapRows (deducted now sale.storeId [line])).mapRows
        (deducted now sale.storeId rest) =
      products.mapRows (deducted now sale.storeId (line :: rest)) := by
  apply Table.ext_find?
  intro k
  simp only [Table.find?_mapRows, Option.map_map]
  congr 1
  funext p
  exact deducted_append now sale.storeId [line] rest k p

theorem stocksFit_nil {db : Db} (h : Fits db) (lines : List PreparedLine) :
    StocksFit (db.products.mapRows (deducted now sale.storeId (lines.take 0))) := by
  rintro ⟨k, r, hr, hover⟩
  rw [Table.find?_mapRows, Option.map_eq_some_iff] at hr
  obtain ⟨p, hp, rfl⟩ := hr
  rw [List.take_zero, deducted_of_not_names _ _ (by simp [Names])] at hover
  exact Table.not_any.mp h.products k p hp (Or.inr (Or.inr (Or.inl hover)))

/-- Every statement of a sale's lines leaves figures that fit exactly when the
lines fit, and every stock after each of them does; and then so do those they
leave in the end. -/
theorem lineStates_fit {lines : List PreparedLine} {i : ℕ} {db db' : Db} (h : Fits db)
    (hok : recordLines now drawn sale lines i db = .ok db') :
    ((∀ d ∈ lineStates now drawn sale lines i db, Fits d) ↔ (∀ line ∈ lines, LineFits line) ∧
      ∀ k, StocksFit (db.products.mapRows (deducted now sale.storeId (lines.take k)))) ∧
    ((∀ d ∈ lineStates now drawn sale lines i db, Fits d) → Fits db') := by
  induction lines generalizing i db with
  | nil =>
    cases hok
    refine ⟨?_, fun _ => h⟩
    simp only [lineStates, List.not_mem_nil, false_imp_iff, implies_true, List.take_nil, true_and,
      true_iff]
    exact fun _ => stocksFit_nil h []
  | cons line rest ih =>
    obtain ⟨db₁, hline, hrest⟩ := bind_eq_ok.mp hok
    obtain ⟨dbᵢ, hitem, hline⟩ := bind_eq_ok.mp hline
    have hinserted := fits_insertItem h hitem
    have hproducts : dbᵢ.products = db.products := by
      obtain ⟨-, -, rfl⟩ := insertItem_eq_ok.mp hitem
      rfl
    cases hp : line.productId with
    | none =>
      rw [hp] at hline
      obtain rfl : dbᵢ = db₁ := Except.ok.inj hline
      have hstates : lineStates now drawn sale (line :: rest) i db =
          dbᵢ :: lineStates now drawn sale rest (i + 1) dbᵢ := by
        simp only [lineStates, hitem, hp]
      rw [hstates, List.forall_mem_cons, List.forall_mem_cons, hinserted, and_assoc]
      by_cases hfits : LineFits line
      · obtain ⟨hiff, hleft⟩ := ih (hinserted.mpr hfits) hrest
        refine ⟨?_, fun hall => hleft hall.2⟩
        rw [and_iff_right hfits, and_iff_right hfits, hiff, hproducts]
        refine and_congr_right fun _ => ⟨?_, ?_⟩
        · intro hstocks k
          cases k with
          | zero => exact stocksFit_nil h _
          | succ k =>
            rw [List.take_succ_cons, deducted_quick now _ hp]
            exact hstocks k
        · intro hstocks k
          have hnext := hstocks (k + 1)
          rwa [List.take_succ_cons, deducted_quick now _ hp] at hnext
      · exact ⟨by simp [hfits], fun hall => absurd hall.1 hfits⟩
    | some productId =>
      rw [hp] at hline
      dsimp only at hline
      have hstates : lineStates now drawn sale (line :: rest) i db = dbᵢ ::
          deductStock now sale.storeId productId line.quantity dbᵢ :: db₁ ::
            lineStates now drawn sale rest (i + 1) db₁ := by
        simp only [lineStates, hitem, hp, hline]
      rw [hstates]
      simp only [List.forall_mem_cons]
      rw [hinserted]
      by_cases hfits : LineFits line
      · have htaken := @deductStock_eq now sale.storeId productId line hp dbᵢ
        have hdeducted := fits_mapRows (stockOnly_deducted now sale.storeId [line])
          (hinserted.mpr hfits)
        rw [← htaken, hproducts] at hdeducted
        by_cases hstock : StocksFit (db.products.mapRows (deducted now sale.storeId [line]))
        · have hmoved := fits_insertMovement (hdeducted.mpr hstock) hfits hline
          have hmovedProducts :
              db₁.products = db.products.mapRows (deducted now sale.storeId [line]) := by
            obtain ⟨-, -, rfl⟩ := insertMovement_eq_ok.mp hline
            rw [htaken, hproducts]
          obtain ⟨hiff, hleft⟩ := ih hmoved hrest
          refine ⟨?_, fun hall => hleft hall.2.2.2⟩
          rw [and_iff_right hfits, and_iff_right hfits, and_iff_right (hdeducted.mpr hstock),
            and_iff_right hmoved, hiff, hmovedProducts]
          refine and_congr_right fun _ => ⟨?_, ?_⟩
          · intro hstocks k
            cases k with
            | zero => exact stocksFit_nil h _
            | succ k =>
              rw [List.take_succ_cons, ← mapRows_deducted]
              exact hstocks k
          · intro hstocks k
            rw [mapRows_deducted]
            exact hstocks (k + 1)
        · refine ⟨⟨fun hall => absurd (hdeducted.mp hall.2.1) hstock, fun hall => ?_⟩,
            fun hall => absurd (hdeducted.mp hall.2.1) hstock⟩
          exact absurd (hall.2 1) hstock
      · exact ⟨by simp [hfits], fun hall => absurd hall.1 hfits⟩

end Lines

/-- Retiring the ledger rows changes no figure. -/
theorem fits_undoSale {now : Timestamp} {saleId storeId : Uuid} {db : Db} (h : Fits db) :
    Fits (undoSale now saleId storeId db) ↔ Fits (restoreStockFor now saleId storeId db) := by
  constructor
  · exact fun hf => ⟨hf.products, h.sales, h.saleItems, h.stockMovements, h.expenses,
      h.ownerWithdrawals⟩
  · intro hf
    refine ⟨hf.products, h.sales, h.saleItems, ?_, h.expenses, h.ownerWithdrawals⟩
    change ¬ (db.stockMovements.mapRows _).Any _
    rw [Table.any_mapRows]
    rintro ⟨k, m, hm, hover⟩
    apply Table.not_any.mp h.stockMovements k m hm
    unfold retired at hover
    split_ifs at hover <;> exact hover

theorem fits_upsertSale {now : Timestamp} {staffId : Option Uuid} {sale : PreparedSale}
    {existing : Sale} {db : Db} (h : Fits db) (hfound : db.sales.find? sale.id = some existing) :
    Fits (upsertSale now sale staffId db) ↔ HeaderFits sale := by
  have hrow : (upsertSale now sale staffId db).sales = db.sales.put sale.id
      (upsertedSale now sale staffId (some existing)) := by
    rw [← hfound]
    rfl
  constructor
  · intro hf
    have hsales := hf.sales
    rw [hrow] at hsales
    exact (Table.not_any_put.mp hsales).1
  · intro hheader
    refine ⟨h.products, ?_, h.saleItems, h.stockMovements, h.expenses, h.ownerWithdrawals⟩
    rw [hrow]
    exact Table.not_any_put.mpr ⟨hheader, fun j s _ hs => Table.not_any.mp h.sales j s hs⟩

theorem fits_deleteItems (saleId : Uuid) {db : Db} (h : Fits db) :
    Fits (deleteItems saleId db) := by
  refine ⟨h.products, h.sales, ?_, h.stockMovements, h.expenses, h.ownerWithdrawals⟩
  rintro ⟨k, item, hitem, hover⟩
  exact Table.not_any.mp h.saleItems k item (Table.find?_filter_eq_some.mp hitem).1 hover

/-- Writing a sale again, its earlier effect undone: every statement leaves
figures that fit, and so does the last, exactly when the header and the lines
fit, and every stock after giving back and after each line. -/
theorem saleStates_fit {now : Timestamp} {drawn : ℕ → Uuid} {sale : PreparedSale}
    {recorder : Recorder} {db db' : Db} {recorded : RecordedSale} {existing : Sale}
    (h : Fits db) (hfound : db.sales.find? sale.id = some existing)
    (hlive : existing.deletedAt = none)
    (hok : SaleRepository.record now drawn sale recorder db = .ok (recorded, db')) :
    (∀ d ∈ saleStates now drawn sale recorder db, Fits d) ∧ Fits db' ↔
      HeaderFits sale ∧ (∀ line ∈ sale.lines, LineFits line) ∧
        ∀ k, StocksFit ((undoSale now sale.id sale.storeId db).products.mapRows
          (deducted now sale.storeId (sale.lines.take k))) := by
  simp only [SaleRepository.record, hfound] at hok
  split_ifs at hok with hstore hgone hother
  · rw [hlive] at hgone
    cases hgone
  obtain ⟨db₁, hlines, hdone⟩ := bind_eq_ok.mp hok
  cases hdone
  have hstates : saleStates now drawn sale recorder db =
      restoreStockFor now sale.id sale.storeId db :: undoSale now sale.id sale.storeId db ::
        writeStates now drawn sale recorder (undoSale now sale.id sale.storeId db) := by
    simp only [saleStates, hfound]
    rw [if_neg hstore, if_neg hgone, if_neg hother]
  rw [hstates, writeStates]
  simp only [List.forall_mem_cons]
  have hrestored := fits_mapRows (stockOnly_restored db.joins now sale.id sale.storeId db.saleItems) h
  have hundone := @fits_undoSale now sale.id sale.storeId db h
  rw [hundone]
  by_cases hstock : Fits (restoreStockFor now sale.id sale.storeId db)
  · have hback := hundone.mpr hstock
    have hsale : (undoSale now sale.id sale.storeId db).sales.find? sale.id = some existing := hfound
    have hheader := @fits_upsertSale now recorder.staffId sale existing _ hback hsale
    rw [and_iff_right hstock, and_iff_right hstock, hheader]
    by_cases hfits : HeaderFits sale
    · have hcleared := fits_deleteItems sale.id (hheader.mpr hfits)
      obtain ⟨hiff, hleft⟩ := lineStates_fit hcleared hlines
      rw [and_iff_right hfits, and_iff_right hfits, and_iff_right hcleared, hiff]
      constructor
      · exact fun hall => hall.1
      · exact fun hall => ⟨hall, hleft (hiff.mpr hall)⟩
    · simp [hfits]
  · refine ⟨fun hall => absurd hall.1.1 hstock, fun hall => absurd ?_ hstock⟩
    refine hrestored.mpr ?_
    have hnone := hall.2.2 0
    rw [StocksFit, Table.any_mapRows] at hnone
    rintro ⟨k, r, hr, hover⟩
    refine hnone ⟨k, r, hr, ?_⟩
    dsimp only
    rw [List.take_zero, deducted_of_not_names _ _ (by simp [Names])]
    exact hover

end Kitaza.StockColumns
