import Kitaza.Catalogue
import Kitaza.CostBlindness
import Kitaza.ProductColumns
import Kitaza.RowEffects

/-!
# The columns costs are stored in

What the statements of a row write fits its columns when it does without the
costs and the costs fit theirs. A row of somebody without profit access writes
costs that are stored already, with one exception: what a sale's lines cost
together.
-/

namespace Kitaza.CostColumns

open KeyedTable Primitives Access Schema Payloads ProductService SaleRepository SaleService
  InventoryService SyncPush CostBlindness RowEffects ProductColumns Catalogue
open DecimalRange (StoredDb Fits MoneyOverflows QuantityOverflows insertedProduct inserted passed
  lineStates writeStates saleStates)

/-- Every cost fits its column. -/
structure CostsFit (db : Db) : Prop where
  /-- Those of products. -/
  products : ¬ db.products.Any fun _ p => MoneyOverflows p.costPrice
  /-- Those of sales. -/
  sales : ¬ db.sales.Any fun _ s => MoneyOverflows s.costAmount
  /-- Those of their lines. -/
  saleItems : ¬ db.saleItems.Any fun _ i => MoneyOverflows i.unitCost
  /-- Those of stock movements. -/
  stockMovements : ¬ db.stockMovements.Any fun _ m => MoneyOverflows m.unitCost

theorem moneyOverflows_zero : ¬ MoneyOverflows 0 := by
  simp [MoneyOverflows]

/-- A database fits its columns when it does without the costs, and they do. -/
theorem fits_iff_blind {db : Db} : Fits db ↔ Fits (blind db) ∧ CostsFit db := by
  constructor
  · intro h
    refine ⟨⟨?_, ?_, ?_, ?_, h.expenses, h.ownerWithdrawals⟩, ⟨?_, ?_, ?_, ?_⟩⟩
    · refine mt Table.any_mapRows.mp ?_
      rintro ⟨k, p, hp, hover⟩
      exact h.products ⟨k, p, hp, Or.inr (hover.resolve_left moneyOverflows_zero)⟩
    · refine mt Table.any_mapRows.mp ?_
      rintro ⟨k, s, hs, htotal | hcost | hdiscount⟩
      · exact h.sales ⟨k, s, hs, Or.inl htotal⟩
      · exact moneyOverflows_zero hcost
      · exact h.sales ⟨k, s, hs, Or.inr (Or.inr hdiscount)⟩
    · refine mt Table.any_mapRows.mp ?_
      rintro ⟨k, i, hi, hquantity | hprice | hcost | htotal⟩
      · exact h.saleItems ⟨k, i, hi, Or.inl hquantity⟩
      · exact h.saleItems ⟨k, i, hi, Or.inr (Or.inl hprice)⟩
      · exact moneyOverflows_zero hcost
      · exact h.saleItems ⟨k, i, hi, Or.inr (Or.inr (Or.inr htotal))⟩
    · refine mt Table.any_mapRows.mp ?_
      rintro ⟨k, m, hm, hover⟩
      exact h.stockMovements ⟨k, m, hm, Or.inl (hover.resolve_right moneyOverflows_zero)⟩
    · rintro ⟨k, p, hp, hover⟩
      exact h.products ⟨k, p, hp, Or.inl hover⟩
    · rintro ⟨k, s, hs, hover⟩
      exact h.sales ⟨k, s, hs, Or.inr (Or.inl hover)⟩
    · rintro ⟨k, i, hi, hover⟩
      exact h.saleItems ⟨k, i, hi, Or.inr (Or.inr (Or.inl hover))⟩
    · rintro ⟨k, m, hm, hover⟩
      exact h.stockMovements ⟨k, m, hm, Or.inr hover⟩
  · rintro ⟨h, hcosts⟩
    refine ⟨?_, ?_, ?_, ?_, h.expenses, h.ownerWithdrawals⟩
    · rintro ⟨k, p, hp, hcost | hother⟩
      · exact hcosts.products ⟨k, p, hp, hcost⟩
      · exact h.products (Table.any_mapRows.mpr ⟨k, p, hp, Or.inr hother⟩)
    · rintro ⟨k, s, hs, htotal | hcost | hdiscount⟩
      · exact h.sales (Table.any_mapRows.mpr ⟨k, s, hs, Or.inl htotal⟩)
      · exact hcosts.sales ⟨k, s, hs, hcost⟩
      · exact h.sales (Table.any_mapRows.mpr ⟨k, s, hs, Or.inr (Or.inr hdiscount)⟩)
    · rintro ⟨k, i, hi, hquantity | hprice | hcost | htotal⟩
      · exact h.saleItems (Table.any_mapRows.mpr ⟨k, i, hi, Or.inl hquantity⟩)
      · exact h.saleItems (Table.any_mapRows.mpr ⟨k, i, hi, Or.inr (Or.inl hprice)⟩)
      · exact hcosts.saleItems ⟨k, i, hi, hcost⟩
      · exact h.saleItems (Table.any_mapRows.mpr ⟨k, i, hi, Or.inr (Or.inr (Or.inr htotal))⟩)
    · rintro ⟨k, m, hm, hquantity | hcost⟩
      · exact h.stockMovements (Table.any_mapRows.mpr ⟨k, m, hm, Or.inl hquantity⟩)
      · exact hcosts.stockMovements ⟨k, m, hm, hcost⟩

theorem Fits.costs {db : Db} (h : Fits db) : CostsFit db := (fits_iff_blind.mp h).2

/-- The log holds no costs. -/
theorem CostsFit.of_sameRows {db db' : Db} (h : SameRows db db') (hcosts : CostsFit db) :
    CostsFit db' := by
  rw [h]
  exact ⟨hcosts.products, hcosts.sales, hcosts.saleItems, hcosts.stockMovements⟩

/-- A row that is written costs what a row of the table did, or fits. -/
theorem not_any_put_of {ρ : Type} {t : Table Uuid ρ} {p : Uuid → ρ → Prop} (h : ¬ t.Any p)
    {k : Uuid} {r : ρ} (hr : ¬ p k r) : ¬ (t.put k r).Any p :=
  Table.not_any_put.mpr ⟨hr, fun j s _ hs => Table.not_any.mp h j s hs⟩

theorem not_any_mapRows_of {ρ : Type} {t : Table Uuid ρ} {p : Uuid → ρ → Prop} (h : ¬ t.Any p)
    {f : Uuid → ρ → ρ} (hf : ∀ k r, p k (f k r) → p k r) : ¬ (t.mapRows f).Any p := by
  refine mt Table.any_mapRows.mp ?_
  rintro ⟨k, r, hr, hover⟩
  exact h ⟨k, r, hr, hf k r hover⟩

section Sale

variable {now : Timestamp} {storeId saleId : Uuid} {db : Db}

/-- Giving a sale's stock back and retiring its ledger rows touches no cost. -/
theorem CostsFit.restoreStockFor (h : CostsFit db) :
    CostsFit (restoreStockFor now saleId storeId db) := by
  refine ⟨not_any_mapRows_of h.products fun id p hover => ?_, h.sales, h.saleItems,
    h.stockMovements⟩
  unfold restored at hover
  cases hjoined : joinedLine db.joins now saleId id db.saleItems with
  | none =>
    rw [hjoined] at hover
    exact hover
  | some item =>
    rw [hjoined] at hover
    dsimp only at hover
    split_ifs at hover <;> exact hover

theorem CostsFit.undoSale (h : CostsFit db) : CostsFit (undoSale now saleId storeId db) := by
  have hback : CostsFit (SaleRepository.restoreStockFor now saleId storeId db) := h.restoreStockFor
  refine ⟨hback.products, h.sales, h.saleItems,
    not_any_mapRows_of h.stockMovements fun id m hover => ?_⟩
  unfold retired at hover
  split_ifs at hover <;> exact hover

theorem upsertedSale_costAmount (sale : PreparedSale) (staffId : Option Uuid)
    (existing : Option Sale) :
    (upsertedSale now sale staffId existing).costAmount = numericMoney sale.costAmount := by
  cases existing <;> rfl

/-- The header brings the cost of the sale. -/
theorem costsFit_upsertSale (h : CostsFit db) (sale : PreparedSale) (staffId : Option Uuid) :
    CostsFit (upsertSale now sale staffId db) ↔ ¬ MoneyOverflows (numericMoney sale.costAmount) := by
  rw [← @upsertedSale_costAmount now sale staffId (db.sales.find? sale.id)]
  constructor
  · exact fun hcosts => (Table.not_any_put.mp hcosts.sales).1
  · exact fun hfits => ⟨h.products, not_any_put_of h.sales hfits, h.saleItems, h.stockMovements⟩

theorem CostsFit.deleteItems (h : CostsFit db) : CostsFit (deleteItems saleId db) := by
  refine ⟨h.products, h.sales, ?_, h.stockMovements⟩
  rintro ⟨k, item, hitem, hover⟩
  exact h.saleItems ⟨k, item, (Table.find?_filter_eq_some.mp hitem).1, hover⟩

theorem CostsFit.insertItem (h : CostsFit db) {line : PreparedLine} {db' : Db}
    (hline : ¬ MoneyOverflows line.unitCost) (hok : insertItem saleId line db = .ok db') :
    CostsFit db' := by
  obtain ⟨-, -, rfl⟩ := insertItem_eq_ok.mp hok
  exact ⟨h.products, h.sales, not_any_put_of h.saleItems hline, h.stockMovements⟩

theorem CostsFit.deductStock (h : CostsFit db) (productId : Uuid) (quantity : Quantity) :
    CostsFit (deductStock now storeId productId quantity db) := by
  refine ⟨not_any_mapRows_of h.products fun id p hover => ?_, h.sales, h.saleItems,
    h.stockMovements⟩
  split_ifs at hover <;> exact hover

theorem CostsFit.insertMovement (h : CostsFit db) {id : Uuid} {movement : StockMovement} {db' : Db}
    (hmovement : ¬ MoneyOverflows movement.unitCost)
    (hok : insertMovement id movement db = .ok db') : CostsFit db' := by
  obtain ⟨-, -, rfl⟩ := insertMovement_eq_ok.mp hok
  exact ⟨h.products, h.sales, h.saleItems, not_any_put_of h.stockMovements hmovement⟩

/-- Lines whose costs fit leave costs that do, one statement after the other. -/
theorem costsFit_lines {drawn : ℕ → Uuid} {sale : PreparedSale} {lines : List PreparedLine} {i : ℕ}
    (h : CostsFit db) (hlines : ∀ line ∈ lines, ¬ MoneyOverflows line.unitCost) :
    (∀ d ∈ lineStates now drawn sale lines i db, CostsFit d) ∧
      ∀ db', recordLines now drawn sale lines i db = .ok db' → CostsFit db' := by
  induction lines generalizing i db with
  | nil =>
    refine ⟨fun d hd => (by cases hd), fun db' hok => ?_⟩
    cases hok
    exact h
  | cons line rest ih =>
    have hline := hlines line List.mem_cons_self
    have hrest := fun other hmem => hlines other (List.mem_cons_of_mem _ hmem)
    cases hitem : SaleRepository.insertItem sale.id line db with
    | error e =>
      refine ⟨by simp [lineStates, hitem], fun db' hok => ?_⟩
      obtain ⟨_, hrecord, -⟩ := bind_eq_ok.mp hok
      obtain ⟨_, hitem', -⟩ := bind_eq_ok.mp hrecord
      cases hitem.symm.trans hitem'
    | ok inserted =>
      have hinserted := h.insertItem hline hitem
      cases hp : line.productId with
      | none =>
        obtain ⟨hstates, hleft⟩ := @ih inserted (i + 1) hinserted hrest
        refine ⟨?_, fun db' hok => hleft db' ?_⟩
        · simp only [lineStates, hitem, hp, List.forall_mem_cons]
          exact ⟨hinserted, hstates⟩
        · obtain ⟨_, hrecord, hok⟩ := bind_eq_ok.mp hok
          obtain ⟨_, hitem', hrecord⟩ := bind_eq_ok.mp hrecord
          cases hitem.symm.trans hitem'
          rw [hp] at hrecord
          cases hrecord
          exact hok
      | some productId =>
        have hdeducted := @CostsFit.deductStock now sale.storeId inserted hinserted productId
          line.quantity
        have hwritten : ∀ {db₁ : Db}, recordLine now (drawn i) sale line db = .ok db₁ →
            SaleRepository.insertMovement (drawn i) (saleMovement now sale line productId)
              (SaleRepository.deductStock now sale.storeId productId line.quantity inserted) =
                .ok db₁ := by
          intro db₁ hrecord
          obtain ⟨_, hitem', hrecord⟩ := bind_eq_ok.mp hrecord
          cases hitem.symm.trans hitem'
          rw [hp] at hrecord
          exact hrecord
        cases hmovement : SaleRepository.insertMovement (drawn i)
          (saleMovement now sale line productId)
          (SaleRepository.deductStock now sale.storeId productId line.quantity inserted) with
        | error e =>
          refine ⟨?_, fun db' hok => ?_⟩
          · simp only [lineStates, hitem, hp, hmovement, List.forall_mem_cons]
            exact ⟨hinserted, hdeducted, List.forall_mem_nil _⟩
          · obtain ⟨_, hrecord, -⟩ := bind_eq_ok.mp hok
            cases hmovement.symm.trans (hwritten hrecord)
        | ok moved =>
          have hcost : (saleMovement now sale line productId).unitCost = line.unitCost := rfl
          have hmoved := hdeducted.insertMovement (by rw [hcost]; exact hline) hmovement
          obtain ⟨hstates, hleft⟩ := @ih moved (i + 1) hmoved hrest
          refine ⟨?_, fun db' hok => hleft db' ?_⟩
          · simp only [lineStates, hitem, hp, hmovement, List.forall_mem_cons]
            exact ⟨hinserted, hdeducted, hmoved, hstates⟩
          · obtain ⟨_, hrecord, hok⟩ := bind_eq_ok.mp hok
            cases hmovement.symm.trans (hwritten hrecord)
            exact hok

/-- Without the costs, a sale's lines pass through the same states. -/
theorem lineStates_blind (drawn : ℕ → Uuid) (sale : PreparedSale) (lines : List PreparedLine)
    (i : ℕ) (db : Db) :
    lineStates now drawn (zeroPrepared sale) (lines.map zeroLine) i (blind db) =
      (lineStates now drawn sale lines i db).map blind := by
  induction lines generalizing i db with
  | nil => rfl
  | cons line rest ih =>
    have hid : (zeroPrepared sale).id = sale.id := rfl
    have hproduct : (zeroLine line).productId = line.productId := rfl
    simp only [List.map_cons, lineStates, hid, insertItem_blind, hproduct]
    cases SaleRepository.insertItem sale.id line db with
    | error e => rfl
    | ok inserted =>
      cases line.productId with
      | none => simp only [Except.map, List.map_cons, ih]
      | some productId =>
        have hmovement : saleMovement now (zeroPrepared sale) (zeroLine line) productId =
            zeroMovement (saleMovement now sale line productId) := rfl
        have hstore : (zeroPrepared sale).storeId = sale.storeId := rfl
        have hquantity : (zeroLine line).quantity = line.quantity := rfl
        simp only [Except.map, hmovement, hstore, hquantity, deductStock_blind,
          insertMovement_blind]
        cases SaleRepository.insertMovement (drawn i) (saleMovement now sale line productId)
          (SaleRepository.deductStock now sale.storeId productId line.quantity inserted) with
        | error e => rfl
        | ok moved => simp only [List.map_cons, ih]

theorem restoreStockFor_blind :
    restoreStockFor now saleId storeId (blind db) = blind (restoreStockFor now saleId storeId db) := by
  simp only [restoreStockFor, blind, Table.mapRows_mapRows, restored_blind]

theorem writeStates_blind (drawn : ℕ → Uuid) (sale : PreparedSale) (recorder : Recorder)
    (db : Db) : writeStates now drawn (zeroPrepared sale) recorder (blind db) =
      (writeStates now drawn sale recorder db).map blind := by
  have hid : (zeroPrepared sale).id = sale.id := rfl
  have hlines : (zeroPrepared sale).lines = sale.lines.map zeroLine := rfl
  simp only [writeStates, hid, hlines, upsertSale_blind, deleteItems_blind, lineStates_blind,
    List.map_cons]

/-- So does its whole transaction. -/
theorem saleStates_blind (drawn : ℕ → Uuid) (sale : PreparedSale) (recorder : Recorder) (db : Db) :
    saleStates now drawn (zeroPrepared sale) recorder (blind db) =
      (saleStates now drawn sale recorder db).map blind := by
  have hid : (zeroPrepared sale).id = sale.id := rfl
  have hstore : (zeroPrepared sale).storeId = sale.storeId := rfl
  have hfind : (blind db).sales.find? sale.id = (db.sales.find? sale.id).map zeroSale := rfl
  unfold saleStates
  rw [hid, hstore, hfind]
  cases db.sales.find? sale.id with
  | none => exact writeStates_blind drawn sale recorder db
  | some existing =>
    have hs : (zeroSale existing).storeId = existing.storeId := rfl
    have hd : (zeroSale existing).deletedAt = existing.deletedAt := rfl
    have hr : (zeroSale existing).recordedByStaffId = existing.recordedByStaffId := rfl
    dsimp only [Option.map_some]
    rw [hs, hd, hr]
    split_ifs
    · rfl
    · rfl
    · rfl
    · simp only [List.map_cons, restoreStockFor_blind, undoSale_blind, writeStates_blind]

/-- A sale the transaction writes: unknown, or live, the store's and the
sender's to change. -/
def Writes (sale : PreparedSale) (recorder : Recorder) (db : Db) : Prop :=
  ∀ existing, db.sales.find? sale.id = some existing → existing.storeId = sale.storeId ∧
    existing.deletedAt = none ∧
    (recorder.isOwner = false → existing.recordedByStaffId = recorder.staffId)

/-- What a sale that is written passes through has costs that fit exactly when
what it costs together does. -/
theorem costsFit_saleStates {drawn : ℕ → Uuid} {sale : PreparedSale} {recorder : Recorder}
    (h : CostsFit db) (hlines : ∀ line ∈ sale.lines, ¬ MoneyOverflows line.unitCost)
    (hwrites : Writes sale recorder db) :
    (∀ d ∈ saleStates now drawn sale recorder db, CostsFit d) ↔
      ¬ MoneyOverflows (numericMoney sale.costAmount) := by
  have hwrite : ∀ {d : Db}, CostsFit d →
      ((∀ state ∈ writeStates now drawn sale recorder d, CostsFit state) ↔
        ¬ MoneyOverflows (numericMoney sale.costAmount)) := by
    intro d hd
    have hheader := @costsFit_upsertSale now _ hd sale recorder.staffId
    simp only [writeStates, List.forall_mem_cons]
    constructor
    · exact fun hall => hheader.mp hall.1
    · intro hfits
      have hupserted := hheader.mpr hfits
      exact ⟨hupserted, hupserted.deleteItems, (costsFit_lines hupserted.deleteItems hlines).1⟩
  unfold saleStates
  cases hfind : db.sales.find? sale.id with
  | none => exact hwrite h
  | some existing =>
    obtain ⟨hstore, hlive, hmay⟩ := hwrites existing hfind
    dsimp only
    rw [if_neg (not_not.mpr hstore), if_neg (by simp [hlive]), if_neg fun hother =>
      hother.2 (hmay hother.1)]
    simp only [List.forall_mem_cons]
    rw [and_iff_right h.restoreStockFor, and_iff_right h.undoSale]
    exact hwrite h.undoSale

/-- A sale that is not written passes through nothing. -/
theorem saleStates_of_not_writes {drawn : ℕ → Uuid} {sale : PreparedSale} {recorder : Recorder}
    (h : ¬ Writes sale recorder db) : saleStates now drawn sale recorder db = [] := by
  unfold saleStates
  cases hfind : db.sales.find? sale.id with
  | none =>
    refine absurd (fun existing hexisting => ?_) h
    rw [hfind] at hexisting
    cases hexisting
  | some existing =>
    dsimp only
    split_ifs with hstore hgone hother
    · rfl
    · rfl
    · rfl
    · refine absurd (fun row hrow => ?_) h
      rw [hfind] at hrow
      cases hrow
      refine ⟨not_not.mp hstore, by simpa using hgone, fun hstaff => ?_⟩
      by_contra hne
      exact hother ⟨hstaff, hne⟩

end Sale

section Rows

variable {now : Timestamp} {storeId : Uuid} {actor : Actor} {a b : Db}

theorem unitCost_of_resolveLines {items : List SaleLineRequest} {i : ℕ}
    {lines : List PreparedLine} {db : Db} (hitems : ∀ item ∈ items, item.unitCost = none)
    (hcosts : CostsFit db) (h : resolveLines storeId db items i = .ok lines) :
    ∀ line ∈ lines, ¬ MoneyOverflows line.unitCost := by
  induction items generalizing i lines with
  | nil =>
    cases h
    exact List.forall_mem_nil _
  | cons item rest ih =>
    obtain ⟨line, hline, h⟩ := bind_eq_ok.mp h
    obtain ⟨others, hothers, h⟩ := bind_eq_ok.mp h
    cases h
    have hnone := hitems item List.mem_cons_self
    rw [List.forall_mem_cons]
    refine ⟨?_, ih (fun other ho => hitems other (List.mem_cons_of_mem _ ho)) hothers⟩
    obtain ⟨productId, product, -, hfind, rfl⟩ | ⟨unitPrice, -, -, rfl⟩ :=
      SaleEffects.resolveLine_iff.mp hline
    · rw [preparedLine, hnone]
      exact fun hover => hcosts.products ⟨productId, product, (find_eq_some.mp hfind).1, hover⟩
    · rw [preparedLine, hnone]
      exact moneyOverflows_zero

/-- A row other than a sale, from somebody without profit access, writes no cost
that was not stored. -/
theorem CostsFit.of_apply (hblind : actor.can .viewProfit = false) {row : PushRow}
    (hrow : row.entity ≠ .sale) {db db' : Db} {id : Option Uuid} (h : CostsFit db)
    (hok : row.apply now storeId actor db = .ok (id, db')) : CostsFit db' := by
  cases effect_of_apply hok with
  | @saved request product _ may priced upserted coded effect =>
    refine CostsFit.of_sameRows effect ⟨not_any_put_of h.products ?_, h.sales, h.saleItems,
      h.stockMovements⟩
    rw [(upsertRow_eq_some upserted).cost]
    simp only [savedValues, savedCost, hblind, Bool.false_eq_true, if_false]
    cases hfind : find storeId (savedId request db) db with
    | none => exact moneyOverflows_zero
    | some p => exact fun hover => h.products ⟨_, p, (find_eq_some.mp hfind).1, hover⟩
  | sold _ _ _ => exact absurd rfl hrow
  | movedBefore _ => exact h
  | @moved request entry p _ may ofStore product cost kind listed unknown effect =>
    have hzero := cost hblind
    refine CostsFit.of_sameRows effect ⟨not_any_put_of h.products ?_, h.sales, h.saleItems,
      not_any_put_of h.stockMovements ?_⟩
    · rw [movedProduct, hzero]
      exact fun hover => h.products ⟨_, p, (find_eq_some.mp listed).1, hover⟩
    · rw [ledgerRow, hzero]
      exact moneyOverflows_zero
  | spent _ _ _ _ effect =>
    exact CostsFit.of_sameRows effect ⟨h.products, h.sales, h.saleItems, h.stockMovements⟩
  | withdrawn _ _ _ effect =>
    exact CostsFit.of_sameRows effect ⟨h.products, h.sales, h.saleItems, h.stockMovements⟩
  | nothing => exact h
  | @voided request sale _ entity may live effect =>
    have hmarked : CostsFit (markVoided now request.id sale db) :=
      ⟨h.products, not_any_put_of h.sales fun hover =>
        h.sales ⟨_, sale, (findLive_eq_some.mp live).1, hover⟩, h.saleItems, h.stockMovements⟩
    exact CostsFit.of_sameRows effect hmarked.undoSale
  | unspent _ _ _ effect =>
    exact CostsFit.of_sameRows effect ⟨h.products, h.sales, h.saleItems, h.stockMovements⟩
  | unwithdrawn _ _ _ effect =>
    exact CostsFit.of_sameRows effect ⟨h.products, h.sales, h.saleItems, h.stockMovements⟩
  | @unlisted request p _ entity may live effect =>
    refine CostsFit.of_sameRows effect ⟨not_any_put_of h.products fun hover => ?_, h.sales,
      h.saleItems, h.stockMovements⟩
    exact h.products ⟨_, p, (find_eq_some.mp live).1, hover⟩

/-- Rows other than products and sales ask to insert the same without the
costs. -/
theorem inserted_blind {row : PushRow} (hrow : row.entity ≠ .product) (db : Db) :
    inserted now storeId actor row (blind db) = inserted now storeId actor row db := by
  cases row with
  | product request => exact absurd rfl hrow
  | movement request =>
    simp only [inserted, find_blind]
    cases stockEffect (toLowercase (trim request.movement))
        (quantityFromF64 request.quantity) with
    | error e => rfl
    | ok effect =>
      cases ProductService.find storeId request.productId db <;> rfl
  | _ => rfl

end Rows

end Kitaza.CostColumns
