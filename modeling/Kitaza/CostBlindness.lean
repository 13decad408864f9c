import Kitaza.SyncPush

/-!
# Writing without looking at costs

Every write somebody without profit access can make runs the same when the
cost figures are taken out of the database first, up to those figures; the
one exception is the price check of a saved product. Each statement
commutes with taking the costs out, and the services follow.
-/

namespace Kitaza.CostBlindness

open KeyedTable Primitives Access Schema Payloads ProductService SaleRepository SaleService
  InventoryService SyncPush

/-- A product without its cost. -/
def zeroProduct (p : Product) : Product := { p with costPrice := 0 }

/-- A sale without its cost. -/
def zeroSale (s : Sale) : Sale := { s with costAmount := 0 }

/-- A stored sale line without its cost. -/
def zeroItem (item : SaleItem) : SaleItem := { item with unitCost := 0 }

/-- A ledger row without its cost. -/
def zeroMovement (m : StockMovement) : StockMovement := { m with unitCost := 0 }

/-- The database without cost figures and without the log. -/
def blind (db : Db) : Db where
  products := db.products.mapRows fun _ => zeroProduct
  sales := db.sales.mapRows fun _ => zeroSale
  saleItems := db.saleItems.mapRows fun _ => zeroItem
  stockMovements := db.stockMovements.mapRows fun _ => zeroMovement
  expenses := db.expenses
  ownerWithdrawals := db.ownerWithdrawals
  auditEvents := []
  joins := db.joins

/-- Costs are taken out once. -/
theorem blind_blind (db : Db) : blind (blind db) = blind db := by
  simp only [blind, Table.mapRows_mapRows]
  rfl

@[simp] theorem blind_recordAudit (now : Timestamp) (actor : Actor) (entry : AuditEntry) (db : Db) :
    blind (recordAudit now actor entry db) = blind db := rfl

@[simp] theorem blind_recordAudit? (now : Timestamp) (actor : Actor) (entry : Option AuditEntry)
    (db : Db) : blind (recordAudit? now actor entry db) = blind db := by
  cases entry <;> rfl

section Products

variable {now : Timestamp} {storeId id : Uuid} {values : ProductValues} {db : Db}

theorem find_blind (storeId id : Uuid) (db : Db) :
    ProductService.find storeId id (blind db) = (ProductService.find storeId id db).map zeroProduct := by
  unfold ProductService.find
  change (((db.products.find? id).map zeroProduct).filter _) = _
  cases db.products.find? id with
  | none => rfl
  | some p =>
    by_cases hp : (p.storeId == storeId && p.deletedAt.isNone) = true
    · simp [Option.filter, zeroProduct]
    · simp [Option.filter, zeroProduct]

theorem barcodeTaken_blind (barcode : Option String) :
    BarcodeTaken storeId id barcode (blind db).products ↔
      BarcodeTaken storeId id barcode db.products := Table.any_mapRows

theorem upsertRow_blind (existing : Option Product) :
    ProductService.upsertRow now storeId { values with costPrice := 0 } (existing.map zeroProduct) =
      (ProductService.upsertRow now storeId values existing).map zeroProduct := by
  cases existing with
  | none => rfl
  | some p =>
    by_cases hs : p.storeId = storeId <;> simp [ProductService.upsertRow, zeroProduct, hs]

/-- An insert-or-update without costs. -/
theorem upsert_blind :
    ProductService.upsert now storeId id { values with costPrice := 0 } (blind db) =
      (ProductService.upsert now storeId id values db).map
        fun r => (zeroProduct r.1, blind r.2) := by
  unfold ProductService.upsert
  have hfind : (blind db).products.find? id = (db.products.find? id).map zeroProduct := rfl
  rw [hfind, upsertRow_blind]
  cases ProductService.upsertRow now storeId values (db.products.find? id) with
  | none => rfl
  | some row =>
    have hbarcode : BarcodeTaken storeId id (zeroProduct row).barcode (blind db).products ↔
        BarcodeTaken storeId id row.barcode db.products := barcodeTaken_blind _
    dsimp only [Option.map_some]
    by_cases hb : BarcodeTaken storeId id row.barcode db.products
    · rw [if_pos hb, if_pos (hbarcode.mpr hb)]
      rfl
    · rw [if_neg hb, if_neg fun h => hb (hbarcode.mp h)]
      simp only [Except.map, blind, Table.mapRows_put]

/-- Removing a product does not look at its cost. -/
theorem softDelete_blind :
    ProductService.softDelete now storeId id (blind db) =
      (ProductService.softDelete now storeId id db).map fun r => (r.1, blind r.2) := by
  unfold ProductService.softDelete
  rw [find_blind, Option.map_map, Option.map_map]
  cases ProductService.find storeId id db with
  | none => rfl
  | some p =>
    simp only [Option.map_some, Function.comp_def, blind, Table.mapRows_put]
    rfl

end Products

section Sales

variable {now : Timestamp} {storeId saleId : Uuid} {db : Db}

/-- A prepared line without its cost. -/
def zeroLine (line : PreparedLine) : PreparedLine := { line with unitCost := 0 }

/-- A prepared sale without its costs. -/
def zeroPrepared (sale : PreparedSale) : PreparedSale :=
  { sale with costAmount := 0, lines := sale.lines.map zeroLine }

/-- A line that brings no cost of its own resolves the same. -/
theorem resolveLine_blind {lineId : Uuid} {item : SaleLineRequest} (h : item.unitCost = none) :
    resolveLine storeId lineId item (blind db) = (resolveLine storeId lineId item db).map zeroLine := by
  unfold resolveLine
  cases item.productId with
  | none =>
    dsimp only
    cases item.unitPrice with
    | none => rfl
    | some unitPrice =>
      rw [h]
      rfl
  | some productId =>
    dsimp only
    rw [find_blind]
    cases ProductService.find storeId productId db with
    | none => rfl
    | some p =>
      rw [h]
      rfl

theorem resolveLines_blind {items : List SaleLineRequest} (h : ∀ item ∈ items, item.unitCost = none)
    (i : ℕ) : resolveLines storeId (blind db) items i =
      (resolveLines storeId db items i).map (List.map zeroLine) := by
  induction items generalizing i with
  | nil => rfl
  | cons item rest ih =>
    have hid : Uuid.newV4 (blind db).saleItems i = Uuid.newV4 db.saleItems i := rfl
    simp only [resolveLines, hid, resolveLine_blind (h item List.mem_cons_self),
      ih (fun other ho => h other (List.mem_cons_of_mem _ ho))]
    cases resolveLine storeId (item.id.getD (Uuid.newV4 db.saleItems i)) item db with
    | error e => rfl
    | ok line =>
      cases resolveLines storeId db rest (i + 1) with
      | error e => rfl
      | ok lines => rfl

/-- Somebody without profit access brings no costs along. -/
theorem visibleItems_unitCost {actor : Actor} (hblind : actor.can .viewProfit = false)
    (items : List SaleLineRequest) : ∀ item ∈ visibleItems actor items, item.unitCost = none := by
  intro item hitem
  simp only [visibleItems, hblind, Bool.false_eq_true, if_false, List.mem_map] at hitem
  obtain ⟨original, -, rfl⟩ := hitem
  rfl

theorem prepareSale_blind (method : String) (request : RecordSaleRequest)
    (lines : List PreparedLine) :
    prepareSale now storeId saleId method request (lines.map zeroLine) =
      zeroPrepared (prepareSale now storeId saleId method request lines) := by
  have htotals : (lines.map zeroLine).map PreparedLine.lineTotal =
      lines.map PreparedLine.lineTotal := by
    rw [List.map_map]
    rfl
  have hcosts : ((lines.map zeroLine).map fun line => line.unitCost * line.quantity).sum = 0 := by
    rw [List.map_map]
    apply List.sum_eq_zero
    intro x hx
    obtain ⟨line, -, rfl⟩ := List.mem_map.mp hx
    exact zero_mul _
  simp only [prepareSale, htotals, hcosts, zeroPrepared]

theorem joinedLine_blind (joins : JoinRule) (productId : Uuid) (saleItems : Table Uuid SaleItem) :
    joinedLine joins now saleId productId (saleItems.mapRows fun _ => zeroItem) =
      (joinedLine joins now saleId productId saleItems).map zeroItem := by
  rw [joinedLine, Table.filter_mapRows, Table.picked_mapRows]
  rfl

theorem restored_blind (joins : JoinRule) (saleItems : Table Uuid SaleItem) (id : Uuid)
    (p : Product) :
    restored joins now saleId storeId (saleItems.mapRows fun _ => zeroItem) id (zeroProduct p) =
      zeroProduct (restored joins now saleId storeId saleItems id p) := by
  unfold restored
  rw [joinedLine_blind]
  cases joinedLine joins now saleId id saleItems with
  | none => rfl
  | some item =>
    by_cases hs : p.storeId = storeId <;> simp [zeroProduct, zeroItem, hs]

theorem retired_blind (m : StockMovement) :
    retired now saleId storeId (zeroMovement m) = zeroMovement (retired now saleId storeId m) := by
  by_cases h : RetiredWith saleId storeId m
  · have h' : RetiredWith saleId storeId (zeroMovement m) := h
    rw [retired, retired, if_pos h, if_pos h']
    rfl
  · have h' : ¬RetiredWith saleId storeId (zeroMovement m) := h
    rw [retired, retired, if_neg h, if_neg h']

/-- Undoing a sale does not look at costs. -/
theorem undoSale_blind : undoSale now saleId storeId (blind db) = blind (undoSale now saleId storeId db) := by
  simp only [undoSale, retireMovementsFor, restoreStockFor, blind, Table.mapRows_mapRows,
    restored_blind, retired_blind]

theorem numericMoney_zero : numericMoney 0 = 0 := by
  decide +kernel

/-- Writing the sale's row without its cost. -/
theorem upsertSale_blind (sale : PreparedSale) (staffId : Option Uuid) :
    upsertSale now (zeroPrepared sale) staffId (blind db) =
      blind (upsertSale now sale staffId db) := by
  have hrow : upsertedSale now (zeroPrepared sale) staffId ((db.sales.find? sale.id).map zeroSale) =
      zeroSale (upsertedSale now sale staffId (db.sales.find? sale.id)) := by
    cases db.sales.find? sale.id <;>
      simp [upsertedSale, zeroPrepared, zeroSale, numericMoney_zero]
  simp only [upsertSale, blind, Table.mapRows_put, ← hrow]
  rfl

theorem deleteItems_blind : deleteItems saleId (blind db) = blind (deleteItems saleId db) := by
  simp only [deleteItems, blind, Table.filter_mapRows]
  rfl

/-- Inserting a line asks for its identifier and its product alone. -/
theorem insertItem_blind (line : PreparedLine) :
    insertItem saleId (zeroLine line) (blind db) = (insertItem saleId line db).map blind := by
  unfold insertItem
  have hid : ((blind db).saleItems.find? (zeroLine line).id).isSome =
      (db.saleItems.find? line.id).isSome := Option.isSome_map
  have hproduct : ((zeroLine line).productId.any fun id => ((blind db).products.find? id).isNone) =
      line.productId.any fun id => (db.products.find? id).isNone := by
    have hnone : ∀ id, ((blind db).products.find? id).isNone = (db.products.find? id).isNone :=
      fun id => Option.isNone_map
    simp only [hnone]
    rfl
  rw [hid, hproduct]
  split_ifs
  · rfl
  · rfl
  · simp only [Except.map, blind, Table.mapRows_put]
    rfl

theorem deductStock_blind (productId : Uuid) (quantity : Quantity) :
    deductStock now storeId productId quantity (blind db) =
      blind (deductStock now storeId productId quantity db) := by
  have hrow : ∀ (id : Uuid) (p : Product),
      (if id = productId ∧ (zeroProduct p).storeId = storeId then
        { zeroProduct p with
          stockQuantity := (zeroProduct p).stockQuantity - quantity, updatedAt := now }
        else zeroProduct p) =
      zeroProduct (if id = productId ∧ p.storeId = storeId then
        { p with stockQuantity := p.stockQuantity - quantity, updatedAt := now } else p) := by
    intro id p
    have hs : (zeroProduct p).storeId = p.storeId := rfl
    rw [hs]
    split_ifs <;> rfl
  simp only [deductStock, blind, Table.mapRows_mapRows, hrow]

/-- Writing a ledger row asks for its identifier and its product alone. -/
theorem insertMovement_blind (id : Uuid) (movement : StockMovement) :
    insertMovement id (zeroMovement movement) (blind db) =
      (insertMovement id movement db).map blind := by
  unfold insertMovement
  have hid : ((blind db).stockMovements.find? id).isSome = (db.stockMovements.find? id).isSome :=
    Option.isSome_map
  have hproduct : ((blind db).products.find? (zeroMovement movement).productId).isNone =
      (db.products.find? movement.productId).isNone := Option.isNone_map
  rw [hid, hproduct]
  split_ifs
  · rfl
  · rfl
  · simp only [Except.map, blind, Table.mapRows_put]

theorem recordLine_blind (movementId : Uuid) (sale : PreparedSale) (line : PreparedLine) :
    recordLine now movementId (zeroPrepared sale) (zeroLine line) (blind db) =
      (recordLine now movementId sale line db).map blind := by
  have hid : (zeroPrepared sale).id = sale.id := rfl
  simp only [recordLine, hid, insertItem_blind]
  cases insertItem sale.id line db with
  | error e => rfl
  | ok db =>
    have hproduct : (zeroLine line).productId = line.productId := rfl
    simp only [Except.map, bind, Except.bind, hproduct]
    cases line.productId with
    | none => rfl
    | some productId =>
      have hmovement : saleMovement now (zeroPrepared sale) (zeroLine line) productId =
          zeroMovement (saleMovement now sale line productId) := rfl
      have hstore : (zeroPrepared sale).storeId = sale.storeId := rfl
      have hquantity : (zeroLine line).quantity = line.quantity := rfl
      dsimp only
      rw [hmovement, hstore, hquantity, deductStock_blind, insertMovement_blind]
      rfl

theorem recordLines_blind (drawn : ℕ → Uuid) (sale : PreparedSale) (lines : List PreparedLine)
    (i : ℕ) (db : Db) :
    recordLines now drawn (zeroPrepared sale) (lines.map zeroLine) i (blind db) =
      (recordLines now drawn sale lines i db).map blind := by
  induction lines generalizing i db with
  | nil => rfl
  | cons line rest ih =>
    simp only [List.map_cons, recordLines, recordLine_blind]
    cases recordLine now (drawn i) sale line db with
    | error e => rfl
    | ok db => exact ih (i + 1) db

/-- A recorded sale without its cost. -/
def zeroRecorded (r : RecordedSale) : RecordedSale := { r with sale := zeroSale r.sale }

theorem writeSale_blind (drawn : ℕ → Uuid) (sale : PreparedSale) (recorder : Recorder)
    (created : Bool) (db : Db) :
    writeSale now drawn (zeroPrepared sale) recorder created (blind db) =
      (writeSale now drawn sale recorder created db).map
        fun r => (zeroRecorded r.1, blind r.2) := by
  have hid : (zeroPrepared sale).id = sale.id := rfl
  have hlines : (zeroPrepared sale).lines = sale.lines.map zeroLine := rfl
  have hrow : upsertedSale now (zeroPrepared sale) recorder.staffId
      ((blind db).sales.find? sale.id) =
      zeroSale (upsertedSale now sale recorder.staffId (db.sales.find? sale.id)) := by
    change upsertedSale now (zeroPrepared sale) recorder.staffId
      ((db.sales.find? sale.id).map zeroSale) = _
    cases db.sales.find? sale.id <;>
      simp [upsertedSale, zeroPrepared, zeroSale, numericMoney_zero]
  simp only [writeSale, hid, hlines, hrow, upsertSale_blind, deleteItems_blind, recordLines_blind]
  cases recordLines now drawn sale sale.lines 0
    (deleteItems sale.id (upsertSale now sale recorder.staffId db)) <;> rfl

/-- Recording a sale does not look at costs. -/
theorem record_blind (drawn : ℕ → Uuid) (sale : PreparedSale) (recorder : Recorder) (db : Db) :
    SaleRepository.record now drawn (zeroPrepared sale) recorder (blind db) =
      (SaleRepository.record now drawn sale recorder db).map
        fun r => (zeroRecorded r.1, blind r.2) := by
  have hid : (zeroPrepared sale).id = sale.id := rfl
  have hstore : (zeroPrepared sale).storeId = sale.storeId := rfl
  have hfind : (blind db).sales.find? sale.id = (db.sales.find? sale.id).map zeroSale := rfl
  unfold SaleRepository.record
  rw [hid, hstore, hfind]
  cases db.sales.find? sale.id with
  | none => exact writeSale_blind drawn sale recorder true db
  | some existing =>
    have hs : (zeroSale existing).storeId = existing.storeId := rfl
    have hd : (zeroSale existing).deletedAt = existing.deletedAt := rfl
    have hr : (zeroSale existing).recordedByStaffId = existing.recordedByStaffId := rfl
    dsimp only [Option.map_some]
    rw [hs, hd, hr]
    split_ifs
    · rfl
    · rfl
    · rfl
    · rw [undoSale_blind]
      exact writeSale_blind drawn sale recorder false _

theorem void_blind : SaleRepository.void now storeId saleId (blind db) =
    (SaleRepository.void now storeId saleId db).map fun r => (zeroSale r.1, blind r.2) := by
  have hfind : findLive storeId saleId (blind db) = (findLive storeId saleId db).map zeroSale := by
    unfold findLive
    change (((db.sales.find? saleId).map zeroSale).filter _) = _
    cases db.sales.find? saleId with
    | none => rfl
    | some s => simp [Option.filter, zeroSale]
  unfold SaleRepository.void
  rw [hfind, Option.map_map, Option.map_map]
  cases findLive storeId saleId db with
  | none => rfl
  | some s =>
    have hmark : markVoided now saleId (zeroSale s) (blind db) =
        blind (markVoided now saleId s db) := by
      simp only [markVoided, blind, Table.mapRows_put]
      rfl
    simp only [Option.map_some, Function.comp_def, hmark, undoSale_blind]

end Sales

section Services

variable {now : Timestamp} {storeId : Uuid} {actor : Actor} {db : Db}

/-- What somebody without profit access can tell of a row's result. -/
def seen (r : Except ApiError (Option Uuid × Db)) : Except ApiError (Option Uuid × Db) :=
  r.map fun x => (x.1, blind x.2)

theorem saleService_record_blind (hblind : actor.can .viewProfit = false)
    (request : RecordSaleRequest) :
    (SaleService.record now storeId actor request (blind db)).map
        (fun r => (r.1.id, blind r.2)) =
      (SaleService.record now storeId actor request db).map fun r => (r.1.id, blind r.2) := by
  have hsale : Uuid.newV4 (blind db).sales 0 = Uuid.newV4 db.sales 0 := rfl
  have hdrawn : Uuid.newV4 (blind db).stockMovements = Uuid.newV4 db.stockMovements := rfl
  simp only [SaleService.record, hsale, hdrawn,
    resolveLines_blind (visibleItems_unitCost hblind request.items)]
  cases normalisePaymentMethod request.paymentMethod with
  | error e => rfl
  | ok method =>
    simp only [bind, Except.bind]
    cases resolveLines storeId db (visibleItems actor request.items) 0 with
    | error e => rfl
    | ok lines =>
      simp only [Except.map, prepareSale_blind, record_blind]
      cases SaleRepository.record now (Uuid.newV4 db.stockMovements)
        (prepareSale now storeId (request.id.getD (Uuid.newV4 db.sales 0)) method request lines)
        (recorderOf actor) db with
      | error e => rfl
      | ok r =>
        have hcreated : (zeroRecorded r.1).created = r.1.created := rfl
        dsimp only
        rw [hcreated]
        by_cases hc : r.1.created = true
        · simp only [hc, if_true, blind_recordAudit, blind_blind]
          rfl
        · simp only [hc, Bool.false_eq_true, if_false, blind_blind]
          rfl

/-- A movement without cost moves the stock the same. -/
theorem recordMovement_blind {entry : LedgerEntry} (hcost : entry.unitCost = 0) :
    recordMovement now entry (blind db) =
      (recordMovement now entry db).map fun r => (r.1, blind r.2) := by
  unfold recordMovement
  rw [find_blind]
  cases ProductService.find entry.storeId entry.productId db with
  | none => rfl
  | some p =>
    have hstock : (zeroProduct p).stockQuantity = p.stockQuantity := rfl
    have hmoved : ∀ delta, movedProduct now delta entry.unitCost (zeroProduct p) =
        zeroProduct (movedProduct now delta entry.unitCost p) := by
      intro delta
      simp [movedProduct, zeroProduct, hcost]
    have hrow : ∀ delta, ledgerRow now entry delta = zeroMovement (ledgerRow now entry delta) := by
      intro delta
      simp [ledgerRow, zeroMovement, hcost]
    have hid : ((blind db).stockMovements.find? entry.movementId).isSome =
        (db.stockMovements.find? entry.movementId).isSome := Option.isSome_map
    simp only [Option.map_some, hstock, hmoved, hid]
    split_ifs
    · rfl
    · simp only [Except.map, blind, Table.mapRows_put, ← hrow]
      rfl

theorem blind_logMovement (entry : LedgerEntry) (quantity : Quantity)
    (applied : Option AppliedMovement) (db : Db) :
    blind (logMovement now actor entry quantity applied db) = blind db := by
  obtain ⟨events, h⟩ := logMovement_eq now actor entry quantity applied db
  rw [h]
  rfl

theorem inventoryService_record_blind (hblind : actor.can .viewProfit = false)
    (request : RecordMovementRequest) :
    (InventoryService.record now storeId actor request (blind db)).map blind =
      (InventoryService.record now storeId actor request db).map blind := by
  simp only [InventoryService.record, bind, Except.bind]
  cases actor.require .manageProducts with
  | error e => rfl
  | ok _ =>
    dsimp only
    cases stockEffect (toLowercase (trim request.movement)) (quantityFromF64 request.quantity) with
    | error e => rfl
    | ok r =>
      have hentry : entryOf now storeId actor request r.1 r.2 (blind db) =
          entryOf now storeId actor request r.1 r.2 db := rfl
      have hcost : (entryOf now storeId actor request r.1 r.2 db).unitCost = 0 := by
        simp [entryOf, hblind]
      dsimp only
      rw [hentry]
      split_ifs
      · rfl
      · rw [recordMovement_blind hcost]
        cases recordMovement now (entryOf now storeId actor request r.1 r.2 db) db with
        | error e => rfl
        | ok applied =>
          simp only [Except.map, blind_logMovement, blind_blind]

theorem expense_upsert_blind (expenseId : Uuid) (values : ExpenseService.ExpenseValues) :
    ExpenseService.upsert now storeId expenseId values actor (blind db) =
      (ExpenseService.upsert now storeId expenseId values actor db).map
        fun r => (r.1, blind r.2) := by
  unfold ExpenseService.upsert
  rw [Option.map_map]
  rfl

theorem expenseService_record_blind (request : RecordExpenseRequest) :
    (ExpenseService.record now storeId actor request (blind db)).map
        (fun r => (r.1.1, blind r.2)) =
      (ExpenseService.record now storeId actor request db).map fun r => (r.1.1, blind r.2) := by
  have hid : Uuid.newV4 (blind db).expenses 0 = Uuid.newV4 db.expenses 0 := rfl
  simp only [ExpenseService.record, bind, Except.bind]
  cases actor.require .recordExpenses with
  | error e => rfl
  | ok _ =>
    dsimp only
    cases ExpenseService.parseCategory request.category with
    | error e => rfl
    | ok category =>
      simp only [hid, expense_upsert_blind]
      generalize ExpenseService.upsert now storeId _ _ actor db = written
      cases written with
      | none => rfl
      | some r =>
        simp only [Option.map_some, Except.map]
        by_cases hnew : r.1.2 = true
        · simp only [hnew, if_true, blind_recordAudit, blind_blind]
        · simp only [hnew, Bool.false_eq_true, if_false, blind_blind]

theorem withdrawal_upsert_blind (withdrawalId : Uuid) (values : WithdrawalService.WithdrawalValues) :
    WithdrawalService.upsert now storeId withdrawalId values (blind db) =
      (WithdrawalService.upsert now storeId withdrawalId values db).map
        fun r => (r.1, blind r.2) := by
  unfold WithdrawalService.upsert
  rw [Option.map_map]
  rfl

theorem withdrawalService_record_blind (request : RecordWithdrawalRequest) :
    (WithdrawalService.record now storeId actor request (blind db)).map
        (fun r => (r.1.1, blind r.2)) =
      (WithdrawalService.record now storeId actor request db).map fun r => (r.1.1, blind r.2) := by
  have hid : Uuid.newV4 (blind db).ownerWithdrawals 0 = Uuid.newV4 db.ownerWithdrawals 0 := rfl
  simp only [WithdrawalService.record, bind, Except.bind]
  cases actor.requireOwner with
  | error e => rfl
  | ok _ =>
    simp only [hid, withdrawal_upsert_blind]
    generalize WithdrawalService.upsert now storeId _ _ db = written
    cases written with
    | none => rfl
    | some r =>
      simp only [Option.map_some, Except.map]
      by_cases hnew : r.1.2 = true
      · simp only [hnew, if_true, blind_recordAudit, blind_blind]
      · simp only [hnew, Bool.false_eq_true, if_false, blind_blind]

theorem expense_softDelete_blind (expenseId : Uuid) :
    ExpenseService.softDelete now storeId expenseId (blind db) =
      (ExpenseService.softDelete now storeId expenseId db).map fun r => (r.1, blind r.2) := by
  unfold ExpenseService.softDelete
  rw [Option.map_map]
  rfl

theorem withdrawal_softDelete_blind (withdrawalId : Uuid) :
    WithdrawalService.softDelete now storeId withdrawalId (blind db) =
      (WithdrawalService.softDelete now storeId withdrawalId db).map fun r => (r.1, blind r.2) := by
  unfold WithdrawalService.softDelete
  rw [Option.map_map]
  rfl

/-- Removing anything does not look at costs. -/
theorem removeEntity_blind (deletion : DeletionRequest) :
    (removeEntity now storeId actor deletion (blind db)).map blind =
      (removeEntity now storeId actor deletion db).map blind := by
  unfold removeEntity
  split_ifs
  · unfold SaleService.void
    cases actor.require .deleteRecords with
    | error e => rfl
    | ok _ =>
      simp only [bind, Except.bind, void_blind]
      cases SaleRepository.void now storeId deletion.id db with
      | none => rfl
      | some r => simp only [Option.map_some, Except.map, blind_recordAudit, blind_blind]
  · unfold ExpenseService.remove
    cases actor.require .deleteRecords with
    | error e => rfl
    | ok _ =>
      simp only [bind, Except.bind, expense_softDelete_blind]
      cases ExpenseService.softDelete now storeId deletion.id db with
      | none => rfl
      | some r => simp only [Option.map_some, Except.map, blind_recordAudit, blind_blind]
  · unfold WithdrawalService.remove
    cases actor.requireOwner with
    | error e => rfl
    | ok _ =>
      simp only [bind, Except.bind, withdrawal_softDelete_blind]
      cases WithdrawalService.softDelete now storeId deletion.id db with
      | none => rfl
      | some r => simp only [Option.map_some, Except.map, blind_recordAudit, blind_blind]
  · unfold ProductService.remove
    cases actor.require .manageProducts with
    | error e => rfl
    | ok _ =>
      simp only [bind, Except.bind, softDelete_blind]
      cases ProductService.softDelete now storeId deletion.id db with
      | none => rfl
      | some r => simp only [Option.map_some, Except.map, blind_recordAudit, blind_blind]
  · rfl

/-- A row that is not a product's gives the same result without the costs. -/
theorem seen_apply_blind (hblind : actor.can .viewProfit = false) {row : PushRow}
    (hrow : row.entity ≠ .product) :
    seen (row.apply now storeId actor (blind db)) = seen (row.apply now storeId actor db) := by
  have hmap : ∀ {α β γ : Type} (f : α → β) (g : β → γ) (r : Except ApiError α),
      (r.map f).map g = r.map fun x => g (f x) := by
    intro α β γ f g r
    cases r <;> rfl
  cases row with
  | product request => exact absurd rfl hrow
  | sale request =>
    have h := congrArg (Except.map fun r : Uuid × Db => (some r.1, r.2))
      (@saleService_record_blind now storeId actor db hblind request)
    simpa only [seen, PushRow.apply, hmap] using h
  | movement request =>
    have h := congrArg (Except.map fun r : Db => (request.id, r))
      (@inventoryService_record_blind now storeId actor db hblind request)
    simpa only [seen, PushRow.apply, hmap] using h
  | expense request =>
    have h := congrArg (Except.map fun r : Uuid × Db => (some r.1, r.2))
      (@expenseService_record_blind now storeId actor db request)
    simpa only [seen, PushRow.apply, hmap] using h
  | withdrawal request =>
    have h := congrArg (Except.map fun r : Uuid × Db => (some r.1, r.2))
      (@withdrawalService_record_blind now storeId actor db request)
    simpa only [seen, PushRow.apply, hmap] using h
  | deletion request =>
    have h := @removeEntity_blind now storeId actor db request
    have hd : (delete now storeId actor request (blind db)).map blind =
        (delete now storeId actor request db).map blind := by
      unfold delete
      revert h
      cases removeEntity now storeId actor request (blind db) with
      | error e =>
        cases removeEntity now storeId actor request db with
        | error e' =>
          intro h
          cases h
          cases e <;> simp [Except.map, blind_blind]
        | ok d => exact fun h => by cases h
      | ok d =>
        cases removeEntity now storeId actor request db with
        | error e' => exact fun h => by cases h
        | ok d' => exact fun h => h
    have h' := congrArg (Except.map fun r : Db => (some request.id, r)) hd
    simpa only [seen, PushRow.apply, hmap] using h'

end Services

end Kitaza.CostBlindness
