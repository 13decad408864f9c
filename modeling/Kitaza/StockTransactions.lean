import Mathlib.Data.Finset.Lattice.Basic
import Kitaza.RowLocks
import Kitaza.InventoryService

/-!
# The transactions that move stock

Recording a sale, voiding one and recording a stock movement, statement by
statement: what each one reads first, and which rows its statements lock.
Recording a known sale locks the sale before it undoes and rewrites it;
recording a new one has no row to lock. All at once, the statements of a
request are the repository's function.
-/

namespace Kitaza.StockTransactions

open KeyedTable Primitives Schema SaleRepository InventoryService RowLocks

/-- The tables whose rows are locked. -/
inductive LockTable where
  | products
  | sales
  | saleItems
  | stockMovements
  deriving DecidableEq, Repr

/-- All of them. -/
def LockTable.ALL : List LockTable := [.products, .sales, .saleItems, .stockMovements]

theorem LockTable.mem_ALL (table : LockTable) : table ∈ LockTable.ALL := by
  cases table <;> decide

instance : Fintype LockTable := ⟨⟨LockTable.ALL, by decide⟩, LockTable.mem_ALL⟩

/-- Locked rows, by table. -/
abbrev Locks := LockTable → Finset Uuid

/-- Rows of one table. -/
def lock (table : LockTable) (ids : Finset Uuid) : Locks := fun t => if t = table then ids else ∅

instance : DecidableRel fun a b : Locks => Disjoint a b := fun _ _ =>
  decidable_of_iff _ Pi.disjoint_iff.symm

/-- A database with another one's rows in some places. -/
def graft (keys : Locks) (rows db : Db) : Db :=
  { db with
    products := Table.overlay db.products rows.products (keys .products)
    sales := Table.overlay db.sales rows.sales (keys .sales)
    saleItems := Table.overlay db.saleItems rows.saleItems (keys .saleItems)
    stockMovements := Table.overlay db.stockMovements rows.stockMovements (keys .stockMovements) }

/-- The statements of the three transactions. -/
inductive Statement where
  | restoreStockFor (now : Timestamp) (saleId storeId : Uuid)
  | retireMovementsFor (now : Timestamp) (saleId storeId : Uuid)
  | upsertSale (now : Timestamp) (sale : PreparedSale) (staffId : Option Uuid)
  | deleteItems (saleId : Uuid)
  | insertItem (saleId : Uuid) (line : PreparedLine)
  | deductStock (now : Timestamp) (storeId productId : Uuid) (quantity : Quantity)
  | insertMovement (id : Uuid) (movement : StockMovement)
  | markVoided (now : Timestamp) (saleId : Uuid) (s : Sale)
  /-- Insert a movement; one already there rolls back. -/
  | insertMovementOnce (id : Uuid) (movement : StockMovement)
  /-- Move a product's running total, and take over the cost of a delivery. -/
  | moveStock (now : Timestamp) (storeId productId : Uuid) (delta : Quantity) (unitCost : Money)

/-- A product after its running total moved. -/
def movedStock (now : Timestamp) (storeId productId : Uuid) (delta : Quantity) (unitCost : Money)
    (id : Uuid) (p : Product) : Product :=
  if id = productId ∧ p.storeId = storeId then movedProduct now delta unitCost p else p

/-- One statement on what its transaction sees; absent if it fails. -/
def exec : Statement → Db → Option Db
  | .restoreStockFor now saleId storeId, db => some (restoreStockFor now saleId storeId db)
  | .retireMovementsFor now saleId storeId, db => some (retireMovementsFor now saleId storeId db)
  | .upsertSale now sale staffId, db => some (upsertSale now sale staffId db)
  | .deleteItems saleId, db => some (deleteItems saleId db)
  | .insertItem saleId line, db => (insertItem saleId line db).toOption
  | .deductStock now storeId productId quantity, db =>
    some (deductStock now storeId productId quantity db)
  | .insertMovement id movement, db => (insertMovement id movement db).toOption
  | .markVoided now saleId s, db => some (markVoided now saleId s db)
  | .insertMovementOnce id movement, db =>
    if (db.stockMovements.find? id).isSome then none
    else some { db with stockMovements := db.stockMovements.put id movement }
  | .moveStock now storeId productId delta unitCost, db =>
    some { db with products := db.products.mapRows (movedStock now storeId productId delta unitCost) }

/-- The rows a statement locks: those it writes. -/
def writeLocks : Statement → Db → Locks
  | .restoreStockFor now saleId storeId, db => lock .products (db.products.filter fun id p =>
      (joinedLine db.joins now saleId id db.saleItems).isSome && p.storeId == storeId).ids
  | .retireMovementsFor _ saleId storeId, db => lock .stockMovements (db.stockMovements.filter
      fun _ m => decide (RetiredWith saleId storeId m)).ids
  | .upsertSale _ sale _, _ => lock .sales {sale.id}
  | .deleteItems saleId, db => lock .saleItems (db.saleItems.filter fun _ item =>
      item.saleId == saleId).ids
  | .insertItem _ line, _ => lock .saleItems {line.id}
  | .deductStock _ storeId productId _, db => lock .products (db.products.filter fun id p =>
      id == productId && p.storeId == storeId).ids
  | .insertMovement id _, _ => lock .stockMovements {id}
  | .markVoided _ saleId _, _ => lock .sales {saleId}
  | .insertMovementOnce id _, _ => lock .stockMovements {id}
  | .moveStock _ storeId productId _ _, db => lock .products (db.products.filter fun id p =>
      id == productId && p.storeId == storeId).ids

/-- The sale whose lines a statement looks up or writes. -/
def Statement.linesOf : Statement → Option Uuid
  | .restoreStockFor _ saleId _ => some saleId
  | .deleteItems saleId => some saleId
  | .insertItem saleId _ => some saleId
  | _ => none

/-- The sale and store whose ledger rows a statement retires. -/
def Statement.retires : Statement → Option (Uuid × Uuid)
  | .retireMovementsFor _ saleId storeId => some (saleId, storeId)
  | _ => none

/-- What is asked of the repositories. -/
inductive Request where
  | record (now : Timestamp) (drawn : ℕ → Uuid) (sale : PreparedSale) (recorder : Recorder)
  | void (now : Timestamp) (storeId saleId : Uuid)
  | recordMovement (now : Timestamp) (entry : LedgerEntry)

/-- The statements that write the lines. -/
def lineStatements (now : Timestamp) (drawn : ℕ → Uuid) (sale : PreparedSale) :
    List PreparedLine → ℕ → List Statement
  | [], _ => []
  | line :: rest, i =>
    .insertItem sale.id line ::
      (match line.productId with
        | none => []
        | some productId => [.deductStock now sale.storeId productId line.quantity,
            .insertMovement (drawn i) (saleMovement now sale line productId)]) ++
      lineStatements now drawn sale rest (i + 1)

/-- The statements that write a sale. -/
def writeStatements (now : Timestamp) (drawn : ℕ → Uuid) (sale : PreparedSale)
    (recorder : Recorder) : List Statement :=
  .upsertSale now sale recorder.staffId :: .deleteItems sale.id ::
    lineStatements now drawn sale sale.lines 0

/-- The statements of a request, decided by what it reads first. -/
def plan : Request → Db → Option (List Statement)
  | .record now drawn sale recorder, db =>
    match db.sales.find? sale.id with
    | none => some (writeStatements now drawn sale recorder)
    | some existing =>
      if existing.storeId ≠ sale.storeId then none
      else if existing.deletedAt.isSome then some []
      else if recorder.isOwner = false ∧ existing.recordedByStaffId ≠ recorder.staffId then none
      else some (.restoreStockFor now sale.id sale.storeId ::
        .retireMovementsFor now sale.id sale.storeId :: writeStatements now drawn sale recorder)
  | .void now storeId saleId, db => (findLive storeId saleId db).map fun s =>
      [.markVoided now saleId s, .restoreStockFor now saleId storeId,
        .retireMovementsFor now saleId storeId]
  | .recordMovement now entry, db =>
    (ProductService.find entry.storeId entry.productId db).map fun p =>
      let delta := entry.effect.delta p.stockQuantity
      [.insertMovementOnce entry.movementId (ledgerRow now entry delta),
        .moveStock now entry.storeId entry.productId delta entry.unitCost]

/-- The rows the first read locks. A row that does not exist yet cannot be. -/
def readLocks : Request → Db → Locks
  | .record _ _ sale _, db => lock .sales (db.sales.filter fun id _ => id == sale.id).ids
  | .void _ storeId saleId, db => lock .sales (db.sales.filter fun id s =>
      id == saleId && s.storeId == storeId && s.deletedAt.isNone).ids
  | .recordMovement _ entry, db => lock .products (db.products.filter fun id p =>
      id == entry.productId && p.storeId == entry.storeId && p.deletedAt.isNone).ids

/-- The store whose stock a request moves. -/
def Request.storeId : Request → Uuid
  | .record _ _ sale _ => sale.storeId
  | .void _ storeId _ => storeId
  | .recordMovement _ entry => entry.storeId

/-- The sale of a request. -/
def Request.saleId : Request → Option Uuid
  | .record _ _ sale _ => some sale.id
  | .void _ _ saleId => some saleId
  | .recordMovement _ _ => none

theorem graft_self (keys : Locks) (db : Db) : graft keys db db = db := by
  simp only [graft, Table.overlay_eq fun _ _ => rfl]

theorem graft_sup {a b : Locks} {rows db v : Db} (h : graft b v (graft a rows db) = v) :
    graft (a ⊔ b) v db = v := by
  obtain ⟨products, sales, saleItems, stockMovements, expenses, withdrawals, events⟩ := v
  simp only [graft, Db.mk.injEq] at h ⊢
  obtain ⟨hproducts, hsales, hitems, hmovements, hrest⟩ := h
  exact ⟨Table.overlay_union hproducts, Table.overlay_union hsales, Table.overlay_union hitems,
    Table.overlay_union hmovements, hrest⟩

theorem graft_comm {a b : Locks} (x y db : Db) (h : Disjoint a b) :
    graft a x (graft b y db) = graft b y (graft a x db) := by
  have ht := Pi.disjoint_iff.mp h
  simp only [graft, Table.overlay_comm _ _ _ (ht _)]

theorem graft_lock_products (ids : Finset Uuid) (rows db : Db) :
    graft (lock .products ids) rows db =
      { db with products := Table.overlay db.products rows.products ids } := by
  simp [graft, lock, Table.overlay_empty]

theorem graft_lock_sales (ids : Finset Uuid) (rows db : Db) :
    graft (lock .sales ids) rows db =
      { db with sales := Table.overlay db.sales rows.sales ids } := by
  simp [graft, lock, Table.overlay_empty]

theorem graft_lock_saleItems (ids : Finset Uuid) (rows db : Db) :
    graft (lock .saleItems ids) rows db =
      { db with saleItems := Table.overlay db.saleItems rows.saleItems ids } := by
  simp [graft, lock, Table.overlay_empty]

theorem graft_lock_stockMovements (ids : Finset Uuid) (rows db : Db) :
    graft (lock .stockMovements ids) rows db =
      { db with
        stockMovements := Table.overlay db.stockMovements rows.stockMovements ids } := by
  simp [graft, lock, Table.overlay_empty]

/-- A product that is not locked for it gets nothing back. -/
theorem restored_of_notMem {joins : JoinRule} {now : Timestamp} {saleId storeId : Uuid}
    {saleItems : Table Uuid SaleItem} {id : Uuid} {p : Product}
    (h : ((joinedLine joins now saleId id saleItems).isSome && p.storeId == storeId) = false) :
    restored joins now saleId storeId saleItems id p = p := by
  unfold restored
  cases hj : joinedLine joins now saleId id saleItems with
  | none => rfl
  | some item =>
    rw [hj, Option.isSome_some, Bool.true_and, beq_eq_false_iff_ne] at h
    exact if_neg h

/-- Rewriting the rows that satisfy a predicate stays within them. -/
theorem overlay_mapRows {ρ : Type} {t : Table Uuid ρ} {f : Uuid → ρ → ρ} {p : Uuid → ρ → Bool}
    (h : ∀ k r, p k r = false → f k r = r) :
    Table.overlay t (t.mapRows f) (t.filter p).ids = t.mapRows f := by
  apply Table.overlay_eq
  intro k hk
  rw [Table.find?_mapRows]
  cases hr : t.find? k with
  | none => rfl
  | some r =>
    have hp : p k r = false := by
      by_contra hp
      exact hk (Table.mem_ids_filter.mpr ⟨r, hr, by simpa using hp⟩)
    rw [Option.map_some, h k r hp]

theorem overlay_put {ρ : Type} (t : Table Uuid ρ) (k : Uuid) (r : ρ) :
    Table.overlay t (t.put k r) {k} = t.put k r :=
  Table.overlay_eq fun _ hj => Table.find?_put_ne _ _ fun he => hj (Finset.mem_singleton.mpr he)

theorem of_toOption_eq_some {ε β : Type} {x : Except ε β} {b : β} (h : x.toOption = some b) :
    x = .ok b := by
  cases x with
  | error _ => cases h
  | ok _ =>
    cases h
    rfl

/-- A statement writes only rows it locks. -/
theorem exec_graft {s : Statement} {db v : Db} (h : exec s db = some v) :
    graft (writeLocks s db) v db = v := by
  cases s with
  | restoreStockFor now saleId storeId =>
    cases h
    rw [writeLocks, graft_lock_products, restoreStockFor,
      overlay_mapRows fun k r hp => restored_of_notMem hp]
  | retireMovementsFor now saleId storeId =>
    cases h
    rw [writeLocks, graft_lock_stockMovements, retireMovementsFor,
      overlay_mapRows fun _ r hp => retired_of_not (of_decide_eq_false hp)]
  | upsertSale now sale staffId =>
    cases h
    rw [writeLocks, graft_lock_sales, upsertSale, overlay_put]
  | deleteItems saleId =>
    cases h
    rw [writeLocks, graft_lock_saleItems, deleteItems, Table.overlay_eq]
    intro k hk
    rw [Table.find?_filter]
    cases hr : db.saleItems.find? k with
    | none => rfl
    | some item =>
      have hne : item.saleId ≠ saleId := fun he =>
        hk (Table.mem_ids_filter.mpr ⟨item, hr, beq_iff_eq.mpr he⟩)
      simp [hne]
  | insertItem saleId line =>
    obtain ⟨_, _, rfl⟩ := insertItem_eq_ok.mp (of_toOption_eq_some h)
    rw [writeLocks, graft_lock_saleItems, overlay_put]
  | deductStock now storeId productId quantity =>
    cases h
    rw [writeLocks, graft_lock_products, deductStock, overlay_mapRows]
    intro k p hp
    exact if_neg fun hc => by simp [hc] at hp
  | insertMovement id movement =>
    obtain ⟨_, _, rfl⟩ := insertMovement_eq_ok.mp (of_toOption_eq_some h)
    rw [writeLocks, graft_lock_stockMovements, overlay_put]
  | markVoided now saleId s =>
    cases h
    rw [writeLocks, graft_lock_sales, markVoided, overlay_put]
  | insertMovementOnce id movement =>
    rw [exec] at h
    split_ifs at h
    cases h
    rw [writeLocks, graft_lock_stockMovements, overlay_put]
  | moveStock now storeId productId delta unitCost =>
    cases h
    rw [writeLocks, graft_lock_products, overlay_mapRows]
    intro k p hp
    exact if_neg fun hc => by simp [hc] at hp

/-- The stock tables and their transactions. -/
def stock : Engine Db Locks Statement Request where
  plan := plan
  readLocks := readLocks
  exec := exec
  writeLocks := writeLocks
  graft := graft
  graft_self := graft_self
  graft_sup := graft_sup
  graft_comm := graft_comm
  exec_graft := exec_graft

theorem stock_plan (r : Request) (db : Db) : stock.plan r db = plan r db := rfl

theorem stock_exec (s : Statement) (db : Db) : stock.exec s db = exec s db := rfl

/-- What a request does on its own if it commits: the repositories'
functions. -/
def Request.alone : Request → Db → Option Db
  | .record now drawn sale recorder, db =>
    (SaleRepository.record now drawn sale recorder db).toOption.map Prod.snd
  | .void now storeId saleId, db => (SaleRepository.void now storeId saleId db).map Prod.snd
  | .recordMovement now entry, db =>
    match InventoryService.recordMovement now entry db with
    | .ok (some _, db') => some db'
    | _ => none

/-- Requests one after another. -/
def inTurn : List Request → Db → Option Db
  | [], db => some db
  | r :: rest, db => (r.alone db).bind (inTurn rest)

theorem replay_lineStatements (now : Timestamp) (drawn : ℕ → Uuid) (sale : PreparedSale)
    (lines : List PreparedLine) (i : ℕ) (db : Db) (l : Locks) :
    (stock.replay (lineStatements now drawn sale lines i) (db, l)).map Prod.fst =
      (recordLines now drawn sale lines i db).toOption := by
  induction lines generalizing i db l with
  | nil => rfl
  | cons line rest ih =>
    rw [lineStatements, List.cons_append, Engine.replay, recordLines, recordLine]
    change ((exec (.insertItem sale.id line) db).bind _).map _ = _
    rw [exec]
    cases hitem : insertItem sale.id line db with
    | error e => rfl
    | ok db₁ =>
      cases hp : line.productId with
      | none => exact ih (i + 1) db₁ _
      | some productId =>
        dsimp only [Except.toOption, Option.bind_some, bind, Except.bind]
        rw [List.cons_append, Engine.replay]
        change ((some (deductStock now sale.storeId productId line.quantity db₁)).bind _).map _ = _
        rw [Option.bind_some, List.cons_append, Engine.replay]
        change ((exec (.insertMovement _ _) _).bind _).map _ = _
        rw [exec]
        cases hmovement : insertMovement (drawn i) (saleMovement now sale line productId)
            (deductStock now sale.storeId productId line.quantity db₁) with
        | error e => rfl
        | ok db₂ => exact ih (i + 1) db₂ _

theorem replay_writeStatements (now : Timestamp) (drawn : ℕ → Uuid) (sale : PreparedSale)
    (recorder : Recorder) (created : Bool) (db : Db) (l : Locks) :
    (stock.replay (writeStatements now drawn sale recorder) (db, l)).map Prod.fst =
      (writeSale now drawn sale recorder created db).toOption.map Prod.snd := by
  rw [writeStatements, writeSale]
  change (stock.replay (lineStatements now drawn sale sale.lines 0) _).map Prod.fst = _
  rw [replay_lineStatements]
  cases recordLines now drawn sale sale.lines 0
    (deleteItems sale.id (upsertSale now sale recorder.staffId db)) <;> rfl

/-- The statements of a request, all at once, are the repository's function. -/
theorem perform_eq (r : Request) (db : Db) : stock.perform r db = r.alone db := by
  cases r with
  | record now drawn sale recorder =>
    rw [Engine.perform, stock_plan, plan, Request.alone, SaleRepository.record]
    cases hfind : db.sales.find? sale.id with
    | none => exact replay_writeStatements _ _ _ _ _ _ _
    | some existing =>
      dsimp only
      split_ifs
      · rfl
      · rfl
      · rfl
      · exact replay_writeStatements now drawn sale recorder false
          (undoSale now sale.id sale.storeId db) _
  | void now storeId saleId =>
    rw [Engine.perform, stock_plan, plan, Request.alone, SaleRepository.void]
    cases findLive storeId saleId db <;> rfl
  | recordMovement now entry =>
    rw [Engine.perform, stock_plan, plan, Request.alone, InventoryService.recordMovement]
    cases hfind : ProductService.find entry.storeId entry.productId db with
    | none => rfl
    | some p =>
      obtain ⟨hp, hstore, _⟩ := ProductService.find_eq_some.mp hfind
      rw [Option.map_some, Option.bind_some, Engine.replay, stock_exec, exec]
      dsimp only
      split_ifs
      · rfl
      · -- the locked product is the only one that moves
        rw [Option.bind_some, Engine.replay, stock_exec, exec]
        have hmoved : db.products.mapRows (movedStock now entry.storeId entry.productId
              (entry.effect.delta p.stockQuantity) entry.unitCost) =
            db.products.put entry.productId
              (movedProduct now (entry.effect.delta p.stockQuantity) entry.unitCost p) := by
          apply Table.ext_find?
          intro k
          rw [Table.find?_mapRows, Table.find?_put]
          split_ifs with hk
          · rw [hk, hp, Option.map_some, movedStock, if_pos ⟨rfl, hstore⟩]
          · cases db.products.find? k with
            | none => rfl
            | some r => rw [Option.map_some, movedStock, if_neg fun h => hk h.1]
        rw [Option.bind_some, Engine.replay, Option.map_some, hmoved]

end Kitaza.StockTransactions
