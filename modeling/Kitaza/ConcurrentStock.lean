import Mathlib.Data.List.Permutation
import Kitaza.StockTransactions

/-!
# Sales, voids and stock movements at the same time

What the transactions that move stock see while others commit. The order of
the commits is a serial order with the same effect, unless a sale that a
recording did not find is there when it is inserted, or a ledger row appears
under a sale whose rows are being retired.
-/

namespace Kitaza.ConcurrentStock

open KeyedTable Primitives Schema SaleRepository InventoryService RowLocks StockTransactions

/-- Somebody else's rows mean nothing to a statement: their products are in
the stores they were in, their lines are of other sales, before and after,
and none of their ledger rows is one to retire. -/
structure Undisturbed (keys : Locks) (rows db : Db) (s : Statement) : Prop where
  /-- Products stay in their stores. -/
  stores : ∀ k ∈ keys .products,
    (rows.products.find? k).map Product.storeId = (db.products.find? k).map Product.storeId
  /-- Lines are of other sales. -/
  lines : ∀ saleId, s.linesOf = some saleId → ∀ k ∈ keys .saleItems, ∀ item,
    rows.saleItems.find? k = some item ∨ db.saleItems.find? k = some item → item.saleId ≠ saleId
  /-- Ledger rows are not to be retired. -/
  ledger : ∀ saleId storeId, s.retires = some (saleId, storeId) → ∀ k ∈ keys .stockMovements,
    ∀ m, rows.stockMovements.find? k = some m → ¬ RetiredWith saleId storeId m

theorem disjoint_lock {table : LockTable} {ids : Finset Uuid} {keys : Locks}
    (h : Disjoint (lock table ids) keys) : Disjoint ids (keys table) := by
  have ht := Pi.disjoint_iff.mp h table
  rwa [lock, if_pos rfl] at ht

section Grafted

variable {keys : Locks} {rows db : Db}

/-- A row of another transaction is there exactly if it was. -/
theorem find?_products_graft (hstores : ∀ k ∈ keys .products,
    (rows.products.find? k).map Product.storeId = (db.products.find? k).map Product.storeId)
    (k : Uuid) : ((graft keys rows db).products.find? k).map Product.storeId =
      (db.products.find? k).map Product.storeId := by
  simp only [graft, Table.find?_overlay]
  split_ifs with hk
  · exact hstores k hk
  · rfl

theorem isNone_products_graft (hstores : ∀ k ∈ keys .products,
    (rows.products.find? k).map Product.storeId = (db.products.find? k).map Product.storeId)
    (k : Uuid) : ((graft keys rows db).products.find? k).isNone = (db.products.find? k).isNone := by
  rw [← Option.isNone_map, find?_products_graft hstores k, Option.isNone_map]

/-- Products picked by their identifier and store. -/
theorem ids_filter_graft (hstores : ∀ k ∈ keys .products,
    (rows.products.find? k).map Product.storeId = (db.products.find? k).map Product.storeId)
    (q : Uuid → Uuid → Bool) :
    ((graft keys rows db).products.filter fun id p => q id p.storeId).ids =
      (db.products.filter fun id p => q id p.storeId).ids := by
  have hfind := find?_products_graft hstores
  ext k
  have hk := hfind k
  rw [Table.mem_ids_filter, Table.mem_ids_filter]
  have hboth : ∀ t : Table Uuid Product, (∃ p, t.find? k = some p ∧ q k p.storeId = true) ↔
      ∃ storeId, (t.find? k).map Product.storeId = some storeId ∧ q k storeId = true := by
    intro t
    simp [Option.map_eq_some_iff]
  rw [hboth, hboth, hk]

/-- Rewriting products picked by their identifier and store. -/
theorem mapRows_products_graft (hstores : ∀ k ∈ keys .products,
    (rows.products.find? k).map Product.storeId = (db.products.find? k).map Product.storeId)
    (q : Uuid → Uuid → Bool) {f : Uuid → Product → Product}
    (hf : ∀ id p, q id p.storeId = false → f id p = p)
    (hfree : Disjoint (db.products.filter fun id p => q id p.storeId).ids (keys .products)) :
    (graft keys rows db).products.mapRows f =
      Table.overlay (db.products.mapRows f) rows.products (keys .products) := by
  apply Table.mapRows_overlay
  · intro k hk r hr
    apply hf
    have hstore := hstores k hk
    rw [hr, Option.map_some, eq_comm, Option.map_eq_some_iff] at hstore
    obtain ⟨p, hp, hsame⟩ := hstore
    by_contra hq
    refine Finset.disjoint_left.mp hfree (Table.mem_ids_filter.mpr ⟨p, hp, ?_⟩) hk
    rw [hsame]
    simpa using hq
  · exact fun _ _ _ _ => rfl

/-- Lines of a sale nobody else touches. -/
theorem filter_saleItems_graft {saleId : Uuid} (hlines : ∀ k ∈ keys .saleItems, ∀ item,
    rows.saleItems.find? k = some item ∨ db.saleItems.find? k = some item → item.saleId ≠ saleId)
    (p : Uuid → SaleItem → Bool) (hp : ∀ k item, item.saleId ≠ saleId → p k item = false) :
    (graft keys rows db).saleItems.filter p = db.saleItems.filter p :=
  Table.filter_overlay_of_not fun k hk item hitem => hp k item (hlines k hk item hitem)

theorem joinedLine_graft {saleId : Uuid} (hlines : ∀ k ∈ keys .saleItems, ∀ item,
    rows.saleItems.find? k = some item ∨ db.saleItems.find? k = some item → item.saleId ≠ saleId)
    (joins : JoinRule) (now : Timestamp) (id : Uuid) :
    joinedLine joins now saleId id (graft keys rows db).saleItems =
      joinedLine joins now saleId id db.saleItems :=
  joinedLine_congr (filter_saleItems_graft hlines _ fun k item hne => by simp [hne])

theorem restored_graft {saleId : Uuid} (hlines : ∀ k ∈ keys .saleItems, ∀ item,
    rows.saleItems.find? k = some item ∨ db.saleItems.find? k = some item → item.saleId ≠ saleId)
    (joins : JoinRule) (now : Timestamp) (storeId : Uuid) :
    restored joins now saleId storeId (graft keys rows db).saleItems =
      restored joins now saleId storeId db.saleItems := by
  funext id p
  rw [restored, restored, joinedLine_graft hlines]

end Grafted

/-- The lines of the sale are its own, so the same stock is given back. -/
theorem exec_restoreStockFor {keys : Locks} {rows db : Db} {s : Statement}
    {now : Timestamp} {saleId storeId : Uuid} (hs : s = .restoreStockFor now saleId storeId)
    (h : Undisturbed keys rows db s) (hfree : Disjoint (writeLocks s db) keys) :
    exec s (graft keys rows db) = (exec s db).map (graft keys rows) ∧
      writeLocks s (graft keys rows db) = writeLocks s db := by
  subst hs
  have hlines := h.lines saleId rfl
  let q : Uuid → Uuid → Bool := fun id store =>
    (joinedLine db.joins now saleId id db.saleItems).isSome && store == storeId
  have hids := ids_filter_graft h.stores q
  have hdisj : Disjoint (db.products.filter fun id p => q id p.storeId).ids (keys .products) :=
    disjoint_lock hfree
  constructor
  · rw [exec, exec, Option.map_some, restoreStockFor, restoreStockFor, restored_graft hlines,
      show (graft keys rows db).joins = db.joins from rfl,
        mapRows_products_graft h.stores q (fun id p hq => restored_of_notMem hq) hdisj]
    rfl
  · rw [writeLocks, writeLocks]
    simp only [joinedLine_graft hlines, show (graft keys rows db).joins = db.joins from rfl]
    exact congrArg (lock .products) hids

/-- None of the rows of others is retired. -/
theorem exec_retireMovementsFor {keys : Locks} {rows db : Db} {s : Statement}
    {now : Timestamp} {saleId storeId : Uuid} (hs : s = .retireMovementsFor now saleId storeId)
    (h : Undisturbed keys rows db s) (hfree : Disjoint (writeLocks s db) keys) :
    exec s (graft keys rows db) = (exec s db).map (graft keys rows) ∧
      writeLocks s (graft keys rows db) = writeLocks s db := by
  subst hs
  have hledger := h.ledger saleId storeId rfl
  have hdisj := disjoint_lock hfree
  constructor
  · rw [exec, exec, Option.map_some, retireMovementsFor, retireMovementsFor]
    have hmap : (graft keys rows db).stockMovements.mapRows (fun _ => retired now saleId storeId) =
        Table.overlay (db.stockMovements.mapRows fun _ => retired now saleId storeId)
          rows.stockMovements (keys .stockMovements) :=
      Table.mapRows_overlay (fun k hk m hm => retired_of_not (hledger k hk m hm))
        fun _ _ _ _ => rfl
    rw [hmap]
    rfl
  · rw [writeLocks, writeLocks]
    congr 1
    ext k
    rw [Table.mem_ids_filter, Table.mem_ids_filter]
    change (∃ m, (Table.overlay _ _ _).find? k = some m ∧ _) ↔ _
    rw [Table.find?_overlay]
    split_ifs with hk
    · constructor
      · rintro ⟨m, hm, hr⟩
        exact absurd (of_decide_eq_true hr) (hledger k hk m hm)
      · intro hm
        exact absurd hk (Finset.disjoint_left.mp hdisj (Table.mem_ids_filter.mpr hm))
    · rfl

theorem exec_upsertSale {keys : Locks} {rows db : Db} {s : Statement}
    {now : Timestamp} {sale : PreparedSale} {staffId : Option Uuid}
    (hs : s = .upsertSale now sale staffId)
    (h : Undisturbed keys rows db s) (hfree : Disjoint (writeLocks s db) keys) :
    exec s (graft keys rows db) = (exec s db).map (graft keys rows) ∧
      writeLocks s (graft keys rows db) = writeLocks s db := by
  subst hs
  have hsale : sale.id ∉ keys .sales :=
    Finset.disjoint_left.mp (disjoint_lock hfree) (Finset.mem_singleton_self _)
  refine ⟨?_, rfl⟩
  rw [exec, exec, Option.map_some, upsertSale, upsertSale]
  have hfind : (graft keys rows db).sales.find? sale.id = db.sales.find? sale.id := by
    change (Table.overlay _ _ _).find? _ = _
    rw [Table.find?_overlay, if_neg hsale]
  have hput : (graft keys rows db).sales.put sale.id
      (upsertedSale now sale staffId (db.sales.find? sale.id)) =
        Table.overlay (db.sales.put sale.id (upsertedSale now sale staffId
          (db.sales.find? sale.id))) rows.sales (keys .sales) := Table.put_overlay _ hsale
  rw [hfind, hput]
  rfl

theorem exec_deleteItems {keys : Locks} {rows db : Db} {s : Statement}
    {saleId : Uuid} (hs : s = .deleteItems saleId)
    (h : Undisturbed keys rows db s) (hfree : Disjoint (writeLocks s db) keys) :
    exec s (graft keys rows db) = (exec s db).map (graft keys rows) ∧
      writeLocks s (graft keys rows db) = writeLocks s db := by
  subst hs
  have hlines := h.lines saleId rfl
  constructor
  · have hfilter : (graft keys rows db).saleItems.filter (fun _ item => item.saleId != saleId) =
        Table.overlay (db.saleItems.filter fun _ item => item.saleId != saleId) rows.saleItems
          (keys .saleItems) :=
      Table.filter_overlay fun k hk item hitem => by
        simpa using hlines k hk item (Or.inl hitem)
    rw [exec, exec, Option.map_some, deleteItems, deleteItems, hfilter]
    rfl
  · rw [writeLocks, writeLocks, filter_saleItems_graft hlines]
    intro k item hne
    simp [hne]

theorem exec_insertItem {keys : Locks} {rows db : Db} {s : Statement}
    {saleId : Uuid} {line : PreparedLine} (hs : s = .insertItem saleId line)
    (h : Undisturbed keys rows db s) (hfree : Disjoint (writeLocks s db) keys) :
    exec s (graft keys rows db) = (exec s db).map (graft keys rows) ∧
      writeLocks s (graft keys rows db) = writeLocks s db := by
  subst hs
  have hline : line.id ∉ keys .saleItems :=
    Finset.disjoint_left.mp (disjoint_lock hfree) (Finset.mem_singleton_self _)
  have hfind : (graft keys rows db).saleItems.find? line.id = db.saleItems.find? line.id := by
    change (Table.overlay _ _ _).find? _ = _
    rw [Table.find?_overlay, if_neg hline]
  refine ⟨?_, rfl⟩
  rw [exec, exec, insertItem, insertItem, hfind]
  simp only [isNone_products_graft h.stores]
  split_ifs
  · rfl
  · rfl
  · have hput : (graft keys rows db).saleItems.put line.id (storedLine saleId line) =
        Table.overlay (db.saleItems.put line.id (storedLine saleId line)) rows.saleItems
          (keys .saleItems) := Table.put_overlay _ hline
    rw [hput]
    rfl

theorem exec_deductStock {keys : Locks} {rows db : Db} {s : Statement}
    {now : Timestamp} {storeId productId : Uuid} {quantity : Quantity}
    (hs : s = .deductStock now storeId productId quantity)
    (h : Undisturbed keys rows db s) (hfree : Disjoint (writeLocks s db) keys) :
    exec s (graft keys rows db) = (exec s db).map (graft keys rows) ∧
      writeLocks s (graft keys rows db) = writeLocks s db := by
  subst hs
  let q : Uuid → Uuid → Bool := fun id store => id == productId && store == storeId
  have hids := ids_filter_graft h.stores q
  have hdisj : Disjoint (db.products.filter fun id p => q id p.storeId).ids (keys .products) :=
    disjoint_lock hfree
  constructor
  · rw [exec, exec, Option.map_some, deductStock, deductStock,
      mapRows_products_graft h.stores q ?_ hdisj]
    · rfl
    · intro id p hq
      exact if_neg fun hc => by simp [q, hc] at hq
  · exact congrArg (lock .products) hids

theorem exec_insertMovement {keys : Locks} {rows db : Db} {s : Statement}
    {id : Uuid} {movement : StockMovement} (hs : s = .insertMovement id movement)
    (h : Undisturbed keys rows db s) (hfree : Disjoint (writeLocks s db) keys) :
    exec s (graft keys rows db) = (exec s db).map (graft keys rows) ∧
      writeLocks s (graft keys rows db) = writeLocks s db := by
  subst hs
  have hid : id ∉ keys .stockMovements :=
    Finset.disjoint_left.mp (disjoint_lock hfree) (Finset.mem_singleton_self _)
  have hfind : (graft keys rows db).stockMovements.find? id = db.stockMovements.find? id := by
    change (Table.overlay _ _ _).find? _ = _
    rw [Table.find?_overlay, if_neg hid]
  refine ⟨?_, rfl⟩
  rw [exec, exec, insertMovement, insertMovement, hfind, isNone_products_graft h.stores]
  have hput : (graft keys rows db).stockMovements.put id movement =
      Table.overlay (db.stockMovements.put id movement) rows.stockMovements
        (keys .stockMovements) := Table.put_overlay _ hid
  rw [hput]
  split_ifs <;> rfl

theorem exec_markVoided {keys : Locks} {rows db : Db} {s : Statement}
    {now : Timestamp} {saleId : Uuid} {voided : Sale} (hs : s = .markVoided now saleId voided)
    (h : Undisturbed keys rows db s) (hfree : Disjoint (writeLocks s db) keys) :
    exec s (graft keys rows db) = (exec s db).map (graft keys rows) ∧
      writeLocks s (graft keys rows db) = writeLocks s db := by
  subst hs
  have hsale : saleId ∉ keys .sales :=
    Finset.disjoint_left.mp (disjoint_lock hfree) (Finset.mem_singleton_self _)
  have hput : ∀ r, (graft keys rows db).sales.put saleId r =
      Table.overlay (db.sales.put saleId r) rows.sales (keys .sales) :=
    fun r => Table.put_overlay r hsale
  refine ⟨?_, rfl⟩
  rw [exec, exec, Option.map_some, markVoided, markVoided, hput]
  rfl

theorem exec_insertMovementOnce {keys : Locks} {rows db : Db} {s : Statement}
    {id : Uuid} {movement : StockMovement} (hs : s = .insertMovementOnce id movement)
    (h : Undisturbed keys rows db s) (hfree : Disjoint (writeLocks s db) keys) :
    exec s (graft keys rows db) = (exec s db).map (graft keys rows) ∧
      writeLocks s (graft keys rows db) = writeLocks s db := by
  subst hs
  have hid : id ∉ keys .stockMovements :=
    Finset.disjoint_left.mp (disjoint_lock hfree) (Finset.mem_singleton_self _)
  have hfind : (graft keys rows db).stockMovements.find? id = db.stockMovements.find? id := by
    change (Table.overlay _ _ _).find? _ = _
    rw [Table.find?_overlay, if_neg hid]
  refine ⟨?_, rfl⟩
  have hput : (graft keys rows db).stockMovements.put id movement =
      Table.overlay (db.stockMovements.put id movement) rows.stockMovements
        (keys .stockMovements) := Table.put_overlay _ hid
  rw [exec, exec, hfind, hput]
  split_ifs <;> rfl

theorem exec_moveStock {keys : Locks} {rows db : Db} {s : Statement}
    {now : Timestamp} {storeId productId : Uuid} {delta : Quantity}
    {unitCost : Money} (hs : s = .moveStock now storeId productId delta unitCost)
    (h : Undisturbed keys rows db s) (hfree : Disjoint (writeLocks s db) keys) :
    exec s (graft keys rows db) = (exec s db).map (graft keys rows) ∧
      writeLocks s (graft keys rows db) = writeLocks s db := by
  subst hs
  let q : Uuid → Uuid → Bool := fun id store => id == productId && store == storeId
  have hids := ids_filter_graft h.stores q
  have hdisj : Disjoint (db.products.filter fun id p => q id p.storeId).ids (keys .products) :=
    disjoint_lock hfree
  constructor
  · rw [exec, exec, Option.map_some, mapRows_products_graft h.stores q ?_ hdisj]
    · rfl
    · intro id p hq
      exact if_neg fun hc => by simp [q, hc] at hq
  · exact congrArg (lock .products) hids

/-- A statement that is undisturbed does over somebody else's rows what it
does without them, and locks the same rows. -/
theorem exec_of_undisturbed {keys : Locks} {rows db : Db} {s : Statement}
    (h : Undisturbed keys rows db s) (hfree : Disjoint (writeLocks s db) keys) :
    exec s (graft keys rows db) = (exec s db).map (graft keys rows) ∧
      writeLocks s (graft keys rows db) = writeLocks s db := by
  cases s with
  | restoreStockFor now saleId storeId =>
    exact exec_restoreStockFor rfl h hfree
  | retireMovementsFor now saleId storeId =>
    exact exec_retireMovementsFor rfl h hfree
  | upsertSale now sale staffId =>
    exact exec_upsertSale rfl h hfree
  | deleteItems saleId =>
    exact exec_deleteItems rfl h hfree
  | insertItem saleId line =>
    exact exec_insertItem rfl h hfree
  | deductStock now storeId productId quantity =>
    exact exec_deductStock rfl h hfree
  | insertMovement id movement =>
    exact exec_insertMovement rfl h hfree
  | markVoided now saleId s =>
    exact exec_markVoided rfl h hfree
  | insertMovementOnce id movement =>
    exact exec_insertMovementOnce rfl h hfree
  | moveStock now storeId productId delta unitCost =>
    exact exec_moveStock rfl h hfree

/-- A statement leaves the lines it does not lock. -/
theorem find?_saleItems_exec {s : Statement} {db v : Db} (h : exec s db = some v) {k : Uuid}
    (hk : k ∉ writeLocks s db .saleItems) : v.saleItems.find? k = db.saleItems.find? k := by
  have hv := congrArg (fun d : Db => d.saleItems.find? k) (exec_graft h)
  simpa [graft, hk] using hv.symm

/-- Products stay in their stores. -/
theorem stores_exec {s : Statement} {db v : Db} (h : exec s db = some v) (k : Uuid) :
    (v.products.find? k).map Product.storeId = (db.products.find? k).map Product.storeId := by
  cases s with
  | restoreStockFor now saleId storeId =>
    cases h
    simp only [restoreStockFor, Table.find?_mapRows, Option.map_map, Function.comp_def,
      restored_storeId]
  | deductStock now storeId productId quantity =>
    cases h
    simp only [deductStock, Table.find?_mapRows, Option.map_map]
    congr 1
    funext p
    simp only [Function.comp]
    split_ifs <;> rfl
  | moveStock now storeId productId delta unitCost =>
    cases h
    simp only [Table.find?_mapRows, Option.map_map]
    congr 1
    funext p
    simp only [Function.comp, movedStock]
    split_ifs <;> rfl
  | insertItem saleId line =>
    obtain ⟨_, _, rfl⟩ := insertItem_eq_ok.mp (of_toOption_eq_some h)
    rfl
  | insertMovement id movement =>
    obtain ⟨_, _, rfl⟩ := insertMovement_eq_ok.mp (of_toOption_eq_some h)
    rfl
  | insertMovementOnce id movement =>
    rw [exec] at h
    split_ifs at h
    cases h
    rfl
  | retireMovementsFor now saleId storeId =>
    cases h
    rfl
  | upsertSale now sale staffId =>
    cases h
    rfl
  | deleteItems saleId =>
    cases h
    rfl
  | markVoided now saleId s =>
    cases h
    rfl

/-- No statement takes a sale away. -/
theorem sales_exec {s : Statement} {db v : Db} (h : exec s db = some v) {k : Uuid}
    (hk : db.sales.find? k ≠ none) : v.sales.find? k ≠ none := by
  cases s with
  | upsertSale now sale staffId =>
    cases h
    rw [upsertSale, Table.find?_put]
    split_ifs
    · exact Option.some_ne_none _
    · exact hk
  | markVoided now saleId s =>
    cases h
    rw [markVoided, Table.find?_put]
    split_ifs
    · exact Option.some_ne_none _
    · exact hk
  | insertItem saleId line =>
    obtain ⟨_, _, rfl⟩ := insertItem_eq_ok.mp (of_toOption_eq_some h)
    exact hk
  | insertMovement id movement =>
    obtain ⟨_, _, rfl⟩ := insertMovement_eq_ok.mp (of_toOption_eq_some h)
    exact hk
  | insertMovementOnce id movement =>
    rw [exec] at h
    split_ifs at h
    cases h
    exact hk
  | restoreStockFor now saleId storeId =>
    cases h
    exact hk
  | retireMovementsFor now saleId storeId =>
    cases h
    exact hk
  | deleteItems saleId =>
    cases h
    exact hk
  | deductStock now storeId productId quantity =>
    cases h
    exact hk
  | moveStock now storeId productId delta unitCost =>
    cases h
    exact hk

/-- The line under a key, if there is one, is of the sale. -/
def LineOf (saleId k : Uuid) (db : Db) : Prop :=
  ∀ item, db.saleItems.find? k = some item → item.saleId = saleId

/-- A statement on the lines of one sale puts no others in their place. -/
theorem lineOf_exec {s : Statement} {db v : Db} {saleId : Uuid} (h : exec s db = some v)
    (hs : ∀ id, s.linesOf = some id → id = saleId) {k : Uuid} (hk : LineOf saleId k db) :
    LineOf saleId k v := by
  by_cases hlock : k ∈ writeLocks s db .saleItems
  · cases s with
    | deleteItems id =>
      cases h
      intro item hitem
      exact hk item (Table.find?_filter_eq_some.mp hitem).1
    | insertItem id line =>
      obtain ⟨_, _, rfl⟩ := insertItem_eq_ok.mp (of_toOption_eq_some h)
      intro item hitem
      rw [Table.find?_put] at hitem
      split_ifs at hitem
      · cases hitem
        exact hs id rfl
      · exact hk item hitem
    | _ => cases hlock
  · intro item hitem
    rw [find?_saleItems_exec h hlock] at hitem
    exact hk item hitem

/-- The lines a statement locks are of its sale. -/
theorem lineOf_of_locked {s : Statement} {db v : Db} (h : exec s db = some v) {k : Uuid}
    (hlock : k ∈ writeLocks s db .saleItems) :
    ∃ saleId, s.linesOf = some saleId ∧ LineOf saleId k db := by
  cases s with
  | deleteItems id =>
    obtain ⟨item, hitem, hid⟩ := Table.mem_ids_filter.mp hlock
    refine ⟨id, rfl, fun item' hitem' => ?_⟩
    rw [hitem, Option.some.injEq] at hitem'
    exact hitem' ▸ beq_iff_eq.mp hid
  | insertItem id line =>
    obtain ⟨hfree, _, _⟩ := insertItem_eq_ok.mp (of_toOption_eq_some h)
    rw [Finset.mem_singleton.mp hlock]
    refine ⟨id, rfl, fun item hitem => ?_⟩
    rw [hfree] at hitem
    cases hitem
  | _ => cases hlock

/-- An undisturbed statement stays so while its transaction goes on. -/
theorem Undisturbed.exec {keys : Locks} {rows db v : Db} {s s' : Statement}
    (h : Undisturbed keys rows db s') (hexec : exec s db = some v)
    (hfree : Disjoint (writeLocks s db) keys) : Undisturbed keys rows v s' where
  stores k hk := by rw [stores_exec hexec, h.stores k hk]
  lines saleId hs k hk item hitem := by
    have hlock : k ∉ writeLocks s db .saleItems := fun hl =>
      Finset.disjoint_left.mp (Pi.disjoint_iff.mp hfree .saleItems) hl hk
    rw [find?_saleItems_exec hexec hlock] at hitem
    exact h.lines saleId hs k hk item hitem
  ledger := h.ledger

theorem stores_replay {stmts : List Statement} {db v : Db} {l k : Locks}
    (h : stock.replay stmts (db, l) = some (v, k)) (id : Uuid) :
    (v.products.find? id).map Product.storeId = (db.products.find? id).map Product.storeId := by
  induction stmts generalizing db l with
  | nil =>
    cases h
    rfl
  | cons s rest ih =>
    obtain ⟨db', hexec, h⟩ := Option.bind_eq_some_iff.mp h
    rw [ih h, stores_exec hexec]

theorem sales_replay {stmts : List Statement} {db v : Db} {l k : Locks}
    (h : stock.replay stmts (db, l) = some (v, k)) {id : Uuid} (hid : db.sales.find? id ≠ none) :
    v.sales.find? id ≠ none := by
  induction stmts generalizing db l with
  | nil =>
    cases h
    exact hid
  | cons s rest ih =>
    obtain ⟨db', hexec, h⟩ := Option.bind_eq_some_iff.mp h
    exact ih h (sales_exec hexec hid)

theorem lineOf_replay {stmts : List Statement} {db v : Db} {l k : Locks} {saleId : Uuid}
    (h : stock.replay stmts (db, l) = some (v, k))
    (hs : ∀ s ∈ stmts, ∀ id, s.linesOf = some id → id = saleId) {id : Uuid}
    (hid : LineOf saleId id db) : LineOf saleId id v := by
  induction stmts generalizing db l with
  | nil =>
    cases h
    exact hid
  | cons s rest ih =>
    obtain ⟨db', hexec, h⟩ := Option.bind_eq_some_iff.mp h
    exact ih h (fun s' hs' => hs s' (List.mem_cons_of_mem _ hs'))
      (lineOf_exec hexec (hs s List.mem_cons_self) hid)

/-- The lines a transaction on one sale has locked were of that sale, and
are now. -/
theorem lineOf_of_replay {stmts : List Statement} {db v : Db} {l k : Locks} {saleId : Uuid}
    (h : stock.replay stmts (db, l) = some (v, k))
    (hs : ∀ s ∈ stmts, ∀ id, s.linesOf = some id → id = saleId) {id : Uuid}
    (hid : id ∈ k .saleItems) :
    id ∈ l .saleItems ∨ (∃ s ∈ stmts, s.linesOf = some saleId) ∧
      LineOf saleId id db ∧ LineOf saleId id v := by
  induction stmts generalizing db l with
  | nil =>
    cases h
    exact Or.inl hid
  | cons s rest ih =>
    have hreplay := h
    obtain ⟨db', hexec, h⟩ := Option.bind_eq_some_iff.mp h
    have hrest : ∀ s' ∈ rest, ∀ id, s'.linesOf = some id → id = saleId :=
      fun s' hs' => hs s' (List.mem_cons_of_mem _ hs')
    by_cases hlock : id ∈ writeLocks s db .saleItems
    · obtain ⟨saleId', hlines, hof⟩ := lineOf_of_locked hexec hlock
      have he := hs s List.mem_cons_self saleId' hlines
      subst he
      exact Or.inr ⟨⟨s, List.mem_cons_self, hlines⟩, hof, lineOf_replay hreplay hs hof⟩
    · rcases ih h hrest with hl | ⟨⟨s', hs', hlines⟩, hof, hv⟩
      · exact Or.inl ((Finset.mem_union.mp hl).resolve_right hlock)
      · refine Or.inr ⟨⟨s', List.mem_cons_of_mem _ hs', hlines⟩, fun item hitem => ?_, hv⟩
        exact hof item (by rw [find?_saleItems_exec hexec hlock]; exact hitem)

theorem linesOf_lineStatements {now : Timestamp} {drawn : ℕ → Uuid} {sale : PreparedSale}
    {lines : List PreparedLine} {i : ℕ} {s : Statement}
    (h : s ∈ lineStatements now drawn sale lines i) {id : Uuid} (hs : s.linesOf = some id) :
    id = sale.id := by
  induction lines generalizing i with
  | nil => cases h
  | cons line rest ih =>
    rw [lineStatements, List.cons_append, List.mem_cons, List.mem_append] at h
    rcases h with rfl | h | h
    · exact (Option.some.inj hs).symm
    · cases hp : line.productId with
      | none =>
        rw [hp] at h
        cases h
      | some productId =>
        rw [hp] at h
        simp only [List.mem_cons, List.not_mem_nil, or_false] at h
        rcases h with rfl | rfl <;> cases hs
    · exact ih h

theorem linesOf_writeStatements {now : Timestamp} {drawn : ℕ → Uuid} {sale : PreparedSale}
    {recorder : Recorder} {s : Statement} (h : s ∈ writeStatements now drawn sale recorder)
    {id : Uuid} (hs : s.linesOf = some id) : id = sale.id := by
  rw [writeStatements, List.mem_cons, List.mem_cons] at h
  rcases h with rfl | rfl | h
  · cases hs
  · exact (Option.some.inj hs).symm
  · exact linesOf_lineStatements h hs

/-- The statements of a request are on the lines of its sale. -/
theorem linesOf_plan {r : Request} {db : Db} {stmts : List Statement}
    (h : plan r db = some stmts) {s : Statement} (hs : s ∈ stmts) {id : Uuid}
    (hlines : s.linesOf = some id) : r.saleId = some id := by
  cases r with
  | record now drawn sale recorder =>
    have hsale : id = sale.id := by
      rw [plan] at h
      split at h
      · cases h
        exact linesOf_writeStatements hs hlines
      · split_ifs at h
        · cases h
          cases hs
        · cases h
          rw [List.mem_cons, List.mem_cons] at hs
          rcases hs with rfl | rfl | hs
          · exact (Option.some.inj hlines).symm
          · cases hlines
          · exact linesOf_writeStatements hs hlines
    rw [hsale]
    rfl
  | void now storeId saleId =>
    obtain ⟨sale, _, rfl⟩ := Option.map_eq_some_iff.mp h
    simp only [List.mem_cons, List.not_mem_nil, or_false] at hs
    rcases hs with rfl | rfl | rfl
    · cases hlines
    · exact hlines
    · cases hlines
  | recordMovement now entry =>
    obtain ⟨p, _, rfl⟩ := Option.map_eq_some_iff.mp h
    simp only [List.mem_cons, List.not_mem_nil, or_false] at hs
    rcases hs with rfl | rfl <;> cases hlines

/-- A transaction in progress. -/
abbrev Txn := Transaction Db Locks Statement Request

/-- A transaction has its sale locked once it has issued a statement. -/
theorem saleId_locked {c : Db} {t : Txn} (h : stock.Sound c t) {id : Uuid}
    (hid : t.request.saleId = some id) : id ∈ t.locks .sales ∨ t.executed = [] := by
  have hread : readLocks t.request c ≤ t.locks := stock.le_of_replay h.replay
  have hplan := h.plan
  change plan t.request c = _ at hplan
  generalize hr : t.request = r at hid hread hplan
  cases r with
  | record now drawn sale recorder =>
    cases hid
    rw [plan] at hplan
    cases hfind : c.sales.find? sale.id with
    | some existing =>
      refine Or.inl (hread .sales (Table.mem_ids_filter.mpr ⟨existing, hfind, ?_⟩))
      exact beq_self_eq_true _
    | none =>
      rw [hfind] at hplan
      cases hexecuted : t.executed with
      | nil => exact Or.inr rfl
      | cons s rest =>
        -- its first statement was the insert
        rw [hexecuted] at hplan
        have hs : s = .upsertSale now sale recorder.staffId :=
          (List.cons.inj (Option.some.inj hplan)).1.symm
        have hreplay := h.replay
        rw [hexecuted, hs] at hreplay
        obtain ⟨db', _, hreplay⟩ := Option.bind_eq_some_iff.mp hreplay
        have hle := stock.le_of_replay hreplay
        exact Or.inl (hle .sales (Finset.mem_union_right _ (Finset.mem_singleton_self _)))
  | void now storeId saleId =>
    cases hid
    obtain ⟨sale, hlive, _⟩ := Option.map_eq_some_iff.mp hplan
    obtain ⟨hfind, hstore, hdeleted⟩ := findLive_eq_some.mp hlive
    refine Or.inl (hread .sales (Table.mem_ids_filter.mpr ⟨sale, hfind, ?_⟩))
    simp [hstore, hdeleted]
  | recordMovement now entry => cases hid

/-- The next statement inserts a sale that is there already. -/
def insertsKnown (c : Db) : List Statement → Bool
  | .upsertSale _ sale _ :: _ => (c.sales.find? sale.id).isSome
  | _ => false

/-- A transaction about to insert a sale that it did not find, when it is
there by now. -/
def Overtaken (c : Db) (t : Txn) : Prop := t.executed.isEmpty = true ∧ insertsKnown c t.todo = true

instance (c : Db) (t : Txn) : Decidable (Overtaken c t) := inferInstanceAs (Decidable (_ ∧ _))

/-- A commit brings no live ledger row of a sale whose rows the other
transaction has retired already. -/
def LeavesLedger (t u : Txn) : Prop :=
  ∀ s ∈ t.executed, ∀ sale ∈ s.retires, ∀ k ∈ u.locks .stockMovements,
    ∀ m ∈ u.rows.stockMovements.find? k, ¬ RetiredWith sale.1 sale.2 m

instance (t u : Txn) : Decidable (LeavesLedger t u) :=
  inferInstanceAs (Decidable (∀ s ∈ t.executed, _))

/-- What another transaction commits leaves a transaction's statements
undisturbed. -/
theorem undisturbed_of_sound {c : Db} {t u : Txn} (ht : stock.Sound c t) (hu : stock.Sound c u)
    (hapart : Disjoint t.locks u.locks) (hledger : LeavesLedger t u) {s : Statement}
    (hs : s ∈ t.executed) : Undisturbed u.locks u.rows c s where
  stores k hk := by
    have hview : (stock.view c u).products.find? k = u.rows.products.find? k := by
      change (Table.overlay _ _ _).find? k = _
      rw [Table.find?_overlay, if_pos hk]
    rw [← hview]
    exact stores_replay hu.replay k
  lines saleId hlines k hk item hitem := by
    have htsale : t.request.saleId = some saleId :=
      linesOf_plan ht.plan (List.mem_append_left _ hs) hlines
    have htlocked : saleId ∈ t.locks .sales :=
      (saleId_locked ht htsale).resolve_right fun he => by
        rw [he] at hs
        cases hs
    have hnone : k ∉ readLocks u.request c .saleItems := by
      cases u.request <;> exact Finset.notMem_empty k
    -- the other transaction's lines are of another sale
    have hother : ∀ other, u.request.saleId = some other →
        saleId ≠ other ∧ LineOf other k c ∧ LineOf other k (stock.view c u) := by
      intro other hother
      obtain ⟨⟨s', hs', _⟩, hof, hv⟩ := (lineOf_of_replay hu.replay (fun s' hs' id hid => by
        have h := linesOf_plan hu.plan (List.mem_append_left _ hs') hid
        rw [hother] at h
        exact (Option.some.inj h).symm) hk).resolve_left hnone
      have hulocked : other ∈ u.locks .sales :=
        (saleId_locked hu hother).resolve_right fun he => by
          rw [he] at hs'
          cases hs'
      refine ⟨?_, hof, hv⟩
      rintro rfl
      exact Finset.disjoint_left.mp (Pi.disjoint_iff.mp hapart .sales) htlocked hulocked
    cases husale : u.request.saleId with
    | none =>
      obtain ⟨⟨s', hs', hlines'⟩, _⟩ := (@lineOf_of_replay _ _ _ _ _ saleId hu.replay
        (fun s' hs' id hid => by
          have h := linesOf_plan hu.plan (List.mem_append_left _ hs') hid
          rw [husale] at h
          cases h) _ hk).resolve_left hnone
      have h := linesOf_plan hu.plan (List.mem_append_left _ hs') hlines'
      rw [husale] at h
      cases h
    | some other =>
      obtain ⟨hne, hof, hv⟩ := hother other husale
      have hitem' : item.saleId = other := by
        rcases hitem with hitem | hitem
        · apply hv
          change (Table.overlay _ _ _).find? k = _
          rw [Table.find?_overlay, if_pos hk, hitem]
        · exact hof item hitem
      rw [hitem']
      exact hne.symm
  ledger saleId storeId hretires k hk m hm := hledger s hs (saleId, storeId) hretires k hk m hm

/-- The first read of a request depends on the row it names only. -/
theorem record_reads {now : Timestamp} {drawn : ℕ → Uuid} {sale : PreparedSale}
    {recorder : Recorder} {c c' : Db} (h : c'.sales.find? sale.id = c.sales.find? sale.id) :
    plan (.record now drawn sale recorder) c' = plan (.record now drawn sale recorder) c ∧
      readLocks (.record now drawn sale recorder) c' =
        readLocks (.record now drawn sale recorder) c := by
  refine ⟨by rw [plan, plan, h], ?_⟩
  rw [readLocks, readLocks, Table.filter_eq_of_key (fun _ _ hp => beq_iff_eq.mp hp) h]

theorem void_reads {now : Timestamp} {storeId saleId : Uuid} {c c' : Db}
    (h : c'.sales.find? saleId = c.sales.find? saleId) :
    plan (.void now storeId saleId) c' = plan (.void now storeId saleId) c ∧
      readLocks (.void now storeId saleId) c' = readLocks (.void now storeId saleId) c := by
  refine ⟨by rw [plan, plan, findLive, findLive, h], ?_⟩
  rw [readLocks, readLocks, @Table.filter_eq_of_key _ _ _ _ _ saleId (fun j r hp => ?_) h]
  simp only [Bool.and_eq_true, beq_iff_eq] at hp
  exact hp.1.1

theorem recordMovement_reads {now : Timestamp} {entry : LedgerEntry} {c c' : Db}
    (h : c'.products.find? entry.productId = c.products.find? entry.productId) :
    plan (.recordMovement now entry) c' = plan (.recordMovement now entry) c ∧
      readLocks (.recordMovement now entry) c' = readLocks (.recordMovement now entry) c := by
  refine ⟨by rw [plan, plan, ProductService.find, ProductService.find, h], ?_⟩
  rw [readLocks, readLocks, @Table.filter_eq_of_key _ _ _ _ _ entry.productId (fun j r hp => ?_) h]
  simp only [Bool.and_eq_true, beq_iff_eq] at hp
  exact hp.1.1

/-- After another transaction commits, a transaction's first read would read
what it did, unless a sale it did not find was recorded. -/
theorem reads_of_sound {c : Db} {t u : Txn} (ht : stock.Sound c t)
    (hapart : Disjoint t.locks u.locks) :
    (plan t.request (stock.view c u) = plan t.request c ∧
      readLocks t.request (stock.view c u) = readLocks t.request c) ∨
        Overtaken (stock.view c u) t := by
  have hread : readLocks t.request c ≤ t.locks := stock.le_of_replay ht.replay
  have hfree := Pi.disjoint_iff.mp hapart
  have hsale : ∀ id ∈ t.locks .sales, (stock.view c u).sales.find? id = c.sales.find? id := by
    intro id hid
    change (Table.overlay _ _ _).find? id = _
    rw [Table.find?_overlay, if_neg (Finset.disjoint_left.mp (hfree .sales) hid)]
  have hlocked : ∀ id, t.request.saleId = some id → id ∈ t.locks .sales ∨ t.executed = [] :=
    fun id => saleId_locked ht
  have hplan := ht.plan
  change plan t.request c = _ at hplan
  generalize hr : t.request = r at hread hlocked hplan
  cases r with
  | record now drawn sale recorder =>
    by_cases hid : sale.id ∈ t.locks .sales
    · exact Or.inl (record_reads (hsale sale.id hid))
    · have hexecuted := (hlocked sale.id rfl).resolve_left hid
      have hnone : c.sales.find? sale.id = none := by
        by_contra hn
        obtain ⟨existing, hfind⟩ := Option.ne_none_iff_exists'.mp hn
        exact hid (hread .sales (Table.mem_ids_filter.mpr ⟨existing, hfind, beq_self_eq_true _⟩))
      by_cases hview : (stock.view c u).sales.find? sale.id = none
      · exact Or.inl (record_reads (hview.trans hnone.symm))
      · rw [plan, hnone, hexecuted, List.nil_append] at hplan
        refine Or.inr ⟨by rw [hexecuted, List.isEmpty_nil], ?_⟩
        rw [← Option.some.inj hplan]
        exact Option.isSome_iff_ne_none.mpr hview
  | void now storeId saleId =>
    obtain ⟨sale, hlive, _⟩ := Option.map_eq_some_iff.mp hplan
    obtain ⟨hfind, hstore, hdeleted⟩ := findLive_eq_some.mp hlive
    refine Or.inl (void_reads (hsale saleId (hread .sales
      (Table.mem_ids_filter.mpr ⟨sale, hfind, ?_⟩))))
    simp [hstore, hdeleted]
  | recordMovement now entry =>
    obtain ⟨p, hlive, _⟩ := Option.map_eq_some_iff.mp hplan
    obtain ⟨hfind, hstore, hdeleted⟩ := ProductService.find_eq_some.mp hlive
    have hid : entry.productId ∈ t.locks .products := by
      refine hread .products (Table.mem_ids_filter.mpr ⟨p, hfind, ?_⟩)
      simp [hstore, hdeleted]
    refine Or.inl (recordMovement_reads ?_)
    change (Table.overlay _ _ _).find? _ = _
    rw [Table.find?_overlay, if_neg (Finset.disjoint_left.mp (hfree .products) hid)]

/-- The two predicates are what the library asks for. -/
theorem stock_admits : stock.Admits Overtaken LeavesLedger where
  todo := by
    rintro c t ⟨_, ho⟩ htodo
    rw [htodo] at ho
    cases ho
  stays := by
    rintro c t u ⟨hexecuted, ho⟩ hu
    refine ⟨hexecuted, ?_⟩
    unfold insertsKnown at ho ⊢
    split at ho
    · exact Option.isSome_iff_ne_none.mpr
        (sales_replay hu.replay (Option.isSome_iff_ne_none.mp ho))
    · cases ho
  commit := by
    intro c t u ht hu hapart hledger
    rcases reads_of_sound ht hapart with ⟨hplan, hread⟩ | hovertaken
    · refine Or.inl ⟨hplan.trans ht.plan, ?_⟩
      have hreplay := stock.replay_graft (fun db s => Undisturbed u.locks u.rows db s)
        exec_of_undisturbed Undisturbed.exec ht.replay hapart
        (fun s hs => undisturbed_of_sound ht hu hapart hledger hs)
      have hview : stock.view (stock.view c u) t = graft u.locks u.rows (stock.view c t) :=
        graft_comm _ _ _ hapart
      rw [hview]
      change stock.replay t.executed (stock.view c u, readLocks t.request (stock.view c u)) = _
      rw [hread]
      exact hreplay
    · exact Or.inr hovertaken

theorem serial_eq_inTurn (requests : List Request) (db : Db) :
    stock.serial requests db = inTurn requests db := by
  induction requests generalizing db with
  | nil => rfl
  | cons r rest ih =>
    rw [Engine.serial, inTurn, perform_eq]
    exact congrArg (Option.bind _) (funext ih)

/-- The same stock, the same sale lines and the same live movements. -/
structure SameStock (a b : Db) : Prop where
  /-- The stock of every product. -/
  stock : ∀ id, (a.products.find? id).map Product.stockQuantity =
    (b.products.find? id).map Product.stockQuantity
  /-- The lines. -/
  saleItems : a.saleItems = b.saleItems
  /-- The live rows of the ledger. -/
  live : (a.stockMovements.filter fun _ m => m.deletedAt.isNone) =
    b.stockMovements.filter fun _ m => m.deletedAt.isNone

theorem SameStock.refl (db : Db) : SameStock db db := ⟨fun _ => rfl, rfl, rfl⟩

/-- The server. -/
abbrev Server := State Db Locks Statement Request

/-- Some serial order of the committed requests leaves the stock as it is. -/
def SerialInEffect (before : Db) (s : Server) : Prop :=
  ∃ order, order.Perm s.log ∧ ∃ db, inTurn order before = some db ∧ SameStock db s.committed

/-- Transactions that move stock are serial in effect, in every run in which
no recording that did not find its sale inserts it when it is there, and no
commit leaves a live ledger row under a sale whose rows somebody is
retiring. -/
theorem serialInEffect_of_safeRun (before : Db) (actions : List (Action Request)) (s : Server)
    (hsafe : stock.SafeRun Overtaken LeavesLedger (State.initial before) actions)
    (hrun : stock.run (State.initial before) actions = some s) : SerialInEffect before s := by
  have hserial : stock.serial s.log before = some s.committed :=
    stock.serial_of_safeRun stock_admits (stock.inv_initial before) hsafe hrun
  rw [serial_eq_inTurn] at hserial
  exact ⟨s.log, List.Perm.refl _, s.committed, hserial, SameStock.refl _⟩

/-- A product of store 1, ten on the shelf. -/
def shelf : Db := { Db.empty with
  products := Table.empty.put ⟨10⟩
    { storeId := ⟨1⟩, name := "rice", barcode := none, unitLabel := "pcs", costPrice := 30,
      sellingPrice := 50, stockQuantity := 10, reorderLevel := 0, isActive := true,
      updatedAt := 0, deletedAt := none } }

/-- A sale of two of them, under ids of its own. -/
def twoSold (id line : Uuid) : PreparedSale where
  id := id
  storeId := ⟨1⟩
  paymentMethod := "cash"
  totalAmount := 100
  costAmount := 60
  discountAmount := 0
  note := none
  occurredAt := 1
  lines := [⟨line, some ⟨10⟩, "rice", 2, 50, 30, 100⟩]

/-- The owner records it. -/
def recording (id line : Uuid) (draws : ℕ) : Request :=
  .record 2 (fun i => ⟨draws + i⟩) (twoSold id line) ⟨none, true⟩

/-- Two sales at the same time, the second waiting for the product. -/
def twoSales : List (Action Request) :=
  [.start 0 (recording ⟨20⟩ ⟨21⟩ 100), .start 1 (recording ⟨30⟩ ⟨31⟩ 200),
    .next 0, .next 1, .next 0, .next 0, .next 1, .next 1, .next 0, .next 0, .commit 0,
    .next 1, .next 1, .commit 1]

theorem serialInEffect_twoSales : ∃ s, stock.run (State.initial shelf) twoSales = some s ∧
    SerialInEffect shelf s := by
  obtain ⟨s, hs⟩ : ∃ s, stock.run (State.initial shelf) twoSales = some s :=
    Option.isSome_iff_exists.mp (by decide +kernel)
  exact ⟨s, hs, serialInEffect_of_safeRun shelf twoSales s (by decide +kernel) hs⟩

/-- One sale pushed twice for the first time, the second before the first is
committed. -/
def sameSaleTwice : List (Action Request) :=
  [.start 0 (recording ⟨20⟩ ⟨21⟩ 100), .start 1 (recording ⟨20⟩ ⟨21⟩ 200),
    .next 1, .next 1, .next 1, .next 1, .next 1, .commit 1,
    .next 0, .next 0, .next 0, .next 0, .next 0, .commit 0]

/-- What starts is of one store. -/
def OfStore (storeId : Uuid) : Action Request → Prop
  | .start _ r => r.storeId = storeId
  | _ => True

/-- Both take their two from the shelf: six are left, and eight after any
serial order. -/
theorem not_serialInEffect : ¬ ∀ (storeId : Uuid) (before : Db) (actions : List (Action Request))
    (s : Server), (∀ a ∈ actions, OfStore storeId a) →
      stock.run (State.initial before) actions = some s → SerialInEffect before s := by
  intro h
  obtain ⟨s, hs⟩ : ∃ s, stock.run (State.initial shelf) sameSaleTwice = some s :=
    Option.isSome_iff_exists.mp (by decide +kernel)
  obtain ⟨order, hperm, db, hdb, hsame⟩ := h ⟨1⟩ shelf sameSaleTwice s
    (by simp [sameSaleTwice, OfStore, Request.storeId, recording, twoSold]) hs
  have hmissed : ∀ s ∈ stock.run (State.initial shelf) sameSaleTwice,
      ∀ order ∈ s.log.permutations', ∀ db ∈ inTurn order shelf,
        (db.products.find? ⟨10⟩).map Product.stockQuantity ≠
          (s.committed.products.find? ⟨10⟩).map Product.stockQuantity := by
    decide +kernel
  exact hmissed s hs order (List.mem_permutations'.mpr hperm) db hdb (hsame.stock ⟨10⟩)

end Kitaza.ConcurrentStock
