import Kitaza.PullCompleteness

/-!
# What somebody without profit access can see of the costs

Two states of the server that agree on everything but cost figures,
expenses and withdrawals are the same to a pull by somebody who does not
hold the profit permission: the pages, the lines, the cursor and whether
there is more.
-/

namespace Kitaza.CostMasking

open KeyedTable KeysetPaging Primitives Access Schema SyncPull PullCompleteness

/-- A sale line without its cost. -/
def maskedLines (db : Db) : Table Uuid SaleItem := db.saleItems.mapRows fun _ => zeroLineCost

/-- The database without cost figures. -/
def withoutCosts (db : Db) : Db :=
  { db with
    products := db.products.mapRows fun _ => zeroCost .products
    sales := db.sales.mapRows fun _ => zeroCost .sales
    saleItems := maskedLines db
    stockMovements := db.stockMovements.mapRows fun _ => zeroCost .stockMovements }

/-- The part of the database that is shown to somebody without profit
access: neither cost figures nor expenses, withdrawals or the log. -/
def publicPart (db : Db) : Db :=
  { withoutCosts db with
    expenses := Table.empty
    ownerWithdrawals := Table.empty
    auditEvents := [] }

/-- Two states that differ in nothing but cost figures and the contents of
the withheld tables. -/
def SamePublicly (a b : Db) : Prop := publicPart a = publicPart b

/-- A table that is not withheld, without its costs, is public. -/
theorem rows_publicPart {table : SyncTable} (h : table.withheld = false) (db : Db) :
    table.rows (publicPart db) = (table.rows db).mapRows fun _ => zeroCost table := by
  cases table with
  | expenses => cases h
  | withdrawals => cases h
  | _ => rfl

theorem SamePublicly.rows {a b : Db} (hs : SamePublicly a b) {table : SyncTable}
    (h : table.withheld = false) :
    ((table.rows a).mapRows fun _ => zeroCost table) =
      (table.rows b).mapRows fun _ => zeroCost table := by
  rw [← rows_publicPart h, ← rows_publicPart h, hs]

theorem SamePublicly.lines {a b : Db} (hs : SamePublicly a b) : maskedLines a = maskedLines b :=
  congrArg Db.saleItems hs

/-- Costs decide neither the order of rows nor whether they are ready. -/
theorem key_zeroCost (table : SyncTable) (id : Uuid) (row : table.Row) :
    table.key id (zeroCost table row) = table.key id row := by
  cases table <;> rfl

theorem ready_zeroCost (settings : SyncSettings) (table : SyncTable) (storeId : Uuid)
    (now : Timestamp) (id : Uuid) (row : table.Row) :
    ready settings table storeId now id (zeroCost table row) =
      ready settings table storeId now id row := by
  cases table <;> rfl

section

variable {settings : SyncSettings} {storeId : Uuid} {table : SyncTable}

/-- The pages of two states that are the same publicly look the same, and
end at the same mark. -/
theorem changedSince_eq {r r' : Reading} (hs : SamePublicly r.db r'.db) (hnow : r.now = r'.now)
    (hw : table.withheld = false) (after : TableMark) :
    ((changedSince settings table storeId after r).rows.map fun e => (e.1, zeroCost table e.2)) =
      ((changedSince settings table storeId after r').rows.map
        fun e => (e.1, zeroCost table e.2)) ∧
      (changedSince settings table storeId after r).last =
        (changedSince settings table storeId after r').last := by
  have hrows : ((changedSince settings table storeId after r).rows.map
      fun e => (e.1, zeroCost table e.2)) =
      (changedSince settings table storeId after r').rows.map
        fun e => (e.1, zeroCost table e.2) := by
    have hmask : ∀ reading : Reading,
        ((changedSince settings table storeId after reading).rows.map
          fun e => (e.1, zeroCost table e.2)) =
        page ((table.rows reading.db).mapRows fun _ => zeroCost table) table.key
          (ready settings table storeId reading.now) after settings.pageSize := by
      intro reading
      exact (page_mapRows (key_zeroCost table)
        (ready_zeroCost settings table storeId reading.now)).symm
    rw [hmask, hmask, hs.rows hw, hnow]
  refine ⟨hrows, ?_⟩
  -- the last mark of a page can be read off its masked rows
  have hlast : ∀ reading : Reading, (changedSince settings table storeId after reading).last =
      ((changedSince settings table storeId after reading).rows.map
        fun e => (e.1, zeroCost table e.2)).getLast?.map fun e => table.key e.1 e.2 := by
    intro reading
    rw [List.getLast?_map, Option.map_map]
    simp only [Function.comp_def, key_zeroCost]
    rfl
  rw [hlast, hlast, hrows]

/-- What has been collected looks the same to somebody without profit access. -/
structure SameCollected (c c' : Collected) : Prop where
  /-- The pages without their costs. -/
  pages : ∀ table, ((c.pages table).map fun e => (e.1, zeroCost table e.2)) =
    (c'.pages table).map fun e => (e.1, zeroCost table e.2)
  /-- The cursor. -/
  cursor : c.cursor = c'.cursor
  /-- Whether there is more. -/
  hasMore : c.hasMore = c'.hasMore

/-- Reading one table keeps what was collected the same. -/
theorem SameCollected.pullTable {readings readings' : SyncTable → Reading} {c c' : Collected}
    (hc : SameCollected c c')
    (hs : ∀ table, SamePublicly (readings table).db (readings' table).db)
    (hnow : ∀ table, (readings table).now = (readings' table).now) :
    SameCollected (pullTable settings storeId false readings c table)
      (pullTable settings storeId false readings' c' table) := by
  cases hw : table.withheld with
  | true => simpa [SyncPull.pullTable, hw] using hc
  | false =>
    have hread : ∀ r c, SyncPull.pullTable settings storeId false r c table =
        { pages := Function.update c.pages table
            (changedSince settings table storeId (c.cursor.mark table) (r table)).rows
          cursor := c.cursor.advance? table
            (changedSince settings table storeId (c.cursor.mark table) (r table)).last
          hasMore := c.hasMore || decide (settings.pageSize ≤
            (changedSince settings table storeId (c.cursor.mark table) (r table)).rows.length) } := by
      intro r c
      simp [SyncPull.pullTable, hw]
    rw [hread, hread, ← hc.cursor]
    obtain ⟨hrows, hlast⟩ := @changedSince_eq settings storeId table _ _ (hs table) (hnow table) hw
      (c.cursor.mark table)
    refine ⟨fun other => ?_, ?_, ?_⟩
    · by_cases ho : other = table
      · subst ho
        simpa using hrows
      · simpa [ho] using hc.pages other
    · rw [hlast]
    · have hlength := congrArg List.length hrows
      rw [List.length_map, List.length_map] at hlength
      rw [hlength, hc.hasMore]

/-- Reading the tables one after the other keeps it the same. -/
theorem SameCollected.foldl {readings readings' : SyncTable → Reading} (tables : List SyncTable)
    {c c' : Collected} (hc : SameCollected c c')
    (hs : ∀ table, SamePublicly (readings table).db (readings' table).db)
    (hnow : ∀ table, (readings table).now = (readings' table).now) :
    SameCollected (tables.foldl (SyncPull.pullTable settings storeId false readings) c)
      (tables.foldl (SyncPull.pullTable settings storeId false readings') c') := by
  induction tables generalizing c c' with
  | nil => exact hc
  | cons table rest ih => exact ih (hc.pullTable hs hnow)

/-- The lines of the same sales look the same. -/
theorem linesForSales_eq {a b : Db} (hs : SamePublicly a b) (saleIds : List Uuid) :
    ((linesForSales saleIds a).map fun e => (e.1, zeroLineCost e.2)) =
      (linesForSales saleIds b).map fun e => (e.1, zeroLineCost e.2) := by
  -- the listing without costs is that of the lines without costs
  have hmask : ∀ db : Db, ((linesForSales saleIds db).map fun e => (e.1, zeroLineCost e.2)) =
      if saleIds.isEmpty then [] else
        ((maskedLines db).entries.filter fun e => saleIds.contains e.2.saleId).insertionSort
          fun a b => a.2.saleId ≤ b.2.saleId := by
    intro db
    unfold linesForSales
    split_ifs
    · rfl
    · rw [maskedLines, Table.entries_mapRows, List.filter_map,
        List.map_insertionSort (fun a b : Uuid × SaleItem => a.2.saleId ≤ b.2.saleId)
          (fun a b : Uuid × SaleItem => a.2.saleId ≤ b.2.saleId)]
      · rfl
      · intro a _ b _
        rfl
  rw [hmask, hmask, hs.lines]

end

/-- A pull by somebody without profit access answers the same in two states
that differ in nothing but costs, expenses and withdrawals, whatever cursor
it comes with. -/
theorem pull_hides_costs (text : CursorText) (settings : SyncSettings) (storeId : Uuid)
    (actor : Actor) (hblind : actor.can .viewProfit = false) (raw : Option String)
    (readings readings' : SyncTable → Reading) (lines lines' : Db)
    (hs : ∀ table, SamePublicly (readings table).db (readings' table).db)
    (hnow : ∀ table, (readings table).now = (readings' table).now)
    (hlines : SamePublicly lines lines') :
    pull text settings storeId actor raw readings lines =
      pull text settings storeId actor raw readings' lines' := by
  obtain ⟨hpages, hcursor, hmore⟩ := @SameCollected.foldl settings storeId readings readings'
    SyncTable.ALL ⟨fun _ => [], text.decode raw, false⟩ ⟨fun _ => [], text.decode raw, false⟩
    ⟨fun _ => rfl, rfl, rfl⟩ hs hnow
  have hids := congrArg (List.map Prod.fst) (hpages .sales)
  simp only [List.map_map, Function.comp_def] at hids
  simp only [pull, hblind, Bool.false_eq_true, if_false]
  rw [PullResponse.mk.injEq]
  refine ⟨funext hpages, ?_, ?_, hmore⟩
  · rw [hids]
    exact linesForSales_eq hlines _
  · rw [hcursor]

/-- A store with one product at the given cost and the given expenses. -/
def storeWith (cost : Money) (expenses : Table Uuid Expense) : Db :=
  { Db.empty with
    products := Table.empty.put ⟨2⟩ { rice with costPrice := cost }
    expenses := expenses }

/-- An expense of the store. -/
def rentPaid : Expense := ⟨⟨0⟩, "rent", none, 500, 7000000, none, 7000000, none⟩

/-- A staff member without any switch. -/
def cashier : Actor := ⟨⟨8⟩, "Ana", "till", some ⟨⟨6⟩, ⟨false, false, false, false⟩⟩⟩

theorem storeWith_samePublicly (cost cost' : Money) (expenses expenses' : Table Uuid Expense) :
    SamePublicly (storeWith cost expenses) (storeWith cost' expenses') := by
  have hproducts : ∀ cost expenses, (publicPart (storeWith cost expenses)).products =
      Table.empty.put ⟨2⟩ { rice with costPrice := 0 } := by
    intro cost expenses
    exact Table.mapRows_put _ (fun _ => zeroCost .products) _ _
  change Db.mk _ _ _ _ _ _ _ _ = Db.mk _ _ _ _ _ _ _ _
  exact congrArg (Db.mk · _ _ _ _ _ _ _) ((hproducts _ _).trans (hproducts _ _).symm)

/-- Neither the cost of the product nor the rent shows in what a cashier
downloads. -/
theorem pull_hides_costs_rice :
    pull riceText ⟨2000000, 500⟩ ⟨0⟩ cashier (some emptyCursorText)
        (fun _ => ⟨storeWith 40 Table.empty, 20000000⟩) (storeWith 40 Table.empty) =
      pull riceText ⟨2000000, 500⟩ ⟨0⟩ cashier (some emptyCursorText)
        (fun _ => ⟨storeWith 45 (Table.empty.put ⟨4⟩ rentPaid), 20000000⟩)
        (storeWith 45 (Table.empty.put ⟨4⟩ rentPaid)) :=
  pull_hides_costs riceText ⟨2000000, 500⟩ ⟨0⟩ cashier (by decide) (some emptyCursorText) _ _ _ _
    (fun _ => storeWith_samePublicly _ _ _ _) (fun _ => rfl) (storeWith_samePublicly _ _ _ _)

end Kitaza.CostMasking
