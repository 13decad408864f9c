import Mathlib.Data.Prod.Lex
import Mathlib.Data.Fintype.Defs
import Kitaza.KeysetPaging
import Kitaza.SaleRepository

/-!
# Downloading changed rows

A pull pages each of the five synced tables on its own, from the mark its
cursor holds for the table, and reads the lines of the sales it is about
to deliver in a last statement. Every statement has its own snapshot and
its own reading of the clock.

The cursor travels as an opaque text; the encoders that write and read it
are a parameter.
-/

namespace Kitaza.SyncPull

open KeyedTable KeysetPaging Primitives Access Schema SaleRepository

/-- The tables a device pulls, each paged independently. -/
inductive SyncTable where
  | products
  | sales
  | expenses
  | withdrawals
  | stockMovements
  deriving DecidableEq, Repr

/-- All of them, in the order they are read. -/
def SyncTable.ALL : List SyncTable := [.products, .sales, .expenses, .withdrawals, .stockMovements]

theorem SyncTable.mem_ALL (table : SyncTable) : table ∈ SyncTable.ALL := by
  cases table <;> decide

instance : Fintype SyncTable := ⟨⟨SyncTable.ALL, by decide⟩, SyncTable.mem_ALL⟩

/-- The rows a table holds. -/
def SyncTable.Row : SyncTable → Type
  | .products => Product
  | .sales => Sale
  | .expenses => Expense
  | .withdrawals => OwnerWithdrawal
  | .stockMovements => StockMovement

/-- The table in the database. -/
def SyncTable.rows : (table : SyncTable) → Db → Table Uuid table.Row
  | .products => Db.products
  | .sales => Db.sales
  | .expenses => Db.expenses
  | .withdrawals => Db.ownerWithdrawals
  | .stockMovements => Db.stockMovements

/-- The column `store_id`. -/
def SyncTable.storeId : (table : SyncTable) → table.Row → Uuid
  | .products => Product.storeId
  | .sales => Sale.storeId
  | .expenses => Expense.storeId
  | .withdrawals => OwnerWithdrawal.storeId
  | .stockMovements => StockMovement.storeId

/-- The column `updated_at`. -/
def SyncTable.updatedAt : (table : SyncTable) → table.Row → Timestamp
  | .products => Product.updatedAt
  | .sales => Sale.updatedAt
  | .expenses => Expense.updatedAt
  | .withdrawals => OwnerWithdrawal.updatedAt
  | .stockMovements => StockMovement.updatedAt

/-- Position within one table: the last row a device has seen, ordered by
instant and then identifier. -/
structure TableMark where
  /-- When the row was last written. -/
  updatedAt : Timestamp
  /-- The row, which breaks ties between rows written together. -/
  id : Uuid
  deriving DecidableEq, Repr

namespace TableMark

theorem toLex_injective : Function.Injective fun m : TableMark => toLex (m.updatedAt, m.id) := by
  rintro ⟨a, i⟩ ⟨b, j⟩ h
  cases h
  rfl

instance : LinearOrder TableMark := LinearOrder.lift' _ toLex_injective

theorem lt_iff {a b : TableMark} :
    a < b ↔ a.updatedAt < b.updatedAt ∨ a.updatedAt = b.updatedAt ∧ a.id < b.id :=
  Prod.Lex.toLex_lt_toLex

/-- Before every row: the Unix epoch. -/
def origin : TableMark := ⟨0, Uuid.nil⟩

end TableMark

/-- The key a table is paged by. -/
def SyncTable.key (table : SyncTable) (id : Uuid) (row : table.Row) : TableMark :=
  ⟨table.updatedAt row, id⟩

/-- Where a device is up to, per table. -/
structure SyncCursor where
  /-- The marks of the tables it has seen rows of. -/
  marks : SyncTable → Option TableMark

namespace SyncCursor

/-- The cursor of a device that has seen nothing. -/
def default : SyncCursor := ⟨fun _ => none⟩

/-- The mark of a table. -/
def mark (cursor : SyncCursor) (table : SyncTable) : TableMark :=
  (cursor.marks table).getD TableMark.origin

/-- Move the mark of a table. -/
def advance (cursor : SyncCursor) (table : SyncTable) (mark : TableMark) : SyncCursor :=
  ⟨Function.update cursor.marks table (some mark)⟩

/-- Move the mark of a table to the end of a page, if the page has one. -/
def advance? (cursor : SyncCursor) (table : SyncTable) : Option TableMark → SyncCursor
  | some last => cursor.advance table last
  | none => cursor

end SyncCursor

/-- The text encoders of cursors: hexadecimal digits of a JSON document. -/
structure CursorText where
  /-- The text of a cursor. -/
  encode : SyncCursor → String
  /-- The cursor a text stands for, if it is readable. -/
  read : String → Option SyncCursor

/-- An encoded cursor reads back as itself. -/
def CursorText.RoundTrips (text : CursorText) : Prop :=
  ∀ cursor, text.read (text.encode cursor) = some cursor

/-- An absent or unreadable cursor starts from the beginning. -/
def CursorText.decode (text : CursorText) (raw : Option String) : SyncCursor :=
  (raw.bind text.read).getD SyncCursor.default

theorem CursorText.RoundTrips.decode_encode {text : CursorText} (h : text.RoundTrips)
    (cursor : SyncCursor) : text.decode (some (text.encode cursor)) = cursor := by
  rw [decode, Option.bind_some, h, Option.getD_some]

/-- What one statement sees: its snapshot, and the instant it began. -/
structure Reading where
  /-- The committed rows. -/
  db : Db
  /-- The statement's `now()`. -/
  now : Timestamp

/-- One page of changed rows, and where it ended. -/
structure ChangedPage (table : SyncTable) where
  /-- The rows with their identifiers. -/
  rows : List (Uuid × table.Row)
  /-- The position of the last one. -/
  last : Option TableMark

/-- What the server is set up with. -/
structure SyncSettings where
  /-- Rows younger than this are left for a later pull. -/
  settleWindow : ℤ
  /-- Rows to a page. -/
  pageSize : ℕ

/-- Rows of the store past the mark and older than the settle window. -/
def ready (settings : SyncSettings) (table : SyncTable) (storeId : Uuid) (now : Timestamp) :
    Uuid → table.Row → Bool := fun _ row =>
  table.storeId row == storeId && decide (table.updatedAt row < now - settings.settleWindow)

/-- Keyset pagination over one table. -/
def changedSince (settings : SyncSettings) (table : SyncTable) (storeId : Uuid)
    (after : TableMark) (reading : Reading) : ChangedPage table where
  rows := page (table.rows reading.db) table.key (ready settings table storeId reading.now) after
    settings.pageSize
  last := (page (table.rows reading.db) table.key (ready settings table storeId reading.now) after
    settings.pageSize).getLast?.map fun e => table.key e.1 e.2

/-- Every line of the given sales. -/
def linesForSales (saleIds : List Uuid) (db : Db) : List (Uuid × SaleItem) :=
  if saleIds.isEmpty then []
  else (db.saleItems.entries.filter fun e => saleIds.contains e.2.saleId).insertionSort
    fun a b => a.2.saleId ≤ b.2.saleId

/-- A row without the figures only those who see costs receive. -/
def zeroCost : (table : SyncTable) → table.Row → table.Row
  | .products => fun row : Product => { row with costPrice := 0 }
  | .sales => fun row : Sale => { row with costAmount := 0 }
  | .expenses => id
  | .withdrawals => id
  | .stockMovements => fun row : StockMovement => { row with unitCost := 0 }

/-- The same for a sale line. -/
def zeroLineCost (item : SaleItem) : SaleItem := { item with unitCost := 0 }

/-- A row as it is shown to one that does or does not see costs. -/
def shown (seesCosts : Bool) (table : SyncTable) (row : table.Row) : table.Row :=
  if seesCosts then row else zeroCost table row

/-- A sale line as it is shown. -/
def shownLine (seesCosts : Bool) (item : SaleItem) : SaleItem :=
  if seesCosts then item else zeroLineCost item

/-- The tables withheld from those who do not see costs. -/
def SyncTable.withheld : SyncTable → Bool
  | .expenses => true
  | .withdrawals => true
  | _ => false

theorem SyncTable.withheld_expenses : withheld .expenses = true := rfl

theorem SyncTable.withheld_withdrawals : withheld .withdrawals = true := rfl

/-- What has been collected of a response. -/
structure Collected where
  /-- The pages read so far. -/
  pages : (table : SyncTable) → List (Uuid × table.Row)
  /-- The cursor so far. -/
  cursor : SyncCursor
  /-- Whether some page was full. -/
  hasMore : Bool

/-- Read the page of one table. -/
def pullTable (settings : SyncSettings) (storeId : Uuid) (seesCosts : Bool)
    (readings : SyncTable → Reading) (c : Collected) (table : SyncTable) : Collected :=
  if !seesCosts && table.withheld then c
  else
    let page := changedSince settings table storeId (c.cursor.mark table) (readings table)
    { pages := Function.update c.pages table page.rows
      cursor := c.cursor.advance? table page.last
      hasMore := c.hasMore || decide (settings.pageSize ≤ page.rows.length) }

/-- What a device receives. -/
structure PullResponse where
  /-- The changed rows of each table. -/
  pages : (table : SyncTable) → List (Uuid × table.Row)
  /-- Every line of every sale among them. -/
  saleItems : List (Uuid × SaleItem)
  /-- Where the device now is. -/
  cursor : String
  /-- Whether some table filled its page. -/
  hasMore : Bool

/-- Download one page of every table and the lines of the sales on it;
`lines` is what the last statement sees. -/
def pull (text : CursorText) (settings : SyncSettings) (storeId : Uuid) (actor : Actor)
    (raw : Option String) (readings : SyncTable → Reading) (lines : Db) : PullResponse :=
  let seesCosts := actor.can .viewProfit
  let c := SyncTable.ALL.foldl (pullTable settings storeId seesCosts readings)
    ⟨fun _ => [], text.decode raw, false⟩
  let saleItems := linesForSales ((c.pages .sales).map Prod.fst) lines
  { pages := fun table => if seesCosts then c.pages table
      else (c.pages table).map fun e => (e.1, zeroCost table e.2)
    saleItems := if seesCosts then saleItems
      else saleItems.map fun e => (e.1, zeroLineCost e.2)
    cursor := text.encode c.cursor
    hasMore := c.hasMore }

section

variable {text : CursorText} {settings : SyncSettings} {storeId : Uuid} {actor : Actor}
  {raw : Option String} {readings : SyncTable → Reading} {lines : Db}

theorem SyncCursor.mark_advance? (cursor : SyncCursor) (table other : SyncTable)
    (last : Option TableMark) :
    (cursor.advance? table last).mark other =
      if other = table then last.getD (cursor.mark table) else cursor.mark other := by
  cases last with
  | none =>
    by_cases h : other = table
    · subst h
      simp [advance?]
    · simp [advance?, h]
  | some last =>
    by_cases h : other = table
    · subst h
      simp [advance?, advance, mark]
    · simp [advance?, advance, mark, h]

/-- The page a cursor leads to. -/
abbrev pageAt (settings : SyncSettings) (storeId : Uuid) (readings : SyncTable → Reading)
    (cursor : SyncCursor) (table : SyncTable) : List (Uuid × table.Row) :=
  (changedSince settings table storeId (cursor.mark table) (readings table)).rows

/-- Reading one table moves its mark and no other. -/
theorem pullTable_mark (c : Collected) (table other : SyncTable) :
    (pullTable settings storeId true readings c table).cursor.mark other =
      if other = table then
        nextMark table.key (c.cursor.mark table) (pageAt settings storeId readings c.cursor table)
      else c.cursor.mark other := by
  rw [pullTable, Bool.not_true, Bool.false_and, if_neg Bool.false_ne_true]
  exact SyncCursor.mark_advance? _ _ _ _

/-- The tables not yet read are read from the marks the request came with. -/
theorem pageAt_pullTable (c : Collected) {table other : SyncTable} (h : other ≠ table) :
    pageAt settings storeId readings (pullTable settings storeId true readings c table).cursor
      other = pageAt settings storeId readings c.cursor other := by
  rw [pageAt, pullTable_mark, if_neg h]

/-- What the loop over the tables has collected for one that sees costs. -/
theorem foldl_pullTable {tables : List SyncTable} (hn : tables.Nodup) (c : Collected) :
    let c' := tables.foldl (pullTable settings storeId true readings) c
    (∀ table, c'.pages table = if table ∈ tables
      then pageAt settings storeId readings c.cursor table else c.pages table) ∧
    (∀ table, c'.cursor.mark table = if table ∈ tables
      then nextMark table.key (c.cursor.mark table) (pageAt settings storeId readings c.cursor table)
      else c.cursor.mark table) ∧
    (c'.hasMore = true ↔ c.hasMore = true ∨ ∃ table ∈ tables,
      settings.pageSize ≤ (pageAt settings storeId readings c.cursor table).length) := by
  induction tables generalizing c with
  | nil => simp
  | cons head rest ih =>
    obtain ⟨hhead, hrest⟩ := List.nodup_cons.mp hn
    obtain ⟨ihp, ihm, ihh⟩ := ih hrest (pullTable settings storeId true readings c head)
    rw [List.foldl_cons]
    refine ⟨fun table => ?_, fun table => ?_, ?_⟩
    · rw [ihp]
      by_cases ht : table = head
      · subst ht
        rw [if_neg hhead, if_pos List.mem_cons_self]
        simp [pullTable]
      · rw [pageAt_pullTable c ht]
        simp [ht, pullTable]
    · rw [ihm]
      by_cases ht : table = head
      · subst ht
        rw [if_neg hhead, if_pos List.mem_cons_self, pullTable_mark, if_pos rfl]
      · rw [pageAt_pullTable c ht, pullTable_mark, if_neg ht]
        simp [ht]
    · rw [ihh]
      have hrest_eq : ∀ table ∈ rest,
          pageAt settings storeId readings (pullTable settings storeId true readings c head).cursor
            table = pageAt settings storeId readings c.cursor table := by
        intro table ht
        apply pageAt_pullTable c
        rintro rfl
        exact hhead ht
      have hex : (∃ table ∈ rest, settings.pageSize ≤ (pageAt settings storeId readings
          (pullTable settings storeId true readings c head).cursor table).length) ↔
          ∃ table ∈ rest, settings.pageSize ≤
            (pageAt settings storeId readings c.cursor table).length := by
        constructor
        · rintro ⟨table, ht, hl⟩
          exact ⟨table, ht, by rwa [hrest_eq table ht] at hl⟩
        · rintro ⟨table, ht, hl⟩
          exact ⟨table, ht, by rwa [hrest_eq table ht]⟩
      rw [hex]
      simp [pullTable, or_assoc]

/-- Tables withheld are passed over, and the others are read as for one
that sees costs. -/
theorem foldl_pullTable_eq (seesCosts : Bool) (tables : List SyncTable) (c : Collected) :
    tables.foldl (pullTable settings storeId seesCosts readings) c =
      (tables.filter fun table => seesCosts || !table.withheld).foldl
        (pullTable settings storeId true readings) c := by
  induction tables generalizing c with
  | nil => rfl
  | cons head rest ih =>
    rw [List.foldl_cons, ih, List.filter_cons]
    cases hs : seesCosts || !head.withheld with
    | true =>
      have hr : (!seesCosts && head.withheld) = false := by
        cases seesCosts <;> simp_all
      rw [if_pos rfl, List.foldl_cons]
      simp [pullTable, hr]
    | false =>
      have hw : (!seesCosts && head.withheld) = true := by
        cases seesCosts <;> simp_all
      rw [if_neg Bool.false_ne_true, pullTable, if_pos hw]

/-- What anybody receives: the pages of the tables not withheld, as they
are shown, the marks of these moved to the end of them, and the lines of
the sales among them. -/
theorem pull_received :
    let response := pull text settings storeId actor raw readings lines
    let cursor := text.decode raw
    let seesCosts := actor.can .viewProfit
    (∀ table, response.pages table = if seesCosts || !table.withheld then
      (pageAt settings storeId readings cursor table).map
        fun e => (e.1, shown seesCosts table e.2) else []) ∧
    (∃ next, response.cursor = text.encode next ∧ ∀ table, next.mark table =
      if seesCosts || !table.withheld then nextMark table.key (cursor.mark table)
        (pageAt settings storeId readings cursor table) else cursor.mark table) ∧
    response.saleItems = (linesForSales ((response.pages .sales).map Prod.fst) lines).map
      fun e => (e.1, shownLine seesCosts e.2) := by
  obtain ⟨hp, hm, -⟩ := @foldl_pullTable settings storeId readings
    (SyncTable.ALL.filter fun table => actor.can .viewProfit || !table.withheld)
    ((by decide : SyncTable.ALL.Nodup).filter _) ⟨fun _ => [], text.decode raw, false⟩
  rw [← foldl_pullTable_eq] at hp hm
  simp only [List.mem_filter, SyncTable.mem_ALL, true_and] at hp hm
  refine ⟨fun table => ?_, ⟨_, rfl, hm⟩, ?_⟩
  · simp only [pull]
    rw [hp]
    cases actor.can .viewProfit <;> cases table <;> simp [shown, SyncTable.withheld]
  · simp only [pull]
    cases actor.can .viewProfit <;> simp [shownLine, Function.comp_def]

/-- Anybody is told there is more when a page they may see was full. -/
theorem hasMore_received :
    (pull text settings storeId actor raw readings lines).hasMore = true ↔
      ∃ table : SyncTable, (actor.can .viewProfit || !table.withheld) = true ∧
        settings.pageSize ≤
          (pageAt settings storeId readings (text.decode raw) table).length := by
  obtain ⟨-, -, hh⟩ := @foldl_pullTable settings storeId readings
    (SyncTable.ALL.filter fun table => actor.can .viewProfit || !table.withheld)
    ((by decide : SyncTable.ALL.Nodup).filter _) ⟨fun _ => [], text.decode raw, false⟩
  rw [← foldl_pullTable_eq] at hh
  simp only [List.mem_filter, SyncTable.mem_ALL, true_and, Bool.false_eq_true, false_or] at hh
  exact hh

/-- What one that sees costs receives: the page each mark leads to, the
marks moved to the end of them, and whether one of them was full. -/
theorem pull_spec (hsees : actor.can .viewProfit = true) :
    let response := pull text settings storeId actor raw readings lines
    let cursor := text.decode raw
    (∀ table, response.pages table = pageAt settings storeId readings cursor table) ∧
    (∃ next, response.cursor = text.encode next ∧ ∀ table, next.mark table =
      nextMark table.key (cursor.mark table) (pageAt settings storeId readings cursor table)) ∧
    (response.hasMore = true ↔
      ∃ table, settings.pageSize ≤ (pageAt settings storeId readings cursor table).length) ∧
    response.saleItems = linesForSales ((response.pages .sales).map Prod.fst) lines := by
  obtain ⟨hp, hm, hh⟩ := @foldl_pullTable settings storeId readings SyncTable.ALL (by decide)
    ⟨fun _ => [], text.decode raw, false⟩
  simp only [pull, hsees]
  refine ⟨fun table => ?_, ⟨_, rfl, fun table => ?_⟩, ?_, rfl⟩
  · simpa [SyncTable.mem_ALL] using hp table
  · simpa [SyncTable.mem_ALL] using hm table
  · simpa [SyncTable.mem_ALL] using hh

/-- The last statement delivers exactly the lines of the given sales. -/
theorem mem_linesForSales {saleIds : List Uuid} {db : Db} {id : Uuid} {item : SaleItem} :
    (id, item) ∈ linesForSales saleIds db ↔
      db.saleItems.find? id = some item ∧ item.saleId ∈ saleIds := by
  unfold linesForSales
  split_ifs with h
  · rw [List.isEmpty_iff] at h
    simp [h]
  · rw [List.mem_insertionSort, List.mem_filter]
    simp [Table.mem_entries]

end

end Kitaza.SyncPull
