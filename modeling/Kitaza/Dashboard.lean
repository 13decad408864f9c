import Mathlib.Data.List.MinMax
import Kitaza.BusinessScore
import Kitaza.ReportWindows
import Kitaza.Schema

/-!
# The dashboard's totals

What the server adds up for a store over a window of time: sales, expenses,
withdrawals, the best seller and the products to restock, and what follows
from them. Everything is computed from the store's figures: its live sales
with their lines, its live expenses and withdrawals, and the number of
products running low.
-/

namespace Kitaza.Dashboard

open KeyedTable Primitives Schema ReportWindows BusinessScore

/-- The sales of a store that are not voided. -/
def liveSales (storeId : Uuid) (db : Db) : Table Uuid Sale :=
  db.sales.filter fun _ s => s.storeId == storeId && s.deletedAt.isNone

/-- The lines of those sales. -/
def liveItems (storeId : Uuid) (db : Db) : Table Uuid SaleItem :=
  db.saleItems.filter fun _ i => ((liveSales storeId db).find? i.saleId).isSome

/-- The expenses of a store that are not removed. -/
def liveExpenses (storeId : Uuid) (db : Db) : Table Uuid Expense :=
  db.expenses.filter fun _ e => e.storeId == storeId && e.deletedAt.isNone

/-- The withdrawals of a store that are not removed. -/
def liveWithdrawals (storeId : Uuid) (db : Db) : Table Uuid OwnerWithdrawal :=
  db.ownerWithdrawals.filter fun _ w => w.storeId == storeId && w.deletedAt.isNone

/-- A product on the list that has come down to its reorder level. -/
def runsLow (storeId : Uuid) (p : Product) : Bool :=
  p.storeId == storeId && p.deletedAt.isNone && p.isActive && decide (0 < p.reorderLevel) &&
    decide (p.stockQuantity ≤ p.reorderLevel)

/-- The products to restock. -/
def lowStockCount (storeId : Uuid) (db : Db) : ℕ :=
  (db.products.filter fun _ p => runsLow storeId p).ids.card

/-- What the sales of a window add up to. -/
structure SalesTotals where
  /-- What was paid. -/
  salesTotal : Money
  /-- What the goods had cost. -/
  costTotal : Money
  /-- What was taken off. -/
  discountTotal : Money
  /-- How many there were. -/
  saleCount : ℕ
  deriving DecidableEq, Repr

/-- The product that brought in most. -/
structure BestSeller where
  /-- Its name. -/
  productName : String
  /-- Units sold. -/
  quantitySold : Quantity
  /-- What they brought in. -/
  revenue : Money
  deriving DecidableEq, Repr

/-- What a `NUMERIC(14,3)` column stores: ties round away from zero. -/
def numericQuantity (x : ℚ) : Quantity :=
  if 0 ≤ x then ((x * 1000 + 1 / 2).floor : ℚ) / 1000
  else -(((-x * 1000 + 1 / 2).floor : ℚ) / 1000)

/-- The sales of a window. -/
def salesIn (storeId : Uuid) (range : DateRange) (db : Db) : Table Uuid Sale :=
  (liveSales storeId db).filter fun _ s => decide (range.Covers s.occurredAt)

/-- Add up the sales of a window. -/
def salesTotals (storeId : Uuid) (range : DateRange) (db : Db) : SalesTotals :=
  let sales := salesIn storeId range db
  { salesTotal := numericMoney (sales.sum fun _ s => s.totalAmount)
    costTotal := numericMoney (sales.sum fun _ s => s.costAmount)
    discountTotal := numericMoney (sales.sum fun _ s => s.discountAmount)
    saleCount := sales.ids.card }

/-- Add up the expenses of a window. -/
def expensesTotal (storeId : Uuid) (range : DateRange) (db : Db) : Money :=
  numericMoney (((liveExpenses storeId db).filter fun _ e =>
    decide (range.Covers e.occurredAt)).sum fun _ e => e.amount)

/-- Add up the withdrawals of a window. -/
def withdrawalsTotal (storeId : Uuid) (range : DateRange) (db : Db) : Money :=
  numericMoney (((liveWithdrawals storeId db).filter fun _ w =>
    decide (range.Covers w.occurredAt)).sum fun _ w => w.amount)

/-- The lines sold under one name. -/
def soldAs (items : Table Uuid SaleItem) (productName : String) : BestSeller :=
  let lines := items.filter fun _ i => i.productName == productName
  { productName := productName
    quantitySold := numericQuantity (lines.sum fun _ i => i.quantity)
    revenue := numericMoney (lines.sum fun _ i => i.lineTotal) }

/-- The name that brought in most; of several, whichever comes first. -/
def bestSeller (storeId : Uuid) (range : DateRange) (db : Db) : Option BestSeller :=
  let items := (liveItems storeId db).filter fun _ i =>
    ((salesIn storeId range db).find? i.saleId).isSome
  let names := (items.entries.map fun e => e.2.productName).dedup
  (names.map (soldAs items)).argmax BestSeller.revenue

/-- What the dashboard shows. -/
structure DashboardSummary where
  /-- The period asked for. -/
  period : ReportPeriod
  /-- Where it starts. -/
  rangeStart : Timestamp
  /-- Where it ends. -/
  rangeEnd : Timestamp
  /-- What was sold. -/
  salesTotal : Money
  /-- In how many sales. -/
  saleCount : ℕ
  /-- What the goods had cost. -/
  costOfGoods : Money
  /-- Sales less costs. -/
  grossProfit : Money
  /-- What was spent. -/
  expensesTotal : Money
  /-- Gross profit less expenses. -/
  netProfit : Money
  /-- What the owner took out. -/
  withdrawalsTotal : Money
  /-- What stayed in the cash box. -/
  cashMovement : Money
  /-- The net profit of the window before. -/
  previousNetProfit : Money
  /-- The products to restock. -/
  lowStockCount : ℕ
  /-- The product that brought in most. -/
  bestSeller : Option BestSeller
  /-- The rating. -/
  health : BusinessHealth
  deriving DecidableEq, Repr

/-- Compute a summary. -/
def compute (storeId : Uuid) (period : ReportPeriod) (range : DateRange) (db : Db) :
    DashboardSummary :=
  let previous := range.previousWindow
  let sales := salesTotals storeId range db
  let expenses := Dashboard.expensesTotal storeId range db
  let withdrawals := Dashboard.withdrawalsTotal storeId range db
  let lowStock := Dashboard.lowStockCount storeId db
  let previousSales := salesTotals storeId previous db
  let previousExpenses := Dashboard.expensesTotal storeId previous db
  let grossProfit := sales.salesTotal - sales.costTotal
  let netProfit := grossProfit - expenses
  let previousNetProfit := previousSales.salesTotal - previousSales.costTotal - previousExpenses
  { period := period
    rangeStart := range.start
    rangeEnd := range.ends
    salesTotal := sales.salesTotal
    saleCount := sales.saleCount
    costOfGoods := sales.costTotal
    grossProfit := grossProfit
    expensesTotal := expenses
    netProfit := netProfit
    withdrawalsTotal := withdrawals
    cashMovement := netProfit - withdrawals
    previousNetProfit := previousNetProfit
    lowStockCount := lowStock
    bestSeller := Dashboard.bestSeller storeId range db
    health := evaluate ⟨sales.salesTotal, netProfit, previousNetProfit, withdrawals, lowStock⟩ }

/-- The figures of a store, listed. -/
structure Figures where
  /-- Its live sales. -/
  sales : List (Uuid × Sale)
  /-- Their lines. -/
  items : List (Uuid × SaleItem)
  /-- Its live expenses. -/
  expenses : List (Uuid × Expense)
  /-- Its live withdrawals. -/
  withdrawals : List (Uuid × OwnerWithdrawal)
  /-- The products to restock. -/
  lowStock : ℕ
  deriving DecidableEq, Repr

/-- The figures of a store. -/
def figures (storeId : Uuid) (db : Db) : Figures where
  sales := (liveSales storeId db).entries
  items := (liveItems storeId db).entries
  expenses := (liveExpenses storeId db).entries
  withdrawals := (liveWithdrawals storeId db).entries
  lowStock := lowStockCount storeId db

/-- Two tables with the same listing are the same. -/
theorem eq_of_entries {ρ : Type} {s t : Table Uuid ρ} (h : s.entries = t.entries) : s = t := by
  apply Table.ext_find?
  intro k
  apply Option.ext
  intro r
  rw [← Table.mem_entries, h, Table.mem_entries]

/-- A summary depends on the figures of the store alone. -/
theorem compute_congr {storeId : Uuid} {db db' : Db} (h : figures storeId db = figures storeId db')
    (period : ReportPeriod) (range : DateRange) :
    compute storeId period range db = compute storeId period range db' := by
  have hsales : liveSales storeId db = liveSales storeId db' :=
    eq_of_entries (congrArg Figures.sales h)
  have hitems : liveItems storeId db = liveItems storeId db' :=
    eq_of_entries (congrArg Figures.items h)
  have hexpenses : liveExpenses storeId db = liveExpenses storeId db' :=
    eq_of_entries (congrArg Figures.expenses h)
  have hwithdrawals : liveWithdrawals storeId db = liveWithdrawals storeId db' :=
    eq_of_entries (congrArg Figures.withdrawals h)
  have hlow : lowStockCount storeId db = lowStockCount storeId db' := congrArg Figures.lowStock h
  simp only [compute, salesTotals, salesIn, expensesTotal, withdrawalsTotal, bestSeller, hsales,
    hitems, hexpenses, hwithdrawals, hlow]

end Kitaza.Dashboard
