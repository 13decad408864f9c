import Mathlib.Data.String.Basic
import Kitaza.Dashboard
import Kitaza.Grouping
import Kitaza.SaleHeader
import Kitaza.UnusualExpenses

/-!
# The server's reports

The profit trend has a point for every local day with a sale or an expense.
Its points are the dashboard's totals of their days, and come to the
dashboard's totals of the whole window. The periodic summary repeats the
dashboard's totals beside breakdowns by product and by category; the
breakdown by category leaves no expense out, and no product that is left out
made more than one that is listed.

How rows that tie are ordered, and a hash map gone through, is open.
-/

namespace Kitaza.Reports

open KeyedTable Primitives Schema ReportWindows Dashboard Grouping TopRanked UnusualExpenses
open BillingPlan (DAY SECOND)

/-- The expenses of a window. -/
def expensesIn (storeId : Uuid) (range : DateRange) (db : Db) : Table Uuid Expense :=
  (liveExpenses storeId db).filter fun _ e => decide (range.Covers e.occurredAt)

/-- The figures of one local day. -/
structure DailyPoint where
  /-- The day, counted from the Unix epoch. -/
  day : ℤ
  /-- What was sold. -/
  salesTotal : Money
  /-- What the goods had cost. -/
  costTotal : Money
  /-- What was spent. -/
  expensesTotal : Money
  deriving DecidableEq, Repr

/-- What was left of the day. -/
def DailyPoint.netProfit (point : DailyPoint) : Money :=
  point.salesTotal - point.costTotal - point.expensesTotal

/-- Sales and costs by day. -/
def saleDays (storeId : Uuid) (range : DateRange) (offset : ℤ) (db : Db) :
    Table ℤ (Money × Money) :=
  groupBy (salesIn storeId range db) (fun _ s => localDay offset s.occurredAt) fun sales =>
    (sales.sum fun _ s => s.totalAmount, sales.sum fun _ s => s.costAmount)

/-- Expenses by day. -/
def expenseDays (storeId : Uuid) (range : DateRange) (offset : ℤ) (db : Db) : Table ℤ Money :=
  groupBy (expensesIn storeId range db) (fun _ e => localDay offset e.occurredAt) fun expenses =>
    expenses.sum fun _ e => e.amount

/-- A joined row as a point. -/
def pointOf (row : ℤ × Option (Money × Money) × Option Money) : DailyPoint where
  day := row.1
  salesTotal := numericMoney ((row.2.1.map (·.1)).getD 0)
  costTotal := numericMoney ((row.2.1.map (·.2)).getD 0)
  expensesTotal := numericMoney (row.2.2.getD 0)

/-- One row per local calendar day. -/
def dailySeries (storeId : Uuid) (range : DateRange) (offset : ℤ) (db : Db) : List DailyPoint :=
  (fullJoin (saleDays storeId range offset db) (expenseDays storeId range offset db)).entries.map
    pointOf

/-- A point of the trend. -/
structure TrendPoint where
  /-- The day. -/
  day : ℤ
  /-- What was sold. -/
  salesTotal : Money
  /-- What was spent. -/
  expensesTotal : Money
  /-- What was left. -/
  netProfit : Money
  deriving DecidableEq, Repr

/-- The longest trend. -/
def MAX_TREND_DAYS : ℤ := 90

/-- The window of a trend. -/
def trendRange (days : ℤ) (now : Timestamp) : DateRange :=
  ⟨now - max 1 (min days MAX_TREND_DAYS) * DAY, now⟩

/-- The profit of the last days. -/
def profitTrend (storeId : Uuid) (days offset : ℤ) (now : Timestamp) (db : Db) : List TrendPoint :=
  (dailySeries storeId (trendRange days now) offset db).map fun point =>
    ⟨point.day, point.salesTotal, point.expensesTotal, point.netProfit⟩

/-- What one product brought in. -/
structure ProductPerformance where
  /-- Its name. -/
  productName : String
  /-- Units sold. -/
  quantitySold : Quantity
  /-- What they brought in. -/
  revenue : Money
  /-- Less what they had cost. -/
  profit : Money
  deriving DecidableEq, Repr

/-- The spending of one category. -/
structure ExpenseSlice where
  /-- The category. -/
  category : String
  /-- What was spent. -/
  totalAmount : Money
  /-- In how many entries. -/
  entryCount : ℕ
  deriving DecidableEq, Repr

/-- What the queries and the hash map leave open. -/
structure Choices where
  /-- The order of products with the same profit. -/
  products : Arrangement ProductPerformance.profit
  /-- The order of categories with the same total. -/
  slices : Arrangement ExpenseSlice.totalAmount
  /-- The order of expenses at the same instant. -/
  recent : Arrangement ExpenseSample.occurredAt
  /-- The order the categories of samples are gone through. -/
  categories : List ExpenseSample → List String
  /-- The arithmetic of averages. -/
  arithmetic : Arithmetic

/-- The lines sold in a window. -/
def itemsIn (storeId : Uuid) (range : DateRange) (db : Db) : Table Uuid SaleItem :=
  (liveItems storeId db).filter fun _ i => ((salesIn storeId range db).find? i.saleId).isSome

/-- What the lines of one product come to. -/
def performance (productName : String) (lines : Table Uuid SaleItem) : ProductPerformance where
  productName := productName
  quantitySold := numericQuantity (lines.sum fun _ i => i.quantity)
  revenue := numericMoney (lines.sum fun _ i => i.lineTotal)
  profit := numericMoney (lines.sum fun _ i => i.lineTotal - i.unitCost * i.quantity)

/-- Every product sold in a window. -/
def productsSold (storeId : Uuid) (range : DateRange) (db : Db) : List ProductPerformance :=
  (groupBy (itemsIn storeId range db) (fun _ i => i.productName) id).entries.map fun e =>
    performance e.1 e.2

/-- The products that made most. -/
def productPerformance (choices : Choices) (storeId : Uuid) (range : DateRange) (limit : ℕ)
    (db : Db) : List ProductPerformance :=
  (choices.products.arrange (productsSold storeId range db)).take limit

/-- What the expenses of one category come to. -/
def slice (category : String) (expenses : Table Uuid Expense) : ExpenseSlice where
  category := category
  totalAmount := numericMoney (expenses.sum fun _ e => e.amount)
  entryCount := expenses.ids.card

/-- Spending by category, most first. -/
def expenseBreakdown (choices : Choices) (storeId : Uuid) (range : DateRange) (db : Db) :
    List ExpenseSlice :=
  choices.slices.arrange
    ((groupBy (expensesIn storeId range db) (fun _ e => e.category) id).entries.map fun e =>
      slice e.1 e.2)

/-- Recent history the insight engine scores for outliers. -/
def recentExpenses (choices : Choices) (storeId : Uuid) (since : Timestamp) (db : Db) :
    List ExpenseSample :=
  let samples := ((liveExpenses storeId db).filter fun _ e => decide (since ≤ e.occurredAt)).entries
  (choices.recent.arrange (samples.map fun e =>
    ⟨e.2.category, e.2.amount, e.2.description, e.2.occurredAt⟩)).take 500

/-- How many products a summary lists. -/
def TOP_PRODUCT_LIMIT : ℕ := 5

/-- How far back unusual expenses are looked for. -/
def INSIGHT_LOOKBACK_DAYS : ℤ := 60

/-- What the weekly summary screen shows. -/
structure WeeklySummary where
  /-- The period asked for. -/
  period : ReportPeriod
  /-- What was sold. -/
  salesTotal : Money
  /-- What was spent. -/
  expensesTotal : Money
  /-- What was left. -/
  netProfit : Money
  /-- What the owner took out. -/
  withdrawalsTotal : Money
  /-- The products that made most. -/
  topProducts : List ProductPerformance
  /-- Spending by category. -/
  expenseBreakdown : List ExpenseSlice
  /-- Spending out of line. -/
  unusualExpenses : List UnusualExpense

/-- The single call the weekly summary screen makes. -/
def periodicSummary (choices : Choices) (storeId : Uuid) (period : ReportPeriod) (offset : ℤ)
    (now : Timestamp) (db : Db) : WeeklySummary :=
  let range := forPeriod period offset now
  let sales := salesTotals storeId range db
  let expenses := Dashboard.expensesTotal storeId range db
  let samples := recentExpenses choices storeId (now - INSIGHT_LOOKBACK_DAYS * DAY) db
  { period := period
    salesTotal := sales.salesTotal
    expensesTotal := expenses
    netProfit := sales.salesTotal - sales.costTotal - expenses
    withdrawalsTotal := Dashboard.withdrawalsTotal storeId range db
    topProducts := productPerformance choices storeId range TOP_PRODUCT_LIMIT db
    expenseBreakdown := Reports.expenseBreakdown choices storeId range db
    unusualExpenses := detectUnusualExpenses choices.arithmetic (choices.categories samples)
      samples }

/-- Whole centavos, as a `NUMERIC(14,2)` column holds them. -/
def Centavos (x : Money) : Prop := ∃ n : ℤ, x = n / 100

theorem Centavos.stored {x : Money} (h : Centavos x) : numericMoney x = x := by
  obtain ⟨n, rfl⟩ := h
  exact SaleHeader.numericMoney_centavos n

theorem centavos_zero : Centavos 0 := ⟨0, by norm_num⟩

theorem Centavos.add {x y : Money} (hx : Centavos x) (hy : Centavos y) : Centavos (x + y) := by
  obtain ⟨m, rfl⟩ := hx
  obtain ⟨n, rfl⟩ := hy
  exact ⟨m + n, by push_cast; ring⟩

/-- A total of whole centavos is one. -/
theorem centavos_sum {ρ : Type} {t : Table Uuid ρ} {f : ρ → Money}
    (h : ∀ k r, t.find? k = some r → Centavos (f r)) : Centavos (t.sum fun _ r => f r) := by
  unfold Table.sum
  apply Finset.sum_induction _ Centavos (fun _ _ => Centavos.add) centavos_zero
  intro k _
  cases hk : t.find? k with
  | none => exact centavos_zero
  | some r => exact h k r hk

/-- The amounts of sales and expenses are whole centavos. -/
structure StoresCentavos (db : Db) : Prop where
  /-- What sales come to and what the goods had cost. -/
  sales : ∀ id s, db.sales.find? id = some s → Centavos s.totalAmount ∧ Centavos s.costAmount
  /-- What was spent. -/
  expenses : ∀ id e, db.expenses.find? id = some e → Centavos e.amount

section

variable {storeId : Uuid} {range : DateRange} {offset : ℤ} {db : Db}

theorem of_find?_salesIn {id : Uuid} {s : Sale} (h : (salesIn storeId range db).find? id = some s) :
    db.sales.find? id = some s :=
  (Table.find?_filter_eq_some.mp (Table.find?_filter_eq_some.mp h).1).1

theorem of_find?_expensesIn {id : Uuid} {e : Expense}
    (h : (expensesIn storeId range db).find? id = some e) : db.expenses.find? id = some e :=
  (Table.find?_filter_eq_some.mp (Table.find?_filter_eq_some.mp h).1).1

/-- The part of a window that lies on a local day. -/
def dayWindow (range : DateRange) (offset day : ℤ) : DateRange where
  start := max range.start (day * DAY - offset * MINUTE)
  ends := min range.ends ((day + 1) * DAY - offset * MINUTE)

theorem covers_dayWindow {day : ℤ} {t : Timestamp} :
    (dayWindow range offset day).Covers t ↔ range.Covers t ∧ localDay offset t = day := by
  have hday : localDay offset t = day ↔
      day * DAY - offset * MINUTE ≤ t ∧ t < (day + 1) * DAY - offset * MINUTE := by
    rw [localDay, Int.ediv_eq_iff_of_pos (by decide), sub_le_iff_le_add, lt_sub_iff_add_lt,
      add_mul, one_mul]
  rw [hday]
  simp only [DateRange.Covers, dayWindow, max_le_iff, lt_min_iff]
  exact and_and_and_comm

/-- The sales of a day of a window. -/
theorem rowsOf_salesIn (day : ℤ) :
    rowsOf (salesIn storeId range db) (fun _ s => localDay offset s.occurredAt) day =
      salesIn storeId (dayWindow range offset day) db := by
  apply Table.ext_find?
  intro id
  apply Option.ext
  intro s
  simp only [rowsOf, salesIn, Table.find?_filter_eq_some, decide_eq_true_iff, beq_iff_eq,
    covers_dayWindow, and_assoc]

/-- The expenses of a day of a window. -/
theorem rowsOf_expensesIn (day : ℤ) :
    rowsOf (expensesIn storeId range db) (fun _ e => localDay offset e.occurredAt) day =
      expensesIn storeId (dayWindow range offset day) db := by
  apply Table.ext_find?
  intro id
  apply Option.ext
  intro e
  simp only [rowsOf, expensesIn, Table.find?_filter_eq_some, decide_eq_true_iff, beq_iff_eq,
    covers_dayWindow, and_assoc]

/-- Sales and costs of a day, if it has a sale. -/
theorem find?_saleDays {day : ℤ} {x : Money × Money} :
    (saleDays storeId range offset db).find? day = some x ↔
      (∃ id s, (salesIn storeId range db).find? id = some s ∧ localDay offset s.occurredAt = day) ∧
      ((salesIn storeId (dayWindow range offset day) db).sum fun _ s => s.totalAmount,
        (salesIn storeId (dayWindow range offset day) db).sum fun _ s => s.costAmount) = x := by
  rw [saleDays, find?_groupBy, rowsOf_salesIn]

/-- Expenses of a day, if it has one. -/
theorem find?_expenseDays {day : ℤ} {x : Money} :
    (expenseDays storeId range offset db).find? day = some x ↔
      (∃ id e, (expensesIn storeId range db).find? id = some e ∧
        localDay offset e.occurredAt = day) ∧
      ((expensesIn storeId (dayWindow range offset day) db).sum fun _ e => e.amount) = x := by
  rw [expenseDays, find?_groupBy, rowsOf_expensesIn]

/-- A day without sales has none to add up. -/
theorem sum_salesIn_of_none {day : ℤ} (f : Sale → Money)
    (h : (saleDays storeId range offset db).find? day = none) :
    ((salesIn storeId (dayWindow range offset day) db).sum fun _ s => f s) = 0 := by
  apply Table.sum_eq_zero
  intro id s hs
  exfalso
  obtain ⟨hlive, hcovers⟩ := Table.find?_filter_eq_some.mp hs
  obtain ⟨hin, hday⟩ := covers_dayWindow.mp (of_decide_eq_true hcovers)
  have hsale : (salesIn storeId range db).find? id = some s :=
    Table.find?_filter_eq_some.mpr ⟨hlive, decide_eq_true hin⟩
  rw [find?_saleDays.mpr ⟨⟨id, s, hsale, hday⟩, rfl⟩] at h
  cases h

/-- A day without expenses has none to add up. -/
theorem sum_expensesIn_of_none {day : ℤ}
    (h : (expenseDays storeId range offset db).find? day = none) :
    ((expensesIn storeId (dayWindow range offset day) db).sum fun _ e => e.amount) = 0 := by
  apply Table.sum_eq_zero
  intro id e he
  exfalso
  obtain ⟨hlive, hcovers⟩ := Table.find?_filter_eq_some.mp he
  obtain ⟨hin, hday⟩ := covers_dayWindow.mp (of_decide_eq_true hcovers)
  have hexpense : (expensesIn storeId range db).find? id = some e :=
    Table.find?_filter_eq_some.mpr ⟨hlive, decide_eq_true hin⟩
  rw [find?_expenseDays.mpr ⟨⟨id, e, hexpense, hday⟩, rfl⟩] at h
  cases h

/-- A point of the series is the dashboard's totals of its day. -/
theorem pointOf_eq {row : ℤ × Option (Money × Money) × Option Money}
    (h : row ∈ (fullJoin (saleDays storeId range offset db)
      (expenseDays storeId range offset db)).entries) :
    pointOf row =
      { day := row.1
        salesTotal := (salesTotals storeId (dayWindow range offset row.1) db).salesTotal
        costTotal := (salesTotals storeId (dayWindow range offset row.1) db).costTotal
        expensesTotal :=
          Dashboard.expensesTotal storeId (dayWindow range offset row.1) db } := by
  obtain ⟨day, sales, expenses⟩ := row
  obtain ⟨-, hrow⟩ := find?_fullJoin.mp (Table.mem_entries.mp h)
  obtain ⟨rfl, rfl⟩ := Prod.mk.inj hrow
  have hsales : ∀ f : Sale → Money, ∀ g : Money × Money → Money,
      (∀ u : Table Uuid Sale, g (u.sum fun _ s => s.totalAmount, u.sum fun _ s => s.costAmount) =
        u.sum fun _ s => f s) →
      (((saleDays storeId range offset db).find? day).map g).getD 0 =
        (salesIn storeId (dayWindow range offset day) db).sum fun _ s => f s := by
    intro f g hg
    cases hx : (saleDays storeId range offset db).find? day with
    | none => rw [sum_salesIn_of_none f hx, Option.map_none, Option.getD_none]
    | some x => rw [← (find?_saleDays.mp hx).2, Option.map_some, Option.getD_some, hg]
  have hexpenses : ((expenseDays storeId range offset db).find? day).getD 0 =
      (expensesIn storeId (dayWindow range offset day) db).sum fun _ e => e.amount := by
    cases hx : (expenseDays storeId range offset db).find? day with
    | none => rw [sum_expensesIn_of_none hx, Option.getD_none]
    | some x => rw [← (find?_expenseDays.mp hx).2, Option.getD_some]
  rw [pointOf, hsales Sale.totalAmount Prod.fst fun _ => rfl,
    hsales Sale.costAmount Prod.snd fun _ => rfl, hexpenses]
  rfl

theorem centavos_salesIn (h : StoresCentavos db) :
    Centavos ((salesIn storeId range db).sum fun _ s => s.totalAmount) ∧
      Centavos ((salesIn storeId range db).sum fun _ s => s.costAmount) :=
  ⟨centavos_sum fun id s hs => (h.sales id s (of_find?_salesIn hs)).1,
    centavos_sum fun id s hs => (h.sales id s (of_find?_salesIn hs)).2⟩

theorem centavos_expensesIn (h : StoresCentavos db) :
    Centavos ((expensesIn storeId range db).sum fun _ e => e.amount) :=
  centavos_sum fun id e he => h.expenses id e (of_find?_expensesIn he)

/-- A figure added up over the points. -/
theorem sum_dailySeries (figure : DailyPoint → Money)
    (part : Option (Money × Money) × Option Money → Money)
    (hpart : ∀ row, figure (pointOf row) = numericMoney (part row.2))
    (hcentavos : ∀ row ∈ (fullJoin (saleDays storeId range offset db)
      (expenseDays storeId range offset db)).entries, Centavos (part row.2)) :
    ((dailySeries storeId range offset db).map figure).sum =
      (fullJoin (saleDays storeId range offset db) (expenseDays storeId range offset db)).sum
        fun _ x => part x := by
  rw [Table.sum_eq_entries, dailySeries, List.map_map]
  congr 1
  apply List.map_congr_left
  intro row hrow
  rw [Function.comp_apply, hpart, (hcentavos row hrow).stored]

/-- The sales of the points come to the sales of the window. -/
theorem sum_dailySeries_sales (h : StoresCentavos db) :
    ((dailySeries storeId range offset db).map DailyPoint.salesTotal).sum =
        (salesTotals storeId range db).salesTotal ∧
      ((dailySeries storeId range offset db).map DailyPoint.costTotal).sum =
        (salesTotals storeId range db).costTotal := by
  have hday : ∀ row ∈ (fullJoin (saleDays storeId range offset db)
      (expenseDays storeId range offset db)).entries,
      Centavos ((row.2.1.map (·.1)).getD 0) ∧ Centavos ((row.2.1.map (·.2)).getD 0) := by
    rintro ⟨day, sales, expenses⟩ hrow
    obtain ⟨-, hrow⟩ := find?_fullJoin.mp (Table.mem_entries.mp hrow)
    obtain ⟨rfl, rfl⟩ := Prod.mk.inj hrow
    cases hx : (saleDays storeId range offset db).find? day with
    | none => exact ⟨centavos_zero, centavos_zero⟩
    | some x =>
      obtain ⟨-, rfl⟩ := find?_saleDays.mp hx
      exact centavos_salesIn h
  have hsales : ((saleDays storeId range offset db).sum fun _ x => x.1) =
      (salesIn storeId range db).sum fun _ s => s.totalAmount := sum_groupBy fun _ => rfl
  have hcosts : ((saleDays storeId range offset db).sum fun _ x => x.2) =
      (salesIn storeId range db).sum fun _ s => s.costAmount := sum_groupBy fun _ => rfl
  have hjoin := fun f : Money × Money → Money =>
    sum_fullJoin_left (saleDays storeId range offset db) (expenseDays storeId range offset db) f
  constructor
  · have hparts := @sum_dailySeries storeId range offset db DailyPoint.salesTotal
      (fun x => (x.1.map (·.1)).getD 0) (fun row => by rw [pointOf]) fun row hrow =>
        (hday row hrow).1
    rw [hparts, hjoin (·.1), hsales]
    change _ = numericMoney _
    rw [(centavos_salesIn h).1.stored]
  · have hparts := @sum_dailySeries storeId range offset db DailyPoint.costTotal
      (fun x => (x.1.map (·.2)).getD 0) (fun row => by rw [pointOf]) fun row hrow =>
        (hday row hrow).2
    rw [hparts, hjoin (·.2), hcosts]
    change _ = numericMoney _
    rw [(centavos_salesIn h).2.stored]

/-- The expenses of the points come to the expenses of the window. -/
theorem sum_dailySeries_expenses (h : StoresCentavos db) :
    ((dailySeries storeId range offset db).map DailyPoint.expensesTotal).sum =
      Dashboard.expensesTotal storeId range db := by
  have hexpenses : ((expenseDays storeId range offset db).sum fun _ x => x) =
      (expensesIn storeId range db).sum fun _ e => e.amount := sum_groupBy fun _ => rfl
  rw [sum_dailySeries DailyPoint.expensesTotal (fun x => (x.2.map fun y => y).getD 0)
    (fun row => by rw [Option.map_id', pointOf]), sum_fullJoin_right, hexpenses]
  · exact (centavos_expensesIn h).stored.symm
  · rintro ⟨day, sales, expenses⟩ hrow
    obtain ⟨-, hrow⟩ := find?_fullJoin.mp (Table.mem_entries.mp hrow)
    obtain ⟨rfl, rfl⟩ := Prod.mk.inj hrow
    cases hx : (expenseDays storeId range offset db).find? day with
    | none => exact centavos_zero
    | some x =>
      obtain ⟨-, rfl⟩ := find?_expenseDays.mp hx
      exact centavos_expensesIn h

/-- A series is made of its days: each once and in order, each with the
dashboard's totals of the day, together those of the window. -/
structure Partitions (storeId : Uuid) (range : DateRange) (offset : ℤ) (db : Db)
    (points : List TrendPoint) : Prop where
  /-- Each day is there once, in order. -/
  ascending : points.Pairwise fun p q => p.day < q.day
  /-- The days are those with a sale or an expense. -/
  days : ∀ day, day ∈ points.map TrendPoint.day ↔
    (∃ id s, (salesIn storeId range db).find? id = some s ∧
      localDay offset s.occurredAt = day) ∨
    ∃ id e, (expensesIn storeId range db).find? id = some e ∧ localDay offset e.occurredAt = day
  /-- A point has the totals of its day. -/
  ofDay : ∀ p ∈ points,
    let totals := salesTotals storeId (dayWindow range offset p.day) db
    let expenses := Dashboard.expensesTotal storeId (dayWindow range offset p.day) db
    p.salesTotal = totals.salesTotal ∧ p.expensesTotal = expenses ∧
      p.netProfit = totals.salesTotal - totals.costTotal - expenses
  /-- The points come to the totals of the window. -/
  whole : (points.map TrendPoint.salesTotal).sum = (salesTotals storeId range db).salesTotal ∧
    (points.map TrendPoint.expensesTotal).sum = Dashboard.expensesTotal storeId range db ∧
    (points.map TrendPoint.netProfit).sum = (salesTotals storeId range db).salesTotal -
      (salesTotals storeId range db).costTotal - Dashboard.expensesTotal storeId range db

/-- What is left of the points is what is left of their totals. -/
theorem sum_netProfit (points : List DailyPoint) : (points.map DailyPoint.netProfit).sum =
    (points.map DailyPoint.salesTotal).sum - (points.map DailyPoint.costTotal).sum -
      (points.map DailyPoint.expensesTotal).sum := by
  induction points with
  | nil => simp
  | cons p rest ih =>
    simp only [List.map_cons, List.sum_cons, ih, DailyPoint.netProfit]
    ring

end

/-- Whatever was sold and spent, the profit trend has one point for every local
day of its window with a sale or an expense, in order; each point shows the
dashboard's totals of its day, and together they come to the dashboard's totals
of the window: nothing is counted twice, and nothing is lost between two days. -/
theorem profitTrend_partitions (storeId : Uuid) (days offset : ℤ) (now : Timestamp) (db : Db)
    (hcentavos : StoresCentavos db) :
    Partitions storeId (trendRange days now) offset db
      (profitTrend storeId days offset now db) := by
  have hmem : ∀ day, day ∈ (profitTrend storeId days offset now db).map TrendPoint.day ↔
      ∃ x, (fullJoin (saleDays storeId (trendRange days now) offset db)
        (expenseDays storeId (trendRange days now) offset db)).find? day = some x := by
    intro day
    simp only [profitTrend, dailySeries, List.map_map, List.mem_map, Function.comp_apply, pointOf]
    constructor
    · rintro ⟨⟨k, x⟩, hrow, rfl⟩
      exact ⟨x, Table.mem_entries.mp hrow⟩
    · rintro ⟨x, hx⟩
      exact ⟨(day, x), Table.mem_entries.mpr hx, rfl⟩
  refine ⟨?_, ?_, ?_, ?_⟩
  · rw [profitTrend, dailySeries, List.pairwise_map, List.pairwise_map]
    exact Table.entries_ascending _
  · intro day
    rw [hmem]
    simp only [find?_fullJoin, exists_and_left, exists_eq, and_true]
    exact or_congr mem_groups mem_groups
  · intro p hp
    obtain ⟨point, hpoint, rfl⟩ := List.mem_map.mp hp
    obtain ⟨row, hrow, rfl⟩ := List.mem_map.mp hpoint
    rw [pointOf_eq hrow]
    exact ⟨rfl, rfl, rfl⟩
  · have hsales := @sum_dailySeries_sales storeId (trendRange days now) offset db hcentavos
    have hexpenses := @sum_dailySeries_expenses storeId (trendRange days now) offset db hcentavos
    simp only [profitTrend, List.map_map, Function.comp_def]
    refine ⟨hsales.1, hexpenses, ?_⟩
    rw [← hsales.1, ← hsales.2, ← hexpenses]
    exact sum_netProfit _

/-- A sale a minute before midnight in Manila, one a minute after, and an
expense on the day after. -/
def twoNights : Db :=
  { Db.empty with
    sales := (Table.empty.put ⟨1⟩ ⟨⟨0⟩, "cash", 20, 15, 0, none, 57540 * SECOND, none, 0, none⟩).put
      ⟨2⟩ ⟨⟨0⟩, "cash", 35, 30, 0, none, 57660 * SECOND, none, 0, none⟩
    expenses := Table.empty.put ⟨3⟩ ⟨⟨0⟩, "rent", none, 40, 144000 * SECOND, none, 0, none⟩ }

theorem twoNights_centavos : StoresCentavos twoNights := by
  constructor
  · intro id s hs
    simp only [twoNights, Table.find?_put] at hs
    split_ifs at hs
    · cases hs
      exact ⟨⟨3500, by norm_num⟩, ⟨3000, by norm_num⟩⟩
    · cases hs
      exact ⟨⟨2000, by norm_num⟩, ⟨1500, by norm_num⟩⟩
    · cases hs
  · intro id e he
    simp only [twoNights, Table.find?_put] at he
    split_ifs at he
    · cases he
      exact ⟨4000, by norm_num⟩
    · cases he

theorem profitTrend_partitions_twoNights :
    (profitTrend ⟨0⟩ 14 480 (200000 * SECOND) twoNights).map (fun p => (p.day, p.netProfit)) =
        [(0, 5), (1, 5), (2, -40)] ∧
      Partitions ⟨0⟩ (trendRange 14 (200000 * SECOND)) 480 twoNights
        (profitTrend ⟨0⟩ 14 480 (200000 * SECOND) twoNights) := by
  exact ⟨by decide +kernel, profitTrend_partitions ⟨0⟩ 14 480 _ twoNights twoNights_centavos⟩

/-- The summary repeats the dashboard's totals, and its lists account for
them. -/
structure Books (choices : Choices) (storeId : Uuid) (period : ReportPeriod) (offset : ℤ)
    (now : Timestamp) (db : Db) (summary : WeeklySummary) : Prop where
  /-- The totals are the dashboard's. -/
  totals : let shown := compute storeId period (forPeriod period offset now) db
    summary.salesTotal = shown.salesTotal ∧ summary.expensesTotal = shown.expensesTotal ∧
      summary.netProfit = shown.netProfit ∧ summary.withdrawalsTotal = shown.withdrawalsTotal
  /-- Every category that was spent on is listed once. -/
  categories : (summary.expenseBreakdown.map ExpenseSlice.category).Nodup ∧
    ∀ category, category ∈ summary.expenseBreakdown.map ExpenseSlice.category ↔
      ∃ id e, (expensesIn storeId (forPeriod period offset now) db).find? id = some e ∧
        e.category = category
  /-- The slices come to the expenses. -/
  spent : (summary.expenseBreakdown.map ExpenseSlice.totalAmount).sum = summary.expensesTotal ∧
    (summary.expenseBreakdown.map ExpenseSlice.entryCount).sum =
      (expensesIn storeId (forPeriod period offset now) db).ids.card
  /-- The largest slices come first. -/
  ranked : Ranked ExpenseSlice.totalAmount summary.expenseBreakdown
  /-- No product is listed twice, and none that was not sold. -/
  products : (summary.topProducts.map ProductPerformance.productName).Nodup ∧
    ∀ p ∈ summary.topProducts, p ∈ productsSold storeId (forPeriod period offset now) db
  /-- A product is left out only for five that made no less. -/
  best : ∀ p ∈ productsSold storeId (forPeriod period offset now) db, p ∉ summary.topProducts →
    summary.topProducts.length = TOP_PRODUCT_LIMIT ∧ ∀ q ∈ summary.topProducts, p.profit ≤ q.profit

/-- The keys of a listing are listed once each. -/
theorem nodup_keys {ρ : Type} (t : Table String ρ) : (t.entries.map Prod.fst).Nodup := by
  rw [List.Nodup, List.pairwise_map]
  exact (Table.entries_ascending t).imp fun h => h.ne

section

variable {choices : Choices} {storeId : Uuid} {range : DateRange} {db : Db}

/-- Every product is sold under one name. -/
theorem nodup_productsSold :
    ((productsSold storeId range db).map ProductPerformance.productName).Nodup := by
  rw [productsSold, List.map_map]
  exact nodup_keys _

/-- The slices before they are arranged. -/
def slices (storeId : Uuid) (range : DateRange) (db : Db) : List ExpenseSlice :=
  (groupBy (expensesIn storeId range db) (fun _ e => e.category) id).entries.map fun e =>
    slice e.1 e.2

theorem expenseBreakdown_perm :
    (expenseBreakdown choices storeId range db).Perm (slices storeId range db) :=
  choices.slices.perm _

/-- The categories that were spent on. -/
theorem mem_slices {category : String} :
    category ∈ (slices storeId range db).map ExpenseSlice.category ↔
      ∃ id e, (expensesIn storeId range db).find? id = some e ∧ e.category = category := by
  have hkeys : (slices storeId range db).map ExpenseSlice.category =
      (groupBy (expensesIn storeId range db) (fun _ e => e.category) id).entries.map Prod.fst := by
    rw [slices, List.map_map]
    rfl
  rw [hkeys]
  simp only [List.mem_map, Prod.exists, exists_and_right, exists_eq_right, Table.mem_entries,
    find?_groupBy]
  constructor
  · rintro ⟨_, hmem, -⟩
    exact hmem
  · intro hmem
    exact ⟨_, hmem, rfl⟩

/-- The slices come to the expenses of the window. -/
theorem sum_slices (h : StoresCentavos db) :
    ((slices storeId range db).map ExpenseSlice.totalAmount).sum =
      Dashboard.expensesTotal storeId range db := by
  have hgroups : ((groupBy (expensesIn storeId range db) (fun _ e => e.category) id).sum
      fun _ u => u.sum fun _ e => e.amount) = (expensesIn storeId range db).sum fun _ e => e.amount :=
    sum_groupBy fun _ => rfl
  have hlisted : ((slices storeId range db).map ExpenseSlice.totalAmount).sum =
      (groupBy (expensesIn storeId range db) (fun _ e => e.category) id).sum
        fun _ u => u.sum fun _ e => e.amount := by
    rw [Table.sum_eq_entries, slices, List.map_map]
    congr 1
    apply List.map_congr_left
    rintro ⟨category, u⟩ hu
    obtain ⟨-, rfl⟩ := find?_groupBy.mp (Table.mem_entries.mp hu)
    apply Centavos.stored
    apply centavos_sum
    intro id e he
    exact h.expenses id e (of_find?_expensesIn (Table.find?_filter_eq_some.mp he).1)
  rw [hlisted, hgroups]
  exact (centavos_expensesIn h).stored.symm

/-- The entries of the slices are the expenses of the window. -/
theorem sum_entryCount : ((slices storeId range db).map ExpenseSlice.entryCount).sum =
    (expensesIn storeId range db).ids.card := by
  have hcard : ∀ u : Table Uuid Expense, (u.sum fun _ _ => 1) = u.ids.card := by
    intro u
    have hone : ∀ k ∈ u.ids, ((u.find? k).map fun _ => 1).getD 0 = 1 := by
      intro k hk
      obtain ⟨e, he⟩ := Option.isSome_iff_exists.mp ((u.mem_ids k).mp hk)
      rw [he]
      rfl
    rw [Table.sum, Finset.sum_congr rfl hone, Finset.card_eq_sum_ones]
  have hgroups : ((groupBy (expensesIn storeId range db) (fun _ e => e.category) id).sum
      fun _ u => u.ids.card) = (expensesIn storeId range db).sum fun _ _ => 1 :=
    sum_groupBy fun u => (hcard u).symm
  rw [← hcard, ← hgroups, Table.sum_eq_entries, slices, List.map_map]
  rfl

end

/-- For every store, period and clock, the periodic summary shows the
dashboard's totals; its breakdown lists every category spent on, once, the
largest first, and comes to the expenses and their number; and a product that
sold is missing from the list only behind five that made at least as much. -/
theorem periodicSummary_books (choices : Choices) (storeId : Uuid) (period : ReportPeriod)
    (offset : ℤ) (now : Timestamp) (db : Db) (hcentavos : StoresCentavos db) :
    Books choices storeId period offset now db
      (periodicSummary choices storeId period offset now db) := by
  have hslices := @expenseBreakdown_perm choices storeId (forPeriod period offset now) db
  have hproducts := choices.products.perm (productsSold storeId (forPeriod period offset now) db)
  refine ⟨⟨rfl, rfl, rfl, rfl⟩, ⟨?_, ?_⟩, ⟨?_, ?_⟩, choices.slices.ranked _, ⟨?_, ?_⟩, ?_⟩
  · refine (hslices.map ExpenseSlice.category).nodup_iff.mpr ?_
    rw [slices, List.map_map]
    exact nodup_keys _
  · intro category
    exact (hslices.map ExpenseSlice.category).mem_iff.trans mem_slices
  · exact (hslices.map ExpenseSlice.totalAmount).sum_eq.trans (sum_slices hcentavos)
  · exact (hslices.map ExpenseSlice.entryCount).sum_eq.trans sum_entryCount
  · have hall := (hproducts.map ProductPerformance.productName).nodup_iff.mpr nodup_productsSold
    exact hall.sublist ((List.take_sublist _ _).map _)
  · intro p hp
    exact hproducts.mem_iff.mp (List.mem_of_mem_take hp)
  · intro p hp hout
    exact of_notMem_take (choices.products.ranked _) (hproducts.mem_iff.mpr hp) hout

/-- Rows that tie stay as they come. -/
def plain : Choices where
  products := stable
  slices := stable
  recent := stable
  categories := UnusualExpenses.categories
  arithmetic := decimals

theorem periodicSummary_books_twoNights :
    (periodicSummary plain ⟨0⟩ .month 480 (200000 * SECOND) twoNights).expenseBreakdown =
        [⟨"rent", 40, 1⟩] ∧
      Books plain ⟨0⟩ .month 480 (200000 * SECOND) twoNights
        (periodicSummary plain ⟨0⟩ .month 480 (200000 * SECOND) twoNights) :=
  ⟨by decide +kernel, periodicSummary_books plain ⟨0⟩ .month 480 _ twoNights twoNights_centavos⟩

end Kitaza.Reports
