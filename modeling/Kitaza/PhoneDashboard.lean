import Mathlib.Algebra.BigOperators.Ring.Finset
import Mathlib.Algebra.BigOperators.Field
import Kitaza.Dashboard
import Kitaza.PhoneDatabase
import Kitaza.TimestampText

/-!
# The dashboard on the phone

The phone computes the dashboard from its own tables, so that it works
without signal. Money is whole centavos there and timestamps are texts, and
the rows of a period are those whose text lies between the texts of its
bounds. The server adds up amounts and compares instants. Where both hold
the same rows, the two agree as far as the texts sort as the instants do, but
for the last profit, two subtractions of doubles on the phone. A total stands for
the decimal of two places its double was made of.
-/

namespace Kitaza.PhoneDashboard

open KeyedTable Primitives Rounding Calendar BillingPlan ReportWindows TimestampText PhoneDatabase

/-- A row of `products`, as far as the dashboard reads it. -/
structure LocalProduct where
  /-- The store it belongs to. -/
  storeId : Uuid
  /-- Units on hand. -/
  stockQuantity : ℚ
  /-- Level at which to reorder. -/
  reorderLevel : ℚ
  /-- Whether it is offered. -/
  isActive : Bool
  /-- Removal, if it was removed. -/
  deletedAt : Option Stamp
  deriving DecidableEq, Repr

/-- A row of `sales`. -/
structure LocalSale where
  /-- The store it belongs to. -/
  storeId : Uuid
  /-- What was paid, in centavos. -/
  totalAmount : ℤ
  /-- What the goods cost, in centavos. -/
  costAmount : ℤ
  /-- When it happened. -/
  occurredAt : Stamp
  /-- When it was voided, if it was. -/
  deletedAt : Option Stamp
  deriving DecidableEq, Repr

/-- A row of `expenses` or of `owner_withdrawals`. -/
structure LocalAmount where
  /-- The store it belongs to. -/
  storeId : Uuid
  /-- The amount, in centavos. -/
  amount : ℤ
  /-- When it happened. -/
  occurredAt : Stamp
  /-- Removal, if it was removed. -/
  deletedAt : Option Stamp
  deriving DecidableEq, Repr

/-- The tables the dashboard reads. -/
structure LocalDb where
  /-- Products. -/
  products : Table Uuid LocalProduct
  /-- Sales. -/
  sales : Table Uuid LocalSale
  /-- Expenses. -/
  expenses : Table Uuid LocalAmount
  /-- Withdrawals. -/
  ownerWithdrawals : Table Uuid LocalAmount

/-- A bound of a period, as the app writes it. -/
def bound (t : Timestamp) : Stamp := ⟨t, .phone⟩

/-- Whether a row's text lies between the texts of two bounds. -/
def textWithin (range : DateRange) (occurredAt : Stamp) : Bool :=
  decide (¬occurredAt.text < (bound range.start).text) &&
    decide (occurredAt.text < (bound range.ends).text)

/-- What the sales of a window add up to, in pesos. -/
structure SalesTotals where
  /-- What was paid. -/
  salesTotal : ℚ
  /-- What the goods had cost. -/
  costTotal : ℚ
  /-- How many there were. -/
  saleCount : ℕ
  deriving DecidableEq, Repr

/-- The live sales of a window. -/
def salesIn (storeId : Uuid) (range : DateRange) (db : LocalDb) : Table Uuid LocalSale :=
  db.sales.filter fun _ s =>
    s.storeId == storeId && s.deletedAt.isNone && textWithin range s.occurredAt

/-- Add up the sales of a window. -/
def salesTotals (storeId : Uuid) (range : DateRange) (db : LocalDb) : SalesTotals where
  salesTotal := toPesos ((salesIn storeId range db).sum fun _ s => s.totalAmount)
  costTotal := toPesos ((salesIn storeId range db).sum fun _ s => s.costAmount)
  saleCount := (salesIn storeId range db).ids.card

/-- Add up the amounts of a table in a window. -/
def sumAmount (table : Table Uuid LocalAmount) (storeId : Uuid) (range : DateRange) : ℚ :=
  toPesos ((table.filter fun _ r =>
    r.storeId == storeId && r.deletedAt.isNone && textWithin range r.occurredAt).sum fun _ r => r.amount)

/-- Add up the expenses of a window. -/
def expensesTotal (storeId : Uuid) (range : DateRange) (db : LocalDb) : ℚ :=
  sumAmount db.expenses storeId range

/-- Add up the withdrawals of a window. -/
def withdrawalsTotal (storeId : Uuid) (range : DateRange) (db : LocalDb) : ℚ :=
  sumAmount db.ownerWithdrawals storeId range

/-- The products to restock. -/
def lowStockCount (storeId : Uuid) (db : LocalDb) : ℕ :=
  (db.products.filter fun _ p => p.storeId == storeId && p.deletedAt.isNone && p.isActive &&
    decide (0 < p.reorderLevel) && decide (p.stockQuantity ≤ p.reorderLevel)).ids.card

/-- A day of the local calendar. -/
structure LocalDate where
  /-- The year. -/
  year : ℤ
  /-- The month, from 1. -/
  month : ℤ
  /-- The day, from 1. -/
  day : ℤ
  deriving DecidableEq, Repr

/-- The local date of an instant. -/
def localDate (offset : ℤ) (now : Timestamp) : LocalDate :=
  let day := localDay offset now + EPOCH_DAY
  ⟨yearOf day, monthNumber day, dayOfMonth day⟩

/-- The weekday of an instant, Monday being 1. -/
def weekday (offset : ℤ) (now : Timestamp) : ℤ := daysFromMonday (localDay offset now) + 1

/-- The local midnight a day starts with. -/
def midnight (offset : ℤ) (date : LocalDate) : Timestamp :=
  (monthStart (12 * date.year + (date.month - 1)) + (date.day - 1) - EPOCH_DAY) * DAY -
    offset * MINUTE

/-- Start of a period in the phone's local time. -/
def startOf (period : ReportPeriod) (offset : ℤ) (now : Timestamp) : Timestamp :=
  let date := localDate offset now
  match period with
  | .today => midnight offset date
  | .week => midnight offset date - (weekday offset now - 1) * DAY
  | .month => midnight offset ⟨date.year, date.month, 1⟩

/-- What the phone's dashboard shows, the best seller and the rating left
out. -/
structure DashboardSummary where
  /-- Where the period starts. -/
  start : Timestamp
  /-- What was sold. -/
  salesTotal : ℚ
  /-- In how many sales. -/
  saleCount : ℕ
  /-- What the goods had cost. -/
  costOfGoods : ℚ
  /-- What was spent. -/
  expensesTotal : ℚ
  /-- What the owner took out. -/
  withdrawalsTotal : ℚ
  /-- The net profit of the window before. -/
  previousNetProfit : ℚ
  /-- The products to restock. -/
  lowStockCount : ℕ
  deriving DecidableEq, Repr

/-- Sales less costs less expenses, in doubles. -/
def doubleNet (sales cost expenses : ℚ) : ℚ :=
  double (double (double sales - double cost) - double expenses)

/-- Where the amounts and both differences are doubles, that is the profit. -/
theorem doubleNet_of_held {sales cost expenses : ℚ} (hs : FloatRounding.Held 53 sales)
    (hc : FloatRounding.Held 53 cost) (he : FloatRounding.Held 53 expenses)
    (hsc : FloatRounding.Held 53 (sales - cost))
    (hnet : FloatRounding.Held 53 (sales - cost - expenses)) :
    doubleNet sales cost expenses = sales - cost - expenses := by
  rw [doubleNet, double_of_held hs, double_of_held hc, double_of_held he, double_of_held hsc,
    double_of_held hnet]

/-- Whether the two double subtractions of three totals come to the double of what
they leave. -/
def SubtractsRight (sales cost expenses : ℚ) : Prop :=
  doubleNet sales cost expenses = double (sales - cost - expenses)

/-- They do where the totals and both differences are doubles. -/
theorem subtractsRight_of_held {sales cost expenses : ℚ} (hs : FloatRounding.Held 53 sales)
    (hc : FloatRounding.Held 53 cost) (he : FloatRounding.Held 53 expenses)
    (hsc : FloatRounding.Held 53 (sales - cost))
    (hnet : FloatRounding.Held 53 (sales - cost - expenses)) :
    SubtractsRight sales cost expenses := by
  rw [SubtractsRight, doubleNet_of_held hs hc he hsc hnet, double_of_held hnet]

example : ¬SubtractsRight (3 / 10) (1 / 10) (2 / 10) := by
  unfold SubtractsRight
  decide +kernel

theorem abs_double_sub_le_of_le {x b : ℚ} (h : |x| ≤ b) : |double x - x| ≤ b / 2 ^ 53 :=
  (abs_double_sub_le x).trans (div_le_div_of_nonneg_right h (by positivity))

/-- Totals below a million million pesos are subtracted to within a fifth of a
centavo. -/
theorem abs_doubleNet_sub_le {sales cost expenses : ℚ} (hs : |sales| ≤ 10 ^ 12)
    (hc : |cost| ≤ 10 ^ 12) (he : |expenses| ≤ 10 ^ 12) :
    |doubleNet sales cost expenses - (sales - cost - expenses)| ≤ 1 / 500 := by
  have hs' := abs_le.mp (abs_double_sub_le_of_le hs)
  have hc' := abs_le.mp (abs_double_sub_le_of_le hc)
  have he' := abs_le.mp (abs_double_sub_le_of_le he)
  have hsales := abs_le.mp hs
  have hcost := abs_le.mp hc
  have hexpenses := abs_le.mp he
  have hgross : |double sales - double cost| ≤ 2 * 10 ^ 12 + 1 := by
    rw [abs_le]
    constructor <;> linarith
  have hgross' := abs_le.mp (abs_double_sub_le_of_le hgross)
  have hnet : |double (double sales - double cost) - double expenses| ≤ 3 * 10 ^ 12 + 3 := by
    rw [abs_le]
    constructor <;> linarith
  have hnet' := abs_le.mp (abs_double_sub_le_of_le hnet)
  rw [doubleNet, abs_le]
  constructor <;> linarith

/-- Where the totals are below a million million pesos, no centavo is lost in
rounding. -/
theorem doubleNet_eq_double_iff {sales cost expenses : ℚ} (hs : |sales| ≤ 10 ^ 12)
    (hc : |cost| ≤ 10 ^ 12) (he : |expenses| ≤ 10 ^ 12) (a : ℤ) :
    doubleNet sales cost expenses = double (sales - cost - expenses - toPesos a) ↔
      a = 0 ∧ SubtractsRight sales cost expenses := by
  constructor
  · intro h
    have hnear := abs_le.mp (abs_doubleNet_sub_le hs hc he)
    have hsales := abs_le.mp hs
    have hcost := abs_le.mp hc
    have hexpenses := abs_le.mp he
    have hround := abs_double_sub_le (sales - cost - expenses - toPesos a)
    rw [← h, toPesos] at hround
    have hnet : |sales - cost - expenses - (a : ℚ) / 100| ≤ 3 * 10 ^ 12 + |(a : ℚ)| / 100 := by
      have hpart : |sales - cost - expenses| ≤ 3 * 10 ^ 12 := by
        rw [abs_le]
        constructor <;> linarith
      have hsplit := abs_sub (sales - cost - expenses) ((a : ℚ) / 100)
      rw [abs_div, abs_of_pos (by norm_num : (0 : ℚ) < 100)] at hsplit
      linarith
    have hoff : |(a : ℚ)| / 100 ≤ 1 / 500 + (3 * 10 ^ 12 + |(a : ℚ)| / 100) / 2 ^ 53 := by
      have hbound := abs_le.mp (hround.trans (div_le_div_of_nonneg_right hnet (by positivity)))
      have habs : |(a : ℚ) / 100| ≤ 1 / 500 + (3 * 10 ^ 12 + |(a : ℚ)| / 100) / 2 ^ 53 := by
        rw [abs_le]
        constructor <;> linarith
      rwa [abs_div, abs_of_pos (by norm_num : (0 : ℚ) < 100)] at habs
    have hzero : a = 0 := by
      by_contra hne
      have hone : (1 : ℚ) ≤ |(a : ℚ)| := by exact_mod_cast Int.one_le_abs hne
      linarith
    refine ⟨hzero, ?_⟩
    rw [SubtractsRight, h, hzero, toPesos, Int.cast_zero, zero_div, sub_zero]
  · rintro ⟨rfl, h⟩
    rw [toPesos, Int.cast_zero, zero_div, sub_zero]
    exact h

/-- Compute the phone's dashboard. -/
def summarise (storeId : Uuid) (period : ReportPeriod) (offset : ℤ) (now : Timestamp) (db : LocalDb) :
    DashboardSummary :=
  let start := startOf period offset now
  let previousStart := start - (now - start)
  let sales := salesTotals storeId ⟨start, now⟩ db
  let previousSales := salesTotals storeId ⟨previousStart, start⟩ db
  let previousExpenses := expensesTotal storeId ⟨previousStart, start⟩ db
  { start := start
    salesTotal := sales.salesTotal
    saleCount := sales.saleCount
    costOfGoods := sales.costTotal
    expensesTotal := expensesTotal storeId ⟨start, now⟩ db
    withdrawalsTotal := withdrawalsTotal storeId ⟨start, now⟩ db
    previousNetProfit :=
      doubleNet previousSales.salesTotal previousSales.costTotal previousExpenses
    lowStockCount := lowStockCount storeId db }

/-- A product both sides hold. -/
structure SameProduct (p : LocalProduct) (q : Schema.Product) : Prop where
  storeId : p.storeId = q.storeId
  stockQuantity : p.stockQuantity = q.stockQuantity
  reorderLevel : p.reorderLevel = q.reorderLevel
  isActive : p.isActive = q.isActive
  deleted : p.deletedAt.isNone = q.deletedAt.isNone

/-- A sale both sides hold. -/
structure SameSale (s : LocalSale) (t : Schema.Sale) : Prop where
  storeId : s.storeId = t.storeId
  totalAmount : toPesos s.totalAmount = t.totalAmount
  costAmount : toPesos s.costAmount = t.costAmount
  occurredAt : s.occurredAt.instant = t.occurredAt
  deleted : s.deletedAt.isNone = t.deletedAt.isNone

/-- An expense both sides hold. -/
structure SameExpense (e : LocalAmount) (f : Schema.Expense) : Prop where
  storeId : e.storeId = f.storeId
  amount : toPesos e.amount = f.amount
  occurredAt : e.occurredAt.instant = f.occurredAt
  deleted : e.deletedAt.isNone = f.deletedAt.isNone

/-- A withdrawal both sides hold. -/
structure SameWithdrawal (v : LocalAmount) (w : Schema.OwnerWithdrawal) : Prop where
  storeId : v.storeId = w.storeId
  amount : toPesos v.amount = w.amount
  occurredAt : v.occurredAt.instant = w.occurredAt
  deleted : v.deletedAt.isNone = w.deletedAt.isNone

/-- What a phone and the server hold of one store: the same rows. -/
structure Held (storeId : Uuid) where
  /-- The phone's tables. -/
  phone : LocalDb
  /-- The server's. -/
  server : Schema.Db
  /-- The same products. -/
  products : Table.Paired SameProduct (phone.products.filter fun _ p => p.storeId == storeId)
    (server.products.filter fun _ p => p.storeId == storeId)
  /-- The same sales. -/
  sales : Table.Paired SameSale (phone.sales.filter fun _ s => s.storeId == storeId)
    (server.sales.filter fun _ s => s.storeId == storeId)
  /-- The same expenses. -/
  expenses : Table.Paired SameExpense (phone.expenses.filter fun _ e => e.storeId == storeId)
    (server.expenses.filter fun _ e => e.storeId == storeId)
  /-- The same withdrawals. -/
  withdrawals : Table.Paired SameWithdrawal
    (phone.ownerWithdrawals.filter fun _ w => w.storeId == storeId)
    (server.ownerWithdrawals.filter fun _ w => w.storeId == storeId)

/-- A timestamp the phone stores for a sale, an expense or a withdrawal of the
store. -/
def Stored (storeId : Uuid) (db : LocalDb) (x : Stamp) : Prop :=
  (∃ id s, db.sales.find? id = some s ∧ s.storeId = storeId ∧ s.occurredAt = x) ∨
    (∃ id e, db.expenses.find? id = some e ∧ e.storeId = storeId ∧ e.occurredAt = x) ∨
    ∃ id w, db.ownerWithdrawals.find? id = some w ∧ w.storeId = storeId ∧ w.occurredAt = x

/-- The two dashboards agree, and the stored texts sort as their instants. -/
structure Agrees {storeId : Uuid} (held : Held storeId) (period : ReportPeriod) (offset : ℤ)
    (now : Timestamp) : Prop where
  /-- The same start. -/
  start : (summarise storeId period offset now held.phone).start =
    (Dashboard.compute storeId period (forPeriod period offset now) held.server).rangeStart
  /-- The same sales. -/
  salesTotal : (summarise storeId period offset now held.phone).salesTotal =
    (Dashboard.compute storeId period (forPeriod period offset now) held.server).salesTotal
  /-- As many of them. -/
  saleCount : (summarise storeId period offset now held.phone).saleCount =
    (Dashboard.compute storeId period (forPeriod period offset now) held.server).saleCount
  /-- The same costs. -/
  costOfGoods : (summarise storeId period offset now held.phone).costOfGoods =
    (Dashboard.compute storeId period (forPeriod period offset now) held.server).costOfGoods
  /-- The same expenses. -/
  expensesTotal : (summarise storeId period offset now held.phone).expensesTotal =
    (Dashboard.compute storeId period (forPeriod period offset now) held.server).expensesTotal
  /-- The same withdrawals. -/
  withdrawalsTotal : (summarise storeId period offset now held.phone).withdrawalsTotal =
    (Dashboard.compute storeId period (forPeriod period offset now) held.server).withdrawalsTotal
  /-- The same profit before, as a double. -/
  previousNetProfit : (summarise storeId period offset now held.phone).previousNetProfit =
    double
      (Dashboard.compute storeId period (forPeriod period offset now) held.server).previousNetProfit
  /-- As many products to restock. -/
  lowStockCount : (summarise storeId period offset now held.phone).lowStockCount =
    (Dashboard.compute storeId period (forPeriod period offset now) held.server).lowStockCount
  /-- The texts sort as they happened. -/
  ordered : ∀ x y, Stored storeId held.phone x → Stored storeId held.phone y →
    (x.text < y.text ↔ x.instant < y.instant)

/-- Whether the phone counts a row, by where its timestamp sorts. -/
def Counts (range : DateRange) (x : Stamp) : Prop :=
  ¬SortsBefore x (bound range.start) ∧ SortsBefore x (bound range.ends)

instance (range : DateRange) (x : Stamp) : Decidable (Counts range x) :=
  inferInstanceAs (Decidable (_ ∧ _))

/-- How often the phone counts a row too often: 1 for one that did not happen
in the window and sorts into it, -1 for one that did and sorts out of it. -/
def surplus (range : DateRange) (x : Stamp) : ℤ :=
  (if Counts range x then 1 else 0) - if range.Covers x.instant then 1 else 0

/-- A row a millisecond or more from both bounds is counted right. -/
theorem surplus_of_apart {range : DateRange} {x : Stamp} (hx : FourDigitYear x.instant)
    (hstart : FourDigitYear range.start) (hends : FourDigitYear range.ends)
    (hfrom : x.instant + 1000 ≤ range.start ∨ range.start + 1000 ≤ x.instant)
    (hto : x.instant + 1000 ≤ range.ends ∨ range.ends + 1000 ≤ x.instant) : surplus range x = 0 := by
  have hafter : SortsBefore x (bound range.start) ↔ x.instant < range.start :=
    @sortsBefore_of_apart x (bound range.start) hx hstart hfrom
  have hbefore : SortsBefore x (bound range.ends) ↔ x.instant < range.ends :=
    @sortsBefore_of_apart x (bound range.ends) hx hends hto
  have hsame : Counts range x ↔ range.Covers x.instant := by
    rw [Counts, DateRange.Covers, hafter, hbefore, not_lt]
  rw [surplus, if_congr hsame rfl rfl, sub_self]

/-- What the profit of a window has too much by the rows the phone misplaces, in
centavos. -/
def misplacedProfit (storeId : Uuid) (range : DateRange) (db : LocalDb) : ℤ :=
  ((db.sales.filter fun _ s => s.storeId == storeId && s.deletedAt.isNone).sum
      fun _ s => surplus range s.occurredAt * (s.totalAmount - s.costAmount)) -
    (db.expenses.filter fun _ e => e.storeId == storeId && e.deletedAt.isNone).sum
      fun _ e => surplus range e.occurredAt * e.amount

/-- Whether the totals of a window are subtracted right. -/
def TotalsSubtract (storeId : Uuid) (range : DateRange) (db : LocalDb) : Prop :=
  SubtractsRight (salesTotals storeId range db).salesTotal (salesTotals storeId range db).costTotal
    (expensesTotal storeId range db)

/-- What the phone counts too often and what it leaves out come to the same, in
a period and in the window before, whose totals are subtracted right. -/
structure Balanced (storeId : Uuid) (range : DateRange) (db : LocalDb) : Prop where
  /-- In what was sold. -/
  salesTotal : ((db.sales.filter fun _ s => s.storeId == storeId && s.deletedAt.isNone).sum
    fun _ s => surplus range s.occurredAt * s.totalAmount) = 0
  /-- In the number of sales. -/
  saleCount : ((db.sales.filter fun _ s => s.storeId == storeId && s.deletedAt.isNone).sum
    fun _ s => surplus range s.occurredAt) = 0
  /-- In what the goods had cost. -/
  costOfGoods : ((db.sales.filter fun _ s => s.storeId == storeId && s.deletedAt.isNone).sum
    fun _ s => surplus range s.occurredAt * s.costAmount) = 0
  /-- In what was spent. -/
  expensesTotal : ((db.expenses.filter fun _ e => e.storeId == storeId && e.deletedAt.isNone).sum
    fun _ e => surplus range e.occurredAt * e.amount) = 0
  /-- In what the owner took out. -/
  withdrawalsTotal : ((db.ownerWithdrawals.filter fun _ w =>
    w.storeId == storeId && w.deletedAt.isNone).sum
      fun _ w => surplus range w.occurredAt * w.amount) = 0
  /-- In the profit of the window before. -/
  previousProfit : misplacedProfit storeId range.previousWindow db = 0
  /-- Its totals are subtracted right. -/
  previousNetProfit : TotalsSubtract storeId range.previousWindow db

/-- Totals of a window that a column of the server holds, below a million million
pesos. -/
structure Storable (storeId : Uuid) (range : DateRange) (db : LocalDb) : Prop where
  /-- What was sold. -/
  salesTotal : |(salesTotals storeId range db).salesTotal| ≤ 10 ^ 12
  /-- What it had cost. -/
  costTotal : |(salesTotals storeId range db).costTotal| ≤ 10 ^ 12
  /-- What was spent. -/
  expensesTotal : |expensesTotal storeId range db| ≤ 10 ^ 12

/-- No two stored timestamps sort in another order than they happened. -/
def Unclashed (storeId : Uuid) (db : LocalDb) : Prop :=
  ∀ x y, Stored storeId db x → Stored storeId db y → (SortsBefore x y ↔ x.instant < y.instant)

theorem textWithin_iff (range : DateRange) (x : Stamp) : textWithin range x = true ↔ Counts range x := by
  rw [textWithin, Bool.and_eq_true_iff, decide_eq_true_iff, decide_eq_true_iff, text_lt_iff,
    text_lt_iff, Counts]

section Totals

variable {ρ : Type} (t : Table Uuid ρ) (p : ρ → Bool) (stamp : ρ → Stamp) (f : ρ → ℤ)

/-- What the phone adds up is what happened in the window, and the surplus. -/
theorem sum_textWithin (range : DateRange) :
    ((t.filter fun _ r => p r && textWithin range (stamp r)).sum fun _ r => f r) =
      ((t.filter fun _ r => p r && decide (range.Covers (stamp r).instant)).sum fun _ r => f r) +
        (t.filter fun _ r => p r).sum fun _ r => surplus range (stamp r) * f r := by
  rw [Table.sum_filter, Table.sum_filter, Table.sum_filter, ← Table.sum_add]
  apply Table.sum_congr
  intro _ r _
  cases p r with
  | false => rfl
  | true =>
    have hwithin := textWithin_iff range (stamp r)
    simp only [Bool.true_and, if_true, hwithin, decide_eq_true_iff, surplus]
    split_ifs <;> ring

theorem toPesos_add (a b : ℤ) : toPesos (a + b) = toPesos a + toPesos b := by
  rw [toPesos, Int.cast_add, add_div]
  rfl

theorem toPesos_inj {a b : ℤ} : toPesos a = toPesos b ↔ a = b := by
  rw [toPesos, toPesos, div_left_inj' (by norm_num : (100 : ℚ) ≠ 0), Int.cast_inj]

theorem toPesos_zero : toPesos 0 = 0 := by
  rw [toPesos, Int.cast_zero, zero_div]

theorem toPesos_eq_zero {a : ℤ} : toPesos a = 0 ↔ a = 0 := by
  rw [← toPesos_inj, toPesos_zero]

/-- The number of rows, as a total. -/
theorem card_ids_eq_sum : (t.ids.card : ℤ) = t.sum fun _ _ => 1 := by
  have hone : ∀ k ∈ t.ids, ((t.find? k).map fun _ => (1 : ℤ)).getD 0 = 1 := by
    intro k hk
    obtain ⟨r, hr⟩ := Option.isSome_iff_exists.mp ((t.mem_ids k).mp hk)
    rw [hr]
    rfl
  rw [Table.sum, Finset.sum_congr rfl hone, Finset.sum_const, nsmul_eq_mul, mul_one]

/-- A total in pesos. -/
theorem toPesos_sum : toPesos (t.sum fun _ r => f r) = t.sum fun _ r => toPesos (f r) := by
  unfold Table.sum toPesos
  rw [Int.cast_sum, Finset.sum_div]
  apply Finset.sum_congr rfl
  intro k _
  cases t.find? k with
  | none => simp
  | some r => rfl

/-- Whole centavos are stored as they are. -/
theorem numericMoney_toPesos (a : ℤ) : numericMoney (toPesos a) = toPesos a := by
  unfold numericMoney toPesos
  have hfloor : ∀ n : ℤ, ⌊(n : ℚ) + 1 / 2⌋ = n := by
    intro n
    rw [Int.floor_intCast_add]
    norm_num
  split_ifs
  · rw [div_mul_cancel₀ _ (by norm_num : (100 : ℚ) ≠ 0)]
    exact congrArg (fun n : ℤ => (n : ℚ) / 100) (hfloor a)
  · rw [neg_mul, div_mul_cancel₀ _ (by norm_num : (100 : ℚ) ≠ 0), ← Int.cast_neg]
    have h := congrArg (fun n : ℤ => -((n : ℚ) / 100)) (hfloor (-a))
    refine h.trans ?_
    push_cast
    ring

/-- Rows that both sides hold come to the same. -/
theorem sum_held {σ M : Type} [AddCommMonoid M] {u : Table Uuid σ} {R : ρ → σ → Prop}
    {a live covers : ρ → Bool} {b live' covers' : σ → Bool} {g : ρ → M} {h : σ → M}
    (hheld : Table.Paired R (t.filter fun _ r => a r) (u.filter fun _ s => b s))
    (hlive : ∀ r s, R r s → live r = live' s) (hcovers : ∀ r s, R r s → covers r = covers' s)
    (hgh : ∀ r s, R r s → g r = h s) :
    ((t.filter fun _ r => a r && live r && covers r).sum fun _ r => g r) =
      ((u.filter fun _ s => b s && live' s).filter fun _ s => covers' s).sum fun _ s => h s := by
  have hleft : ((t.filter fun _ r => a r && live r && covers r).sum fun _ r => g r) =
      (t.filter fun _ r => a r).sum fun _ r => if live r && covers r then g r else 0 := by
    rw [Table.sum_filter, Table.sum_filter]
    apply Table.sum_congr
    intro _ r _
    cases a r <;> rfl
  have hright : (((u.filter fun _ s => b s && live' s).filter fun _ s => covers' s).sum fun _ s => h s) =
      (u.filter fun _ s => b s).sum fun _ s => if live' s && covers' s then h s else 0 := by
    rw [Table.sum_filter, Table.sum_filter, Table.sum_filter]
    apply Table.sum_congr
    intro _ s _
    cases b s <;> cases live' s <;> rfl
  rw [hleft, hright]
  apply hheld.sum_eq
  intro _ r s hrs
  rw [hlive r s hrs, hcovers r s hrs, hgh r s hrs]

end Totals

/-- The phone's periods start where the server's do. -/
theorem startOf_eq (period : ReportPeriod) (offset : ℤ) (now : Timestamp) :
    startOf period offset now = (forPeriod period offset now).start := by
  have hdate : 12 * yearOf (localDay offset now + EPOCH_DAY) +
      (monthNumber (localDay offset now + EPOCH_DAY) - 1) = monthOf (localDay offset now + EPOCH_DAY) := by
    simp only [yearOf, monthNumber]
    omega
  have hday : monthStart (monthOf (localDay offset now + EPOCH_DAY)) +
      (dayOfMonth (localDay offset now + EPOCH_DAY) - 1) - EPOCH_DAY = localDay offset now := by
    simp only [dayOfMonth]
    omega
  cases period with
  | today =>
    simp only [startOf, localDate, midnight, forPeriod, firstDay]
    rw [hdate, hday]
  | week =>
    simp only [startOf, localDate, midnight, forPeriod, firstDay, weekday]
    rw [hdate, hday]
    ring
  | month =>
    simp only [startOf, localDate, midnight, forPeriod, firstDay]
    rw [hdate, sub_self, add_zero]

section Agreement

variable {storeId : Uuid} (held : Held storeId) (range : DateRange)

/-- What the phone makes of the sales of a window, and the server. -/
theorem sales_eq (f : LocalSale → ℤ) (g : Schema.Sale → Money)
    (hfg : ∀ s t, SameSale s t → toPesos (f s) = g t) :
    toPesos ((salesIn storeId range held.phone).sum fun _ s => f s) =
      numericMoney ((Dashboard.salesIn storeId range held.server).sum fun _ s => g s) +
        toPesos ((held.phone.sales.filter fun _ s => s.storeId == storeId && s.deletedAt.isNone).sum
          fun _ s => surplus range s.occurredAt * f s) := by
  have hboth := sum_held held.phone.sales held.sales (fun s t h => h.deleted)
    (fun s t h => show decide (range.Covers s.occurredAt.instant) = decide (range.Covers t.occurredAt) by
      rw [h.occurredAt]) hfg
  rw [Dashboard.salesIn, Dashboard.liveSales, ← hboth, ← toPesos_sum, numericMoney_toPesos,
    ← toPesos_add]
  exact congrArg toPesos (sum_textWithin held.phone.sales
    (fun s => s.storeId == storeId && s.deletedAt.isNone) LocalSale.occurredAt f range)

/-- What the phone makes of the number of sales. -/
theorem saleCount_eq : ((salesIn storeId range held.phone).ids.card : ℤ) =
    (Dashboard.salesIn storeId range held.server).ids.card +
      (held.phone.sales.filter fun _ s => s.storeId == storeId && s.deletedAt.isNone).sum
        fun _ s => surplus range s.occurredAt := by
  have hboth := sum_held held.phone.sales held.sales (fun s t h => h.deleted)
    (fun s t h => show decide (range.Covers s.occurredAt.instant) = decide (range.Covers t.occurredAt) by
      rw [h.occurredAt]) (fun _ _ _ => (rfl : (1 : ℤ) = 1))
  have hsplit := sum_textWithin held.phone.sales
    (fun s => s.storeId == storeId && s.deletedAt.isNone) LocalSale.occurredAt (fun _ => 1) range
  simp only [mul_one] at hsplit
  rw [card_ids_eq_sum, card_ids_eq_sum, Dashboard.salesIn, Dashboard.liveSales, ← hboth]
  exact hsplit

/-- What the phone makes of the expenses of a window. -/
theorem expenses_eq : expensesTotal storeId range held.phone =
    Dashboard.expensesTotal storeId range held.server +
      toPesos ((held.phone.expenses.filter fun _ e => e.storeId == storeId && e.deletedAt.isNone).sum
        fun _ e => surplus range e.occurredAt * e.amount) := by
  have hboth := sum_held held.phone.expenses held.expenses (fun e f h => h.deleted)
    (fun e f h => show decide (range.Covers e.occurredAt.instant) = decide (range.Covers f.occurredAt) by
      rw [h.occurredAt]) (fun e f h => h.amount)
  rw [expensesTotal, sumAmount, Dashboard.expensesTotal, Dashboard.liveExpenses, ← hboth, ← toPesos_sum,
    numericMoney_toPesos, ← toPesos_add]
  exact congrArg toPesos (sum_textWithin held.phone.expenses
    (fun e => e.storeId == storeId && e.deletedAt.isNone) LocalAmount.occurredAt LocalAmount.amount range)

/-- And of the withdrawals. -/
theorem withdrawals_eq : withdrawalsTotal storeId range held.phone =
    Dashboard.withdrawalsTotal storeId range held.server +
      toPesos ((held.phone.ownerWithdrawals.filter fun _ w =>
        w.storeId == storeId && w.deletedAt.isNone).sum
          fun _ w => surplus range w.occurredAt * w.amount) := by
  have hboth := sum_held held.phone.ownerWithdrawals held.withdrawals (fun v w h => h.deleted)
    (fun v w h => show decide (range.Covers v.occurredAt.instant) = decide (range.Covers w.occurredAt) by
      rw [h.occurredAt]) (fun v w h => h.amount)
  rw [withdrawalsTotal, sumAmount, Dashboard.withdrawalsTotal, Dashboard.liveWithdrawals, ← hboth,
    ← toPesos_sum, numericMoney_toPesos, ← toPesos_add]
  exact congrArg toPesos (sum_textWithin held.phone.ownerWithdrawals
    (fun w => w.storeId == storeId && w.deletedAt.isNone) LocalAmount.occurredAt LocalAmount.amount range)

/-- As many products run low. -/
theorem lowStockCount_eq : lowStockCount storeId held.phone = Dashboard.lowStockCount storeId held.server := by
  rw [← Nat.cast_inj (R := ℤ), lowStockCount, Dashboard.lowStockCount, card_ids_eq_sum, card_ids_eq_sum]
  have hphone : ((held.phone.products.filter fun _ p => p.storeId == storeId && p.deletedAt.isNone &&
      p.isActive && decide (0 < p.reorderLevel) && decide (p.stockQuantity ≤ p.reorderLevel)).sum
        fun _ _ => (1 : ℤ)) = (held.phone.products.filter fun _ p => p.storeId == storeId).sum
          fun _ p => if p.deletedAt.isNone && p.isActive && decide (0 < p.reorderLevel) &&
            decide (p.stockQuantity ≤ p.reorderLevel) then 1 else 0 := by
    rw [Table.sum_filter, Table.sum_filter]
    apply Table.sum_congr
    intro _ p _
    cases p.storeId == storeId <;> rfl
  have hserver : ((held.server.products.filter fun _ p => Dashboard.runsLow storeId p).sum
      fun _ _ => (1 : ℤ)) = (held.server.products.filter fun _ p => p.storeId == storeId).sum
        fun _ p => if p.deletedAt.isNone && p.isActive && decide (0 < p.reorderLevel) &&
          decide (p.stockQuantity ≤ p.reorderLevel) then 1 else 0 := by
    rw [Table.sum_filter, Table.sum_filter]
    apply Table.sum_congr
    intro _ p _
    rw [Dashboard.runsLow]
    cases p.storeId == storeId <;> rfl
  rw [hphone, hserver]
  apply held.products.sum_eq
  intro _ p q h
  rw [h.deleted, h.isActive, h.reorderLevel, h.stockQuantity]

/-- The phone's dashboard over the windows of the server's. -/
theorem summarise_eq (period : ReportPeriod) (offset : ℤ) (now : Timestamp) (db : LocalDb) :
    summarise storeId period offset now db =
      { start := (forPeriod period offset now).start
        salesTotal := (salesTotals storeId (forPeriod period offset now) db).salesTotal
        saleCount := (salesTotals storeId (forPeriod period offset now) db).saleCount
        costOfGoods := (salesTotals storeId (forPeriod period offset now) db).costTotal
        expensesTotal := expensesTotal storeId (forPeriod period offset now) db
        withdrawalsTotal := withdrawalsTotal storeId (forPeriod period offset now) db
        previousNetProfit :=
          doubleNet (salesTotals storeId (forPeriod period offset now).previousWindow db).salesTotal
            (salesTotals storeId (forPeriod period offset now).previousWindow db).costTotal
            (expensesTotal storeId (forPeriod period offset now).previousWindow db)
        lowStockCount := lowStockCount storeId db } := by
  unfold summarise
  rw [startOf_eq]
  rfl

/-- The server's profit of a window is the phone's without what is misplaced. -/
theorem netProfit_eq :
    (Dashboard.salesTotals storeId range held.server).salesTotal -
        (Dashboard.salesTotals storeId range held.server).costTotal -
        Dashboard.expensesTotal storeId range held.server =
      (salesTotals storeId range held.phone).salesTotal -
        (salesTotals storeId range held.phone).costTotal - expensesTotal storeId range held.phone -
        toPesos (misplacedProfit storeId range held.phone) := by
  have htotal := sales_eq held range LocalSale.totalAmount Schema.Sale.totalAmount fun _ _ h => h.totalAmount
  have hcost := sales_eq held range LocalSale.costAmount Schema.Sale.costAmount fun _ _ h => h.costAmount
  have hexpenses := expenses_eq held range
  have hdiff : ((held.phone.sales.filter fun _ s => s.storeId == storeId && s.deletedAt.isNone).sum
      fun _ s => surplus range s.occurredAt * s.totalAmount) =
        ((held.phone.sales.filter fun _ s => s.storeId == storeId && s.deletedAt.isNone).sum
          fun _ s => surplus range s.occurredAt * (s.totalAmount - s.costAmount)) +
        (held.phone.sales.filter fun _ s => s.storeId == storeId && s.deletedAt.isNone).sum
          fun _ s => surplus range s.occurredAt * s.costAmount := by
    rw [← Table.sum_add]
    apply Table.sum_congr
    intro _ s _
    ring
  have hsplit : ∀ a b : ℤ, toPesos (a - b) = toPesos a - toPesos b := fun a b => by
    simp only [toPesos]
    push_cast
    ring
  rw [hdiff, toPesos_add] at htotal
  simp only [salesTotals, Dashboard.salesTotals]
  rw [htotal, hcost, hexpenses, misplacedProfit, hsplit]
  ring

/-- The dashboards agree and the stored texts sort as they happened if the rows the
phone misplaces balance, the totals of the window before are subtracted right and no
stored texts clash. -/
theorem agrees_of_balanced {period : ReportPeriod} {offset : ℤ} {now : Timestamp}
    (h : Balanced storeId (forPeriod period offset now) held.phone)
    (hunclashed : Unclashed storeId held.phone) : Agrees held period offset now := by
  have htotal := sales_eq held (forPeriod period offset now) LocalSale.totalAmount
    Schema.Sale.totalAmount fun _ _ h => h.totalAmount
  have hcost := sales_eq held (forPeriod period offset now) LocalSale.costAmount
    Schema.Sale.costAmount fun _ _ h => h.costAmount
  have hcount := saleCount_eq held (forPeriod period offset now)
  have hexpenses := expenses_eq held (forPeriod period offset now)
  have hwithdrawals := withdrawals_eq held (forPeriod period offset now)
  have hprofit := netProfit_eq held (forPeriod period offset now).previousWindow
  rw [h.salesTotal, toPesos_zero, add_zero] at htotal
  rw [h.costOfGoods, toPesos_zero, add_zero] at hcost
  rw [h.saleCount, add_zero] at hcount
  rw [h.expensesTotal, toPesos_zero, add_zero] at hexpenses
  rw [h.withdrawalsTotal, toPesos_zero, add_zero] at hwithdrawals
  rw [h.previousProfit, toPesos_zero, sub_zero] at hprofit
  refine ⟨?_, ?_, ?_, ?_, ?_, ?_, ?_, ?_, fun x y hx hy => ?_⟩
  · rw [summarise_eq]
    rfl
  · rw [summarise_eq]
    exact htotal
  · rw [summarise_eq]
    exact Nat.cast_injective hcount
  · rw [summarise_eq]
    exact hcost
  · rw [summarise_eq]
    exact hexpenses
  · rw [summarise_eq]
    exact hwithdrawals
  · rw [summarise_eq]
    exact h.previousNetProfit.trans (congrArg double hprofit.symm)
  · rw [summarise_eq]
    exact lowStockCount_eq held
  · rw [text_lt_iff]
    exact hunclashed x y hx hy

/-- And only then, where the totals of the window before are of a size the server
stores. -/
theorem balanced_of_agrees {period : ReportPeriod} {offset : ℤ} {now : Timestamp}
    (hsize : Storable storeId (forPeriod period offset now).previousWindow held.phone)
    (h : Agrees held period offset now) :
    Balanced storeId (forPeriod period offset now) held.phone ∧ Unclashed storeId held.phone := by
  have htotal := sales_eq held (forPeriod period offset now) LocalSale.totalAmount
    Schema.Sale.totalAmount fun _ _ h => h.totalAmount
  have hcost := sales_eq held (forPeriod period offset now) LocalSale.costAmount
    Schema.Sale.costAmount fun _ _ h => h.costAmount
  have hcount := saleCount_eq held (forPeriod period offset now)
  have hexpenses := expenses_eq held (forPeriod period offset now)
  have hwithdrawals := withdrawals_eq held (forPeriod period offset now)
  have hprofit := netProfit_eq held (forPeriod period offset now).previousWindow
  have hprevious := h.previousNetProfit
  rw [summarise_eq] at hprevious
  have hright := (doubleNet_eq_double_iff hsize.salesTotal hsize.costTotal hsize.expensesTotal _).mp
    (hprevious.trans (congrArg double hprofit))
  refine ⟨⟨?_, ?_, ?_, ?_, ?_, hright.1, hright.2⟩, fun x y hx hy => ?_⟩
  · have hsame := h.salesTotal
    rw [summarise_eq] at hsame
    exact toPesos_eq_zero.mp (add_eq_left.mp (htotal.symm.trans hsame))
  · have hsame := congrArg (Nat.cast : ℕ → ℤ) h.saleCount
    rw [summarise_eq] at hsame
    exact add_eq_left.mp (hcount.symm.trans hsame)
  · have hsame := h.costOfGoods
    rw [summarise_eq] at hsame
    exact toPesos_eq_zero.mp (add_eq_left.mp (hcost.symm.trans hsame))
  · have hsame := h.expensesTotal
    rw [summarise_eq] at hsame
    exact toPesos_eq_zero.mp (add_eq_left.mp (hexpenses.symm.trans hsame))
  · have hsame := h.withdrawalsTotal
    rw [summarise_eq] at hsame
    exact toPesos_eq_zero.mp (add_eq_left.mp (hwithdrawals.symm.trans hsame))
  · rw [← text_lt_iff]
    exact h.ordered x y hx hy

end Agreement

/-- One row on both sides. -/
theorem paired_single {ρ σ : Type} {R : ρ → σ → Prop} {a : ρ → Bool} {b : σ → Bool} {id : Uuid} {r : ρ}
    {s : σ} (ha : a r = true) (hb : b s = true) (h : R r s) :
    Table.Paired R ((Table.empty.put id r).filter fun _ r => a r)
      ((Table.empty.put id s).filter fun _ s => b s) := by
  intro k
  rw [Table.find?_filter, Table.find?_filter, Table.find?_put, Table.find?_put]
  split_ifs
  · rw [Option.filter_some, Option.filter_some, if_pos ha, if_pos hb]
    exact .some h
  · exact .none

/-- No row on either side. -/
theorem paired_empty {ρ σ : Type} {R : ρ → σ → Prop} {a : ρ → Bool} {b : σ → Bool} :
    Table.Paired R (Table.empty.filter fun (_ : Uuid) r => a r)
      (Table.empty.filter fun (_ : Uuid) s => b s) := fun _ => .none

/-- A sale of 100 pesos rung up as the 22 September 2026 began in Manila, pulled
from the server. -/
def midnightSale : Held ⟨1⟩ where
  phone := ⟨Table.empty,
    Table.empty.put ⟨2⟩ ⟨⟨1⟩, 10000, 7000, ⟨1790006400 * SECOND, .server⟩, none⟩, Table.empty, Table.empty⟩
  server := { Schema.Db.empty with
    sales := Table.empty.put ⟨2⟩ ⟨⟨1⟩, "cash", 100, 70, 0, none, 1790006400 * SECOND, none, 0, none⟩ }
  products := paired_empty
  sales := paired_single rfl rfl ⟨rfl, by norm_num [toPesos], by norm_num [toPesos], rfl, rfl⟩
  expenses := paired_empty
  withdrawals := paired_empty

end Kitaza.PhoneDashboard
