import Kitaza.BillingPlan
import Kitaza.Rounding
import Kitaza.Schema

/-!
# Comparing a store with others

A store's last month of trading, the size of a store, and the medians over the
other stores of its kind and size that share their figures.
-/

namespace Kitaza.Benchmarks

open KeyedTable Primitives BillingPlan Rounding
open Schema (Sale Expense)

/-- The window every comparison is made over, in days. -/
def WINDOW_DAYS : ℤ := 30

/-- A row of `stores`. -/
structure Store where
  /-- What kind of business it is. -/
  businessType : String
  /-- Whether it shares its figures. -/
  shareBenchmarks : Bool
  deriving DecidableEq, Repr

/-- The tables a comparison reads. -/
structure Db where
  /-- Stores. -/
  stores : Table Uuid Store
  /-- Sales, voided ones included. -/
  sales : Table Uuid Sale
  /-- Expenses, removed ones included. -/
  expenses : Table Uuid Expense

/-- One store's month, as the comparison sees it. -/
structure StoreMonth where
  /-- What was sold. -/
  salesTotal : ℚ
  /-- What the goods had cost. -/
  costTotal : ℚ
  /-- What was spent. -/
  expenseTotal : ℚ
  /-- How many sales there were. -/
  saleCount : ℕ
  deriving DecidableEq, Repr

namespace StoreMonth

/-- The share of sales left after costs. -/
def marginPercent (m : StoreMonth) : Option ℚ :=
  if 0 < m.salesTotal then some ((m.salesTotal - m.costTotal) / m.salesTotal * 100) else none

/-- The share of sales spent. -/
def expensePercent (m : StoreMonth) : Option ℚ :=
  if 0 < m.salesTotal then some (m.expenseTotal / m.salesTotal * 100) else none

/-- What is sold in a day. -/
def dailySales (m : StoreMonth) : ℚ := m.salesTotal / WINDOW_DAYS

/-- Enough trading to be worth comparing. -/
def isTrading (m : StoreMonth) : Bool := decide (20 ≤ m.saleCount) && decide (0 < m.salesTotal)

end StoreMonth

/-- A store's live sales since the window opened. -/
def monthSales (storeId : Uuid) (now : Timestamp) (db : Db) : Table Uuid Sale :=
  db.sales.filter fun _ s =>
    s.storeId == storeId && s.deletedAt.isNone && decide (now - WINDOW_DAYS * DAY ≤ s.occurredAt)

/-- A store's live expenses since the window opened. -/
def monthExpenses (storeId : Uuid) (now : Timestamp) (db : Db) : Table Uuid Expense :=
  db.expenses.filter fun _ e =>
    e.storeId == storeId && e.deletedAt.isNone && decide (now - WINDOW_DAYS * DAY ≤ e.occurredAt)

/-- A store's month. -/
def storeMonth (storeId : Uuid) (now : Timestamp) (db : Db) : StoreMonth where
  salesTotal := (monthSales storeId now db).sum fun _ s => s.totalAmount
  costTotal := (monthSales storeId now db).sum fun _ s => s.costAmount
  expenseTotal := (monthExpenses storeId now db).sum fun _ e => e.amount
  saleCount := (monthSales storeId now db).ids.card

/-- How much a store sells. -/
inductive SizeBand where
  | small
  | medium
  | large
  deriving DecidableEq, Repr

namespace SizeBand

/-- The size of a store with some monthly sales. -/
def of (monthlySales : ℚ) : SizeBand :=
  if monthlySales < 30000 then .small
  else if monthlySales < 150000 then .medium
  else .large

/-- The sales a size goes from and up to; absent where there is no end. -/
def bounds : SizeBand → ℚ × Option ℚ
  | .small => (0, some 30000)
  | .medium => (30000, some 150000)
  | .large => (150000, none)

/-- The text of a size. -/
def asStr : SizeBand → String
  | .small => "small"
  | .medium => "medium"
  | .large => "large"

theorem asStr_injective : Function.Injective asStr := by
  intro a b h
  revert h
  cases a <;> cases b <;> decide

end SizeBand

/-- What the query asks of a month: trading, and within the bounds of a size,
where an upper bound of zero stands for none. -/
def tradesWithin (m : StoreMonth) (lower upper : ℚ) : Bool :=
  decide (20 ≤ m.saleCount) && decide (0 < m.salesTotal) && decide (lower ≤ m.salesTotal) &&
    (decide (upper = 0) || decide (m.salesTotal < upper))

/-- The stores behind the medians for an asking store. -/
def peers (storeId : Uuid) (businessType : String) (band : SizeBand) (now : Timestamp) (db : Db) :
    Table Uuid Store :=
  db.stores.filter fun id st =>
    st.shareBenchmarks && id != storeId && st.businessType == businessType &&
      tradesWithin (storeMonth id now db) band.bounds.1 (band.bounds.2.getD 0)

/-- The middle of the pack, and how many stores are in it. -/
structure PeerMedians where
  /-- The stores. -/
  sampleSize : ℕ
  /-- The middle margin. -/
  marginPercent : Option ℚ
  /-- The middle share spent. -/
  expensePercent : Option ℚ
  /-- The middle sales of a day. -/
  dailySales : Option ℚ
  deriving DecidableEq, Repr

/-- The middle of some figures, halfway between the two middle ones where there
are two. -/
def median (figures : List ℚ) : Option ℚ :=
  let sorted := figures.insertionSort (· ≤ ·)
  (sorted[(sorted.length - 1) / 2]?).bind fun low =>
    (sorted[sorted.length / 2]?).map fun high => (low + high) / 2

/-- The medians over some stores. -/
def mediansOver (stores : Table Uuid Store) (now : Timestamp) (db : Db) : PeerMedians :=
  let months := stores.keys.map fun id => storeMonth id now db
  { sampleSize := stores.ids.card
    marginPercent := median (months.map fun m => (m.salesTotal - m.costTotal) / m.salesTotal * 100)
    expensePercent := median (months.map fun m => m.expenseTotal / m.salesTotal * 100)
    dailySales := median (months.map fun m => m.salesTotal / WINDOW_DAYS) }

/-- The medians for an asking store. -/
def peerMedians (storeId : Uuid) (businessType : String) (band : SizeBand) (now : Timestamp)
    (db : Db) : PeerMedians :=
  mediansOver (peers storeId businessType band now db) now db

/-- The query and the code agree on which months trade, and on sizes. -/
theorem tradesWithin_iff (m : StoreMonth) (band : SizeBand) :
    tradesWithin m band.bounds.1 (band.bounds.2.getD 0) = true ↔
      m.isTrading = true ∧ SizeBand.of m.salesTotal = band := by
  simp only [tradesWithin, StoreMonth.isTrading, Bool.and_eq_true, Bool.or_eq_true, decide_eq_true_eq,
    and_assoc]
  refine and_congr_right fun _ => and_congr_right fun hpos => ?_
  unfold SizeBand.of
  cases band with
  | small =>
    simp only [SizeBand.bounds, Option.getD_some]
    split_ifs with hsmall hmedium
    · exact ⟨fun _ => rfl, fun _ => ⟨hpos.le, Or.inr hsmall⟩⟩
    · exact ⟨fun h => absurd (h.2.resolve_left (by norm_num)) hsmall, fun h => by cases h⟩
    · exact ⟨fun h => absurd (h.2.resolve_left (by norm_num)) hsmall, fun h => by cases h⟩
  | medium =>
    simp only [SizeBand.bounds, Option.getD_some]
    split_ifs with hsmall hmedium
    · exact ⟨fun h => absurd h.1 (not_le.mpr hsmall), fun h => by cases h⟩
    · exact ⟨fun _ => rfl, fun _ => ⟨not_lt.mp hsmall, Or.inr hmedium⟩⟩
    · exact ⟨fun h => absurd (h.2.resolve_left (by norm_num)) hmedium, fun h => by cases h⟩
  | large =>
    simp only [SizeBand.bounds, Option.getD_none]
    split_ifs with hsmall hmedium
    · exact ⟨fun h => absurd (h.1.trans_lt hsmall) (by norm_num), fun h => by cases h⟩
    · exact ⟨fun h => absurd h.1 (not_le.mpr hmedium), fun h => by cases h⟩
    · exact ⟨fun _ => rfl, fun _ => ⟨not_lt.mp hmedium, Or.inl trivial⟩⟩

/-- The stores behind the medians: other stores of the kind and size that share
their figures and trade. -/
theorem find?_peers {storeId : Uuid} {businessType : String} {band : SizeBand} {now : Timestamp}
    {db : Db} {id : Uuid} {st : Store} :
    (peers storeId businessType band now db).find? id = some st ↔ db.stores.find? id = some st ∧
      st.shareBenchmarks = true ∧ id ≠ storeId ∧ st.businessType = businessType ∧
        (storeMonth id now db).isTrading = true ∧
          SizeBand.of (storeMonth id now db).salesTotal = band := by
  simp only [peers, Table.find?_filter_eq_some, Bool.and_eq_true, bne_iff_ne, beq_iff_eq,
    tradesWithin_iff, and_assoc]

end Kitaza.Benchmarks
