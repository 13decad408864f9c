import Mathlib.Data.String.Basic
import Kitaza.PhoneDashboard
import Kitaza.Reports

/-!
# The profit trend on the phone

The phone groups its rows by the date SQLite makes of their timestamps in the
device's time zone, adds the two queries up in a map and sorts its keys as
texts. Where the phone and the server hold the same rows, none of them within a
millisecond of the window's bounds, the two trends are the same, point by point,
but for the profit, which the phone works out in doubles.
-/

namespace Kitaza.PhoneReports

open KeyedTable Primitives Calendar BillingPlan ReportWindows DecimalText TimestampText
  PhoneDatabase PhoneDashboard Grouping Reports

/-- A day of the local calendar, counted from the Unix epoch, as a date. -/
def dateText (day : ℤ) : String :=
  String.ofList (digits 4 (yearOf (day + EPOCH_DAY)).toNat ++
    '-' :: digits 2 (monthNumber (day + EPOCH_DAY)).toNat ++
    '-' :: digits 2 (dayOfMonth (day + EPOCH_DAY)).toNat)

/-- The year of a day has four digits. -/
def FourDigitDay (day : ℤ) : Prop :=
  1 ≤ yearOf (day + EPOCH_DAY) ∧ yearOf (day + EPOCH_DAY) ≤ 9999

instance (day : ℤ) : Decidable (FourDigitDay day) := inferInstanceAs (Decidable (_ ∧ _))

/-- Dates sort as their days. -/
theorem dateText_lt {a b : ℤ} (ha : FourDigitDay a) (hb : FourDigitDay b) :
    dateText a < dateText b ↔ a < b := by
  have hday : ∀ day : ℤ, dayOf (day * DAY) = day + EPOCH_DAY := fun day => by
    rw [dayOf, Int.mul_ediv_cancel _ (by decide)]
  obtain ⟨⟨ham, ham'⟩, ⟨had, had'⟩, -⟩ := field_bounds (a * DAY)
  obtain ⟨⟨hbm, hbm'⟩, ⟨hbd, hbd'⟩, -⟩ := field_bounds (b * DAY)
  rw [hday] at ham ham' had had' hbm hbm' hbd hbd'
  obtain ⟨hay, hay'⟩ := ha
  obtain ⟨hby, hby'⟩ := hb
  change (dateText a).toList < (dateText b).toList ↔ _
  simp only [dateText, String.toList_ofList, List.append_assoc, List.cons_append]
  rw [field_lt_iff (by omega) (by omega), separator_lt_iff, field_lt_iff (by omega) (by omega),
    separator_lt_iff, digits_lt_digits (by omega) (by omega)]
  simp only [yearOf, monthNumber] at *
  have hfields := @day_fields_iff (a + EPOCH_DAY) (b + EPOCH_DAY) had hbd False
  simp only [and_false, or_false] at hfields
  rw [month_fields_iff (by omega) (by omega), hfields]
  omega

/-- Two days do not have one date. -/
theorem dateText_inj {a b : ℤ} (ha : FourDigitDay a) (hb : FourDigitDay b)
    (h : dateText a = dateText b) : a = b := by
  rcases lt_trichotomy a b with hlt | heq | hgt
  · exact absurd h ((dateText_lt ha hb).mpr hlt).ne
  · exact heq
  · exact absurd h ((dateText_lt hb ha).mpr hgt).ne'

/-- A point of the trend; the day is a date. -/
structure DailyProfitPoint where
  /-- The day. -/
  day : String
  /-- What was sold. -/
  salesTotal : ℚ
  /-- What was spent. -/
  expensesTotal : ℚ
  /-- What was left. -/
  netProfit : ℚ
  deriving DecidableEq, Repr

/-- The live expenses of a window. -/
def expensesIn (storeId : Uuid) (range : DateRange) (db : LocalDb) : Table Uuid LocalAmount :=
  db.expenses.filter fun _ e =>
    e.storeId == storeId && e.deletedAt.isNone && textWithin range e.occurredAt

section

variable (localDate : Stamp → String) (storeId : Uuid) (range : DateRange) (db : LocalDb)

/-- Sales and costs by date. -/
def saleRows : Table String (ℤ × ℤ) :=
  groupBy (PhoneDashboard.salesIn storeId range db) (fun _ s => localDate s.occurredAt)
    fun sales => (sales.sum fun _ s => s.totalAmount, sales.sum fun _ s => s.costAmount)

/-- Expenses by date. -/
def expenseRows : Table String ℤ :=
  groupBy (expensesIn storeId range db) (fun _ e => localDate e.occurredAt)
    fun expenses => expenses.sum fun _ e => e.amount

end

/-- Set the expenses of a date, beside its sales if it has any. -/
def addExpenses (byDay : Table String (ℚ × ℚ × ℚ)) (row : String × ℤ) :
    Table String (ℚ × ℚ × ℚ) :=
  let entry := (byDay.find? row.1).getD (0, 0, 0)
  byDay.put row.1 (entry.1, entry.2.1, toPesos row.2)

/-- The rows of the two queries in one map: sales, costs and expenses. -/
def byDay (sales : List (String × ℤ × ℤ)) (expenses : List (String × ℤ)) :
    Table String (ℚ × ℚ × ℚ) :=
  expenses.foldl addExpenses
    (Table.empty.putAll (sales.map fun row => (row.1, toPesos row.2.1, toPesos row.2.2, 0)))

/-- Buckets by local calendar day; `localDate` is SQLite's `date` with the
`localtime` modifier. -/
def dailyTrend (localDate : Stamp → String) (storeId : Uuid) (range : DateRange) (db : LocalDb) :
    List DailyProfitPoint :=
  (byDay (saleRows localDate storeId range db).entries
    (expenseRows localDate storeId range db).entries).entries.map fun entry =>
      let values := entry.2
      ⟨entry.1, values.1, values.2.2, doubleNet values.1 values.2.1 values.2.2⟩

/-- Days in the trend. -/
def trendDays : ℤ := 14

/-- The trend of the report the app compiles. -/
def compileTrend (localDate : Stamp → String) (storeId : Uuid) (now : Timestamp) (db : LocalDb) :
    List DailyProfitPoint :=
  dailyTrend localDate storeId ⟨now - trendDays * DAY, now⟩ db

/-- A date without expenses keeps its entry. -/
theorem find?_addExpenses_of_notMem {expenses : List (String × ℤ)} {k : String}
    (h : ∀ amount, (k, amount) ∉ expenses) (t : Table String (ℚ × ℚ × ℚ)) :
    (expenses.foldl addExpenses t).find? k = t.find? k := by
  induction expenses generalizing t with
  | nil => rfl
  | cons row rest ih =>
    rw [List.foldl_cons, ih fun amount hmem => h amount (List.mem_cons_of_mem _ hmem)]
    apply Table.find?_put_ne
    rintro rfl
    exact h row.2 List.mem_cons_self

/-- A date with expenses has them beside its sales. -/
theorem find?_addExpenses_of_mem {expenses : List (String × ℤ)}
    (hnodup : (expenses.map Prod.fst).Nodup) {k : String} {amount : ℤ}
    (h : (k, amount) ∈ expenses) (t : Table String (ℚ × ℚ × ℚ)) :
    (expenses.foldl addExpenses t).find? k =
      some (((t.find? k).getD (0, 0, 0)).1, ((t.find? k).getD (0, 0, 0)).2.1, toPesos amount) := by
  induction expenses generalizing t with
  | nil => cases h
  | cons row rest ih =>
    obtain ⟨hrow, hrest⟩ := List.nodup_cons.mp hnodup
    rw [List.foldl_cons]
    rcases List.mem_cons.mp h with rfl | hmem
    · rw [find?_addExpenses_of_notMem fun other hother =>
        hrow (List.mem_map.mpr ⟨(k, other), hother, rfl⟩)]
      exact Table.find?_put_self _ _ _
    · have hne : k ≠ row.1 := by
        rintro rfl
        exact hrow (List.mem_map.mpr ⟨(row.1, amount), hmem, rfl⟩)
      have hkept : (addExpenses t row).find? k = t.find? k := Table.find?_put_ne _ _ hne
      rw [ih hrest hmem, hkept]

/-- The entry of a date, from the rows of the two queries. -/
def entryOf (row : Option (ℤ × ℤ) × Option ℤ) : ℚ × ℚ × ℚ :=
  (toPesos ((row.1.map (·.1)).getD 0), toPesos ((row.1.map (·.2)).getD 0),
    toPesos (row.2.getD 0))

/-- The map is the outer join of the two queries. -/
theorem find?_byDay (sales : Table String (ℤ × ℤ)) (expenses : Table String ℤ) (k : String) :
    (byDay sales.entries expenses.entries).find? k =
      ((fullJoin sales expenses).find? k).map entryOf := by
  have hsales : ∀ x, (k, x) ∈ sales.entries.map
      (fun row => (row.1, toPesos row.2.1, toPesos row.2.2, (0 : ℚ))) ↔
      ∃ y, sales.find? k = some y ∧ x = (toPesos y.1, toPesos y.2, 0) := by
    intro x
    constructor
    · intro hx
      obtain ⟨⟨j, y⟩, hj, heq⟩ := List.mem_map.mp hx
      cases heq
      exact ⟨y, Table.mem_entries.mp hj, rfl⟩
    · rintro ⟨y, hy, rfl⟩
      exact List.mem_map.mpr ⟨(k, y), Table.mem_entries.mpr hy, rfl⟩
  have hbase : (Table.empty.putAll (sales.entries.map
      fun row => (row.1, toPesos row.2.1, toPesos row.2.2, (0 : ℚ)))).find? k =
        (sales.find? k).map fun y => (toPesos y.1, toPesos y.2, 0) := by
    cases hk : sales.find? k with
    | none =>
      apply Table.find?_putAll_of_notMem
      intro x hx
      obtain ⟨y, hy, -⟩ := (hsales x).mp hx
      rw [hk] at hy
      cases hy
    | some y =>
      apply Table.find?_putAll_of_mem ((hsales _).mpr ⟨y, hk, rfl⟩)
      intro x hx
      obtain ⟨z, hz, rfl⟩ := (hsales x).mp hx
      rw [hk] at hz
      cases hz
      rfl
  have hnodup : (expenses.entries.map Prod.fst).Nodup := by
    rw [List.Nodup, List.pairwise_map]
    exact (Table.entries_ascending expenses).imp fun h => h.ne
  cases he : expenses.find? k with
  | none =>
    rw [byDay, find?_addExpenses_of_notMem, hbase]
    · cases hs : sales.find? k with
      | none =>
        have hno : (fullJoin sales expenses).find? k = none := by
          rw [← Table.notMem_ids]
          intro hmem
          rcases Finset.mem_union.mp hmem with h | h
          · exact Table.notMem_ids.mpr hs h
          · exact Table.notMem_ids.mpr he h
        rw [hno]
        rfl
      | some y =>
        rw [find?_fullJoin.mpr ⟨Or.inl (Table.mem_ids_of_find? hs), rfl⟩, hs, he]
        simp [entryOf, toPesos_zero]
    · intro amount hmem
      rw [Table.mem_entries, he] at hmem
      cases hmem
  | some amount =>
    rw [byDay, find?_addExpenses_of_mem hnodup (Table.mem_entries.mpr he), hbase,
      find?_fullJoin.mpr ⟨Or.inr (Table.mem_ids_of_find? he), rfl⟩, he]
    cases sales.find? k <;> simp [entryOf, toPesos_zero]

section

variable {storeId : Uuid} {held : Held storeId} {localDate : Stamp → String} {offset : ℤ}
  {range : DateRange}

/-- A stored timestamp that the phone places as the server does: its texts and
dates have years of four digits, and it is a millisecond or more from the
bounds of a window. -/
structure Clear (offset : ℤ) (range : DateRange) (x : Stamp) : Prop where
  /-- The year in UTC. -/
  year : FourDigitYear x.instant
  /-- The year of the local day. -/
  day : FourDigitDay (localDay offset x.instant)
  /-- Not at the start. -/
  start : x.instant + 1000 ≤ range.start ∨ range.start + 1000 ≤ x.instant
  /-- Not at the end. -/
  ends : x.instant + 1000 ≤ range.ends ∨ range.ends + 1000 ≤ x.instant

/-- A clear timestamp is counted where it happened. -/
theorem Clear.textWithin {x : Stamp} (h : Clear offset range x) (hstart : FourDigitYear range.start)
    (hends : FourDigitYear range.ends) : textWithin range x = decide (range.Covers x.instant) := by
  have hsurplus := surplus_of_apart h.year hstart hends h.start h.ends
  rw [Bool.eq_iff_iff, textWithin_iff, decide_eq_true_iff]
  rw [surplus] at hsurplus
  split_ifs at hsurplus with hcounts hcovers hcovers
  · exact ⟨fun _ => hcovers, fun _ => hcounts⟩
  · exact absurd hsurplus (by norm_num)
  · exact absurd hsurplus (by norm_num)
  · exact ⟨fun h => absurd h hcounts, fun h => absurd h hcovers⟩

/-- Both sides count the same sales in the window. -/
theorem paired_salesIn (hstart : FourDigitYear range.start) (hends : FourDigitYear range.ends)
    (hclear : ∀ x, Stored storeId held.phone x → Clear offset range x) :
    Table.Paired SameSale (PhoneDashboard.salesIn storeId range held.phone)
      (Dashboard.salesIn storeId range held.server) := by
  have hphone : PhoneDashboard.salesIn storeId range held.phone =
      (held.phone.sales.filter fun _ s => s.storeId == storeId).filter fun _ s =>
        s.deletedAt.isNone && textWithin range s.occurredAt := by
    apply Table.ext_find?
    intro id
    apply Option.ext
    intro s
    simp only [PhoneDashboard.salesIn, Table.find?_filter_eq_some, Bool.and_eq_true, and_assoc]
  have hserver : Dashboard.salesIn storeId range held.server =
      (held.server.sales.filter fun _ s => s.storeId == storeId).filter fun _ s =>
        s.deletedAt.isNone && decide (range.Covers s.occurredAt) := by
    apply Table.ext_find?
    intro id
    apply Option.ext
    intro s
    simp only [Dashboard.salesIn, Dashboard.liveSales, Table.find?_filter_eq_some,
      Bool.and_eq_true, and_assoc]
  rw [hphone, hserver]
  apply held.sales.filter
  intro id s t hs _ hsame
  obtain ⟨hfind, hof⟩ := Table.find?_filter_eq_some.mp hs
  have hstored : Stored storeId held.phone s.occurredAt :=
    Or.inl ⟨id, s, hfind, beq_iff_eq.mp hof, rfl⟩
  rw [(hclear _ hstored).textWithin hstart hends, hsame.deleted, hsame.occurredAt]

/-- And the same expenses. -/
theorem paired_expensesIn (hstart : FourDigitYear range.start) (hends : FourDigitYear range.ends)
    (hclear : ∀ x, Stored storeId held.phone x → Clear offset range x) :
    Table.Paired SameExpense (expensesIn storeId range held.phone)
      (Reports.expensesIn storeId range held.server) := by
  have hphone : expensesIn storeId range held.phone =
      (held.phone.expenses.filter fun _ e => e.storeId == storeId).filter fun _ e =>
        e.deletedAt.isNone && textWithin range e.occurredAt := by
    apply Table.ext_find?
    intro id
    apply Option.ext
    intro e
    simp only [expensesIn, Table.find?_filter_eq_some, Bool.and_eq_true, and_assoc]
  have hserver : Reports.expensesIn storeId range held.server =
      (held.server.expenses.filter fun _ e => e.storeId == storeId).filter fun _ e =>
        e.deletedAt.isNone && decide (range.Covers e.occurredAt) := by
    apply Table.ext_find?
    intro id
    apply Option.ext
    intro e
    simp only [Reports.expensesIn, Dashboard.liveExpenses, Table.find?_filter_eq_some,
      Bool.and_eq_true, and_assoc]
  rw [hphone, hserver]
  apply held.expenses.filter
  intro id e f he _ hsame
  obtain ⟨hfind, hof⟩ := Table.find?_filter_eq_some.mp he
  have hstored : Stored storeId held.phone e.occurredAt :=
    Or.inr (Or.inl ⟨id, e, hfind, beq_iff_eq.mp hof, rfl⟩)
  rw [(hclear _ hstored).textWithin hstart hends, hsame.deleted, hsame.occurredAt]

/-- The local days of what is counted. -/
theorem fourDigitDay_of_mem (hstart : FourDigitYear range.start) (hends : FourDigitYear range.ends)
    (hclear : ∀ x, Stored storeId held.phone x → Clear offset range x) {day : ℤ}
    (hday : day ∈ (fullJoin (saleDays storeId range offset held.server)
      (expenseDays storeId range offset held.server)).ids) : FourDigitDay day := by
  rcases Finset.mem_union.mp hday with h | h
  · obtain ⟨id, t, ht, rfl⟩ := mem_groups.mp h
    have hpair := paired_salesIn hstart hends hclear id
    rw [ht] at hpair
    generalize hs : (PhoneDashboard.salesIn storeId range held.phone).find? id = s at hpair
    cases hpair with
    | @some s _ hsame =>
      obtain ⟨hfind, hkept⟩ := Table.find?_filter_eq_some.mp hs
      rw [Bool.and_eq_true, Bool.and_eq_true, beq_iff_eq] at hkept
      rw [← hsame.occurredAt]
      exact (hclear _ (Or.inl ⟨id, s, hfind, hkept.1.1, rfl⟩)).day
  · obtain ⟨id, f, hf, rfl⟩ := mem_groups.mp h
    have hpair := paired_expensesIn hstart hends hclear id
    rw [hf] at hpair
    generalize he : (expensesIn storeId range held.phone).find? id = e at hpair
    cases hpair with
    | @some e _ hsame =>
      obtain ⟨hfind, hkept⟩ := Table.find?_filter_eq_some.mp he
      rw [Bool.and_eq_true, Bool.and_eq_true, beq_iff_eq] at hkept
      rw [← hsame.occurredAt]
      exact (hclear _ (Or.inr (Or.inl ⟨id, e, hfind, hkept.1.1, rfl⟩))).day

/-- A sale is grouped under the date of its local day. -/
theorem localDate_sale (hdate : ∀ x, Stored storeId held.phone x →
      localDate x = dateText (localDay offset x.instant)) (id : Uuid) (s : LocalSale)
    (t : Schema.Sale) (hs : (PhoneDashboard.salesIn storeId range held.phone).find? id = some s)
    (_ : (Dashboard.salesIn storeId range held.server).find? id = some t) (hsame : SameSale s t) :
    localDate s.occurredAt = dateText (localDay offset t.occurredAt) := by
  obtain ⟨hfind, hkept⟩ := Table.find?_filter_eq_some.mp hs
  rw [Bool.and_eq_true, Bool.and_eq_true, beq_iff_eq] at hkept
  rw [hdate _ (Or.inl ⟨id, s, hfind, hkept.1.1, rfl⟩), hsame.occurredAt]

/-- And an expense. -/
theorem localDate_expense (hdate : ∀ x, Stored storeId held.phone x →
      localDate x = dateText (localDay offset x.instant)) (id : Uuid) (e : LocalAmount)
    (f : Schema.Expense) (he : (expensesIn storeId range held.phone).find? id = some e)
    (_ : (Reports.expensesIn storeId range held.server).find? id = some f)
    (hsame : SameExpense e f) :
    localDate e.occurredAt = dateText (localDay offset f.occurredAt) := by
  obtain ⟨hfind, hkept⟩ := Table.find?_filter_eq_some.mp he
  rw [Bool.and_eq_true, Bool.and_eq_true, beq_iff_eq] at hkept
  rw [hdate _ (Or.inr (Or.inl ⟨id, e, hfind, hkept.1.1, rfl⟩)), hsame.occurredAt]

/-- Amounts that agree row for row come to the same in pesos. -/
theorem toPesos_sum_paired {ρ σ : Type} {R : ρ → σ → Prop} {t : Table Uuid ρ} {u : Table Uuid σ}
    (h : Table.Paired R t u) {f : ρ → ℤ} {g : σ → ℚ} (hfg : ∀ r s, R r s → toPesos (f r) = g s) :
    toPesos (t.sum fun _ r => f r) = u.sum fun _ s => g s := by
  rw [toPesos_sum]
  exact h.sum_eq fun _ r s => hfg r s

/-- Sales and costs of a day, on both sides. -/
theorem find?_saleRows (hstart : FourDigitYear range.start) (hends : FourDigitYear range.ends)
    (hclear : ∀ x, Stored storeId held.phone x → Clear offset range x)
    (hdate : ∀ x, Stored storeId held.phone x →
      localDate x = dateText (localDay offset x.instant)) {day : ℤ} (hday : FourDigitDay day) :
    ((saleRows localDate storeId range held.phone).find? (dateText day)).map
        (fun x => (toPesos x.1, toPesos x.2)) =
      (saleDays storeId range offset held.server).find? day := by
  apply find?_groupBy_paired (paired_salesIn hstart hends hclear) (localDate_sale hdate)
  · intro id t ht hname
    apply dateText_inj _ hday hname
    apply fourDigitDay_of_mem hstart hends hclear
    exact Finset.mem_union_left _ (mem_groups.mpr ⟨id, t, ht, rfl⟩)
  · intro t u htu
    exact Prod.ext (toPesos_sum_paired htu fun _ _ h => h.totalAmount)
      (toPesos_sum_paired htu fun _ _ h => h.costAmount)

/-- Expenses of a day, on both sides. -/
theorem find?_expenseRows (hstart : FourDigitYear range.start) (hends : FourDigitYear range.ends)
    (hclear : ∀ x, Stored storeId held.phone x → Clear offset range x)
    (hdate : ∀ x, Stored storeId held.phone x →
      localDate x = dateText (localDay offset x.instant)) {day : ℤ} (hday : FourDigitDay day) :
    ((expenseRows localDate storeId range held.phone).find? (dateText day)).map toPesos =
      (expenseDays storeId range offset held.server).find? day := by
  apply find?_groupBy_paired (paired_expensesIn hstart hends hclear) (localDate_expense hdate)
  · intro id f hf hname
    apply dateText_inj _ hday hname
    apply fourDigitDay_of_mem hstart hends hclear
    exact Finset.mem_union_right _ (mem_groups.mpr ⟨id, f, hf, rfl⟩)
  · intro t u htu
    exact toPesos_sum_paired htu fun _ _ h => h.amount

/-- The dates of the map are those of the server's days. -/
theorem dates_eq (hstart : FourDigitYear range.start) (hends : FourDigitYear range.ends)
    (hclear : ∀ x, Stored storeId held.phone x → Clear offset range x)
    (hdate : ∀ x, Stored storeId held.phone x →
      localDate x = dateText (localDay offset x.instant)) :
    (fullJoin (saleRows localDate storeId range held.phone)
        (expenseRows localDate storeId range held.phone)).ids =
      (fullJoin (saleDays storeId range offset held.server)
        (expenseDays storeId range offset held.server)).ids.image dateText := by
  have hsales : (saleRows localDate storeId range held.phone).ids =
      (saleDays storeId range offset held.server).ids.image dateText :=
    groups_of_paired (paired_salesIn hstart hends hclear) (localDate_sale hdate)
  have hexpenses : (expenseRows localDate storeId range held.phone).ids =
      (expenseDays storeId range offset held.server).ids.image dateText :=
    groups_of_paired (paired_expensesIn hstart hends hclear) (localDate_expense hdate)
  change _ ∪ _ = Finset.image dateText (_ ∪ _)
  rw [hsales, hexpenses, Finset.image_union]

/-- The figures of a joined row, as the server casts them. -/
def castRow (row : Option (Money × Money) × Option Money) : ℚ × ℚ × ℚ :=
  (numericMoney ((row.1.map (·.1)).getD 0), numericMoney ((row.1.map (·.2)).getD 0),
    numericMoney (row.2.getD 0))

/-- The phone's entries are the server's rows. -/
theorem entries_byDay (hstart : FourDigitYear range.start) (hends : FourDigitYear range.ends)
    (hclear : ∀ x, Stored storeId held.phone x → Clear offset range x)
    (hdate : ∀ x, Stored storeId held.phone x →
      localDate x = dateText (localDay offset x.instant)) :
    (byDay (saleRows localDate storeId range held.phone).entries
        (expenseRows localDate storeId range held.phone).entries).entries =
      (fullJoin (saleDays storeId range offset held.server)
        (expenseDays storeId range offset held.server)).entries.map
          fun e => (dateText e.1, castRow e.2) := by
  have hzero : numericMoney 0 = 0 := by
    rw [← toPesos_zero, numericMoney_toPesos]
  have hcast : ∀ (a : Option (ℤ × ℤ)) (b : Option ℤ), entryOf (a, b) =
      castRow (a.map fun x => (toPesos x.1, toPesos x.2), b.map toPesos) := by
    intro a b
    cases a <;> cases b <;> simp [entryOf, castRow, numericMoney_toPesos, toPesos_zero, hzero]
  have hids := dates_eq hstart hends hclear hdate
  apply entries_eq_map
  · intro day hday day' hday' hlt
    exact (dateText_lt (fourDigitDay_of_mem hstart hends hclear hday)
      (fourDigitDay_of_mem hstart hends hclear hday')).mpr hlt
  · intro day x hx
    have hmem := Table.mem_ids_of_find? hx
    have hfour := fourDigitDay_of_mem hstart hends hclear hmem
    have hdateMem : dateText day ∈ (fullJoin (saleRows localDate storeId range held.phone)
        (expenseRows localDate storeId range held.phone)).ids := by
      rw [hids]
      exact Finset.mem_image_of_mem _ hmem
    obtain ⟨-, rfl⟩ := find?_fullJoin.mp hx
    rw [find?_byDay, find?_fullJoin.mpr ⟨Finset.mem_union.mp hdateMem, rfl⟩, Option.map_some,
      hcast, find?_saleRows hstart hends hclear hdate hfour,
      find?_expenseRows hstart hends hclear hdate hfour]
  · intro date hmem
    rw [Table.mem_ids, find?_byDay, Option.isSome_map, ← Table.mem_ids, hids,
      Finset.mem_image] at hmem
    exact hmem

end

/-- A phone with a sale of 100 pesos a minute before midnight in Manila, on 21
September 2026, and an expense of 50 a minute after. -/
def phoneAroundMidnight : LocalDb :=
  ⟨Table.empty, Table.empty.put ⟨2⟩ ⟨⟨1⟩, 10000, 7000, ⟨1790006340 * SECOND, .server⟩, none⟩,
    Table.empty.put ⟨3⟩ ⟨⟨1⟩, 5000, ⟨1790006460 * SECOND, .phone⟩, none⟩, Table.empty⟩

/-- The server of that phone. -/
def serverAroundMidnight : Schema.Db :=
  { Schema.Db.empty with
    sales := Table.empty.put ⟨2⟩
      ⟨⟨1⟩, "cash", 100, 70, 0, none, 1790006340 * SECOND, none, 0, none⟩
    expenses := Table.empty.put ⟨3⟩ ⟨⟨1⟩, "rent", none, 50, 1790006460 * SECOND, none, 0, none⟩ }

theorem paired_sales_aroundMidnight :
    Table.Paired SameSale (phoneAroundMidnight.sales.filter fun _ s => s.storeId == ⟨1⟩)
      (serverAroundMidnight.sales.filter fun _ s => s.storeId == ⟨1⟩) :=
  paired_single rfl rfl ⟨rfl, by norm_num [toPesos], by norm_num [toPesos], rfl, rfl⟩

theorem paired_expenses_aroundMidnight :
    Table.Paired SameExpense (phoneAroundMidnight.expenses.filter fun _ e => e.storeId == ⟨1⟩)
      (serverAroundMidnight.expenses.filter fun _ e => e.storeId == ⟨1⟩) :=
  paired_single rfl rfl ⟨rfl, by norm_num [toPesos], rfl, rfl⟩

theorem paired_products_aroundMidnight :
    Table.Paired SameProduct (phoneAroundMidnight.products.filter fun _ p => p.storeId == ⟨1⟩)
      (serverAroundMidnight.products.filter fun _ p => p.storeId == ⟨1⟩) :=
  paired_empty

theorem paired_withdrawals_aroundMidnight :
    Table.Paired SameWithdrawal
      (phoneAroundMidnight.ownerWithdrawals.filter fun _ w => w.storeId == ⟨1⟩)
      (serverAroundMidnight.ownerWithdrawals.filter fun _ w => w.storeId == ⟨1⟩) :=
  paired_empty

/-- The two hold the same rows. -/
def aroundMidnight : Held ⟨1⟩ :=
  ⟨phoneAroundMidnight, serverAroundMidnight, paired_products_aroundMidnight,
    paired_sales_aroundMidnight, paired_expenses_aroundMidnight, paired_withdrawals_aroundMidnight⟩

/-- SQLite's dates in Manila. -/
def manilaDate (x : Stamp) : String := dateText (localDay 480 x.instant)

theorem stored_aroundMidnight {x : Stamp} (h : Stored ⟨1⟩ aroundMidnight.phone x) :
    x = ⟨1790006340 * SECOND, .server⟩ ∨ x = ⟨1790006460 * SECOND, .phone⟩ := by
  rcases h with ⟨id, s, hs, -, rfl⟩ | ⟨id, e, he, -, rfl⟩ | ⟨id, w, hw, -, -⟩
  · simp only [aroundMidnight, phoneAroundMidnight, Table.find?_put] at hs
    split_ifs at hs
    · cases hs
      exact Or.inl rfl
    · cases hs
  · simp only [aroundMidnight, phoneAroundMidnight, Table.find?_put] at he
    split_ifs at he
    · cases he
      exact Or.inr rfl
    · cases he
  · cases hw

end Kitaza.PhoneReports
