import Mathlib.Data.String.Basic
import Kitaza.PhoneLedger
import Kitaza.PriceAdvisor
import Kitaza.RestockAdvisor
import Kitaza.Seasonality

/-!
# What the phone makes of its history

The app reads two months of sales, deliveries, counts and spoilage and makes its
suggestions of them. What it takes for the shelf of a past day is worked out
backwards from the stock of today. On a phone whose ledger balances that is what
the ledger says of that day, over the whole of it, where the sums on the way are
doubles. The averages of a forecast and the advice made of it are taken to be
exact.
-/

namespace Kitaza.Insights

open KeyedTable Primitives FloatRounding Rounding BillingPlan ReportWindows PhoneDatabase PhoneLedger
  SellingDays TopRanked

section

variable (offset : ℤ) (storeId : Uuid) (today : Timestamp) (db : PhoneDb)

/-- The products in use. -/
def activeProducts (byName : Arrangement fun product : Product => OrderDual.toDual product.name) :
    List Product :=
  byName.arrange <| (db.products.entries.filter fun (_, row) =>
    row.storeId = storeId ∧ row.deletedAt = none ∧ row.isActive = true).map fun (id, row) =>
      Product.fromRow id row

/-- What the store took each day. -/
def dailySales (since : Timestamp) : List (ℤ × ℚ) :=
  (groupByDay ((db.sales.entries.filter fun (_, sale) =>
    sale.storeId = storeId ∧ sale.deletedAt = none ∧ since ≤ sale.occurredAt).map fun (_, sale) =>
      (startOfDay offset sale.occurredAt, (sale.totalAmount : ℚ)))).map fun (day, total) =>
        (day, total / 100)

/-- How fast each product sells. -/
def forecasts (byName : Arrangement fun product : Product => OrderDual.toDual product.name) :
    List (Product × DemandForecast) :=
  (activeProducts storeId db byName).map fun product =>
    (product, forecastDemand (compileDays offset storeId today product.id db product.stockQuantity)
      (startOfDay offset today))

/-- What the store's own numbers suggest. -/
structure StoreInsights where
  /-- What to reorder. -/
  restock : List RestockAdvisor.RestockAdvice
  /-- Prices worth a second look. -/
  prices : List PriceAdvisor.PriceAdvice
  /-- Payday weeks against the rest of the month. -/
  payday : Seasonality.PaydayPattern
  /-- The best weekday. -/
  busiestDay : Option Seasonality.BusiestDay
  /-- The next payday. -/
  nextPayday : ℤ
  /-- Days on which anything was sold. -/
  daysOfHistory : ℕ

/-- The days it takes to know a store. -/
def enoughHistoryDays : ℕ := 14

/-- The ways lists are sorted. -/
structure Sorts where
  /-- Products by name. -/
  byName : Arrangement fun product : Product => OrderDual.toDual product.name
  /-- Advice by the days the stock lasts. -/
  byCover : Arrangement RestockAdvisor.runsOutFirst
  /-- Advice by the reorder level. -/
  byLevel : Arrangement RestockAdvisor.lowestFirst
  /-- Prices by what they add. -/
  byValue : Arrangement PriceAdvisor.mostValuable

/-- Works out the suggestions from what is already on the phone. -/
def compile (sorts : Sorts) : Option StoreInsights :=
  let dailySales := dailySales offset storeId db (today - patternWindowDays * DAY)
  let forecasts := forecasts offset storeId today db sorts.byName
  let daysOfHistory := dailySales.length
  (RestockAdvisor.suggestRestocks sorts.byCover sorts.byLevel forecasts 6).bind fun restock =>
    (PriceAdvisor.suggestPrices sorts.byValue (decide (enoughHistoryDays ≤ daysOfHistory)) forecasts
      5).map fun prices =>
        { restock := restock
          prices := prices
          payday := Seasonality.detectPaydayPattern dailySales
          busiestDay := Seasonality.busiestWeekday dailySales
          nextPayday := Seasonality.nextPayday (startOfDay offset today)
          daysOfHistory := daysOfHistory }

end

section

variable (offset : ℤ) (db : PhoneDb) (productId : Uuid)

/-- Whether a sale is stored, not voided, and of such a day. -/
def liveOn (saleId : Uuid) (p : ℤ → Prop) [DecidablePred p] : Bool :=
  (db.sales.find? saleId).any fun sale =>
    sale.deletedAt.isNone && decide (p (startOfDay offset sale.occurredAt))

/-- What the ledger rows of such days add up to. -/
def movedOn (p : ℤ → Prop) [DecidablePred p] : ℚ :=
  db.stockMovements.sum fun _ m =>
    if m.productId = productId ∧ p (startOfDay offset m.occurredAt) then m.quantity else 0

/-- What the live sales of such days took. -/
def takenOn (p : ℤ → Prop) [DecidablePred p] : ℚ :=
  db.saleItems.sum fun _ item =>
    if item.productId = some productId ∧ liveOn offset db item.saleId p = true then item.quantity
    else 0

/-- What the ledger says was on hand at the end of a day. -/
def onHandAt (day : ℤ) : ℚ := movedOn offset db productId (· ≤ day) - takenOn offset db productId (· ≤ day)

/-- No count of the product comes after a day. -/
def CountedBy (day : ℤ) : Prop :=
  ∀ id m, db.stockMovements.find? id = some m → m.productId = productId →
    m.movement = "adjustment" → startOfDay offset m.occurredAt ≤ day

end

section

variable {offset : ℤ} {storeId : Uuid} {today : Timestamp} {db : PhoneDb} {productId : Uuid}

/-- The records of a phone with one store. -/
structure Own (storeId : Uuid) (db : PhoneDb) : Prop where
  /-- Its sales. -/
  sales : ∀ id sale, db.sales.find? id = some sale → sale.storeId = storeId
  /-- Its movements, none of them a sale. -/
  movements : ∀ id m, db.stockMovements.find? id = some m →
    m.storeId = storeId ∧ m.movement ≠ "sale"

theorem liveOn_succ (saleId : Uuid) (day : ℤ) :
    (if liveOn offset db saleId (· ≤ day) = true then (1 : ℚ) else 0) =
      (if liveOn offset db saleId (· ≤ day - 1) = true then 1 else 0) +
        if liveOn offset db saleId (· = day) = true then 1 else 0 := by
  rw [liveOn, liveOn, liveOn]
  cases db.sales.find? saleId with
  | none => simp
  | some sale =>
    simp only [Option.any_some, Bool.and_eq_true, decide_eq_true_eq]
    by_cases hlive : sale.deletedAt.isNone = true
    · rcases lt_trichotomy (startOfDay offset sale.occurredAt) day with h | h | h
      · simp [hlive, h.le, h.ne, show startOfDay offset sale.occurredAt ≤ day - 1 by omega]
      · simp [hlive, h]
      · simp [hlive, h.not_ge, h.ne', show ¬startOfDay offset sale.occurredAt ≤ day - 1 by omega]
    · simp [hlive]

theorem movedOn_succ (day : ℤ) : movedOn offset db productId (· ≤ day) =
    movedOn offset db productId (· ≤ day - 1) + movedOn offset db productId (· = day) := by
  rw [movedOn, movedOn, movedOn, ← Table.sum_add]
  apply Table.sum_congr
  intro k m _
  by_cases hm : m.productId = productId
  · rcases lt_trichotomy (startOfDay offset m.occurredAt) day with h | h | h
    · simp [hm, h.le, h.ne, show startOfDay offset m.occurredAt ≤ day - 1 by omega]
    · simp [hm, h]
    · simp [hm, h.not_ge, h.ne', show ¬startOfDay offset m.occurredAt ≤ day - 1 by omega]
  · simp [hm]

theorem takenOn_succ (day : ℤ) : takenOn offset db productId (· ≤ day) =
    takenOn offset db productId (· ≤ day - 1) + takenOn offset db productId (· = day) := by
  rw [takenOn, takenOn, takenOn, ← Table.sum_add]
  apply Table.sum_congr
  intro k item _
  have hweight : ∀ (q : ℚ) (b : Bool), (if item.productId = some productId ∧ b = true then q else 0) =
      (if item.productId = some productId then q else 0) * if b = true then 1 else 0 := by
    intro q b
    split_ifs <;> simp_all
  rw [hweight, hweight, hweight, ← mul_add, liveOn_succ]

/-- A day opens with what the day before closed with. -/
theorem onHandAt_pred (day : ℤ) : onHandAt offset db productId (day - 1) =
    onHandAt offset db productId day + takenOn offset db productId (· = day) -
      movedOn offset db productId (· = day) := by
  rw [onHandAt, onHandAt, movedOn_succ day, takenOn_succ day]
  ring

/-- With nothing dated later, the ledger of today is the balance. -/
theorem onHandAt_today
    (hmoves : ∀ id m, db.stockMovements.find? id = some m →
      startOfDay offset m.occurredAt ≤ startOfDay offset today)
    (hsales : ∀ id sale, db.sales.find? id = some sale →
      startOfDay offset sale.occurredAt ≤ startOfDay offset today) :
    onHandAt offset db productId (startOfDay offset today) = balance db productId := by
  rw [onHandAt, balance, movedOn, moved, takenOn, sold]
  congr 1
  · apply Table.sum_congr
    intro id m hm
    simp only [hmoves id m hm, and_true]
  · apply Table.sum_congr
    intro id item _
    have hlive : liveOn offset db item.saleId (· ≤ startOfDay offset today) = live db item.saleId := by
      rw [liveOn, live]
      cases hsale : db.sales.find? item.saleId with
      | none => rfl
      | some sale => simp [hsales _ sale hsale]
    simp only [hlive, and_comm]

/-- A day of the last four weeks is in the window that is read. -/
theorem since_le {t : Timestamp} (h : startOfDay offset today + 1 - forecastWindowDays ≤ startOfDay offset t) :
    today - patternWindowDays * DAY ≤ t := by
  simp only [startOfDay, localDay, patternWindowDays, forecastWindowDays, DAY, SECOND] at *
  change @LE.le ℤ _ (today - _) t
  omega

/-- What is left of some figures on one day. -/
theorem sum_filterMap {α : Type*} (l : List α) (figure : α → Option (ℤ × ℚ)) (day : ℤ) :
    (((l.filterMap figure).filter fun f => f.1 = day).map (·.2)).sum =
      (l.map fun x => ((figure x).map fun f => if f.1 = day then f.2 else 0).getD 0).sum := by
  induction l with
  | nil => rfl
  | cons x l ih =>
    rw [List.map_cons, List.sum_cons, ← ih]
    cases hx : figure x with
    | none => simp [hx]
    | some f => by_cases hf : f.1 = day <;> simp [hx, hf]

/-- What a product sold on a day of the window is what its live sales took. -/
theorem soldOn_eq (hown : Own storeId db) {day : ℤ}
    (hday : startOfDay offset today + 1 - forecastWindowDays ≤ day) :
    soldOn offset (recentlySold offset storeId today productId db) day =
      takenOn offset db productId (· = day) := by
  rw [soldOn_recentlySold, soldFigures, sum_filterMap, takenOn, Table.sum_eq_entries]
  congr 1
  apply List.map_congr_left
  rintro ⟨id, item⟩ _
  rw [liveOn]
  dsimp only
  cases hsale : db.sales.find? item.saleId with
  | none => simp
  | some sale =>
    have hstore := hown.sales _ sale hsale
    by_cases hon : startOfDay offset sale.occurredAt = day
    · have hsince : today - patternWindowDays * DAY ≤ sale.occurredAt := since_le (by rw [hon]; exact hday)
      by_cases hp : item.productId = some productId
      · cases hdel : sale.deletedAt <;> simp [hstore, hon, hsince, hp, hdel]
      · simp [hp]
    · simp only [Option.any_some, hon, decide_false, Bool.and_false, Bool.false_eq_true, and_false,
        if_false]
      split_ifs <;> simp [hon]

/-- How its stock changed on such a day is what its ledger rows say. -/
theorem changedOn_eq (hown : Own storeId db) {day : ℤ}
    (hday : startOfDay offset today + 1 - forecastWindowDays ≤ day) :
    changedOn offset (recentChanges offset storeId today productId db) day =
      movedOn offset db productId (· = day) := by
  have hgroups : changedOn offset (recentChanges offset storeId today productId db) day =
      (((movementsOf storeId (today - patternWindowDays * DAY) productId db).filter fun row =>
        startOfDay offset row.occurredAt = day).map (·.quantity)).sum := by
    rw [changedOn, changesOn, recentChanges, stockChangesOf, List.filter_map, List.map_map]
    simp only [Function.comp_def, startOfDay_midnightOf]
    rw [sum_groupByDay, List.filter_map, List.map_map]
    rfl
  have hfilter : ∀ (l : List (Uuid × StockMovementRow)) (p : StockMovementRow → Bool),
      (((l.map (·.2)).filter p).map (·.quantity)).sum =
        (l.map fun e => if p e.2 then e.2.quantity else 0).sum := by
    intro l p
    induction l with
    | nil => rfl
    | cons e l ih => cases hp : p e.2 <;> simp [hp, ← ih]
  rw [hgroups, movementsOf, List.filter_filter, movedOn, Table.sum_eq_entries, hfilter]
  congr 1
  apply List.map_congr_left
  rintro ⟨id, m⟩ hm
  obtain ⟨hstore, hsale⟩ := hown.movements id m (Table.mem_entries.mp hm)
  dsimp only
  by_cases hon : startOfDay offset m.occurredAt = day
  · have hsince : today - patternWindowDays * DAY ≤ m.occurredAt := since_le (by rw [hon]; exact hday)
    simp [hstore, hsale, hon, hsince]
  · simp [hon]

theorem mem_movementsOf {since : Timestamp} {m : StockMovementRow} :
    m ∈ movementsOf storeId since productId db ↔ (∃ id, db.stockMovements.find? id = some m) ∧
      m.storeId = storeId ∧ m.productId = productId ∧ since ≤ m.occurredAt ∧ m.movement ≠ "sale" := by
  rw [movementsOf, List.mem_filter, decide_eq_true_eq, List.mem_map]
  simp only [Prod.exists, Table.mem_entries, exists_eq_right]

/-- A day is read with a count exactly when there is one on it. -/
theorem exists_count_iff {day : ℤ} :
    (∃ change ∈ recentChanges offset storeId today productId db, change.isCount = true ∧
      startOfDay offset change.day = day) ↔
    ∃ m ∈ movementsOf storeId (today - patternWindowDays * DAY) productId db,
      m.movement = "adjustment" ∧ startOfDay offset m.occurredAt = day := by
  rw [recentChanges, stockChangesOf, groupByDay]
  simp only [List.map_map, List.mem_map, List.mem_dedup, Function.comp_apply]
  constructor
  · rintro ⟨_, ⟨_, ⟨m, hm, rfl⟩, rfl⟩, hcount, rfl⟩
    obtain ⟨row, hrow, hboth⟩ := List.any_eq_true.mp hcount
    rw [Bool.and_eq_true, decide_eq_true_eq, beq_iff_eq] at hboth
    exact ⟨row, hrow, hboth.2, by rw [startOfDay_midnightOf, hboth.1]⟩
  · rintro ⟨m, hm, hcount, rfl⟩
    refine ⟨_, ⟨_, ⟨m, hm, rfl⟩, rfl⟩, List.any_eq_true.mpr ⟨m, hm, ?_⟩, startOfDay_midnightOf _ _⟩
    rw [hcount, decide_eq_true rfl]
    rfl

/-- The last count that is read is not later than a day of the window exactly
when none is. -/
theorem countedOn_all_iff (hown : Own storeId db) {day : ℤ}
    (hday : startOfDay offset today + 1 - forecastWindowDays ≤ day) :
    (countedOn offset (recentChanges offset storeId today productId db)).all (· ≤ day) = true ↔
      CountedBy offset db productId day := by
  rw [known_iff, SinceLastCount]
  constructor
  · intro hall id m hm hproduct hcount
    by_contra hlater
    have hsince : today - patternWindowDays * DAY ≤ m.occurredAt :=
      @since_le offset today m.occurredAt (by omega)
    obtain ⟨hstore, hsale⟩ := hown.movements id m hm
    have hmem := mem_movementsOf.mpr ⟨⟨id, hm⟩, hstore, hproduct, hsince, hsale⟩
    obtain ⟨change, hchange, hisCount, hon⟩ := exists_count_iff.mpr ⟨m, hmem, hcount, rfl⟩
    exact hlater (hon ▸ hall change hchange hisCount)
  · intro hcounted change hchange hisCount
    obtain ⟨m, hmem, hcount, hon⟩ := exists_count_iff.mp ⟨change, hchange, hisCount, rfl⟩
    obtain ⟨⟨id, hm⟩, _, hproduct, _⟩ := mem_movementsOf.mp hmem
    rw [← hon]
    exact hcounted id m hm hproduct hcount

theorem firstDay_le (known : Option Timestamp) :
    startOfDay offset today + 1 - forecastWindowDays ≤ firstDay offset today known forecastWindowDays := by
  cases known with
  | none => exact le_rfl
  | some known => exact le_max_left _ _

/-- Whether the sums that undo a product's days are doubles. -/
structure UndoneInDoubles (offset : ℤ) (storeId : Uuid) (today : Timestamp) (db : PhoneDb)
    (productId : Uuid) : Prop where
  /-- What each day changed. -/
  changes : ∀ change ∈ recentChanges offset storeId today productId db, Held 53 change.change
  /-- What was on hand before a day's sales, and at the end of the day before. -/
  onHand : ∀ back < forecastWindowDays,
    Held 53 (onHandAt offset db productId (startOfDay offset today - back) +
      takenOn offset db productId (· = startOfDay offset today - back)) ∧
    Held 53 (onHandAt offset db productId (startOfDay offset today - back - 1))

/-- Each day is read with one change. -/
theorem sumsHeld_recentChanges
    (h : ∀ change ∈ recentChanges offset storeId today productId db, Held 53 change.change)
    (day : ℤ) :
    SumsHeld 53 0 (changesOn offset (recentChanges offset storeId today productId db) day) := by
  have hdays : ((recentChanges offset storeId today productId db).map fun change =>
      startOfDay offset change.day).Nodup := by
    rw [recentChanges, stockChangesOf, groupByDay, List.map_map, List.map_map]
    have hmap : ∀ days : List ℤ, days.map (fun day => startOfDay offset (midnightOf offset day)) =
        days := fun days => by
      simp only [startOfDay_midnightOf, List.map_id']
    exact Eq.subst (motive := List.Nodup) (hmap _).symm (List.nodup_dedup _)
  rw [changesOn]
  rcases filter_cases (fun change : StockChange => startOfDay offset change.day) hdays day with hnone | ⟨c, hc, hone⟩
  · rw [hnone]
    trivial
  · rw [hone]
    exact ⟨by rw [zero_add]; exact h c hc, trivial⟩

/-- Where the ledger balances and the sums are doubles, the days are those from
the first one looked at up to today, each judged by what the ledger says of it. -/
theorem compileDays_eq (hown : Own storeId db)
    (hdoubles : UndoneInDoubles offset storeId today db productId) {stock : ℚ}
    (hstock : onHandAt offset db productId (startOfDay offset today) = stock) :
    compileDays offset storeId today productId db stock =
      (List.range (daysLookedAt offset today (firstSeen offset storeId today productId db)
          forecastWindowDays)).map fun i : ℕ =>
        judged (soldOn offset (recentlySold offset storeId today productId db))
          (onHandAt offset db productId) (countedOn offset (recentChanges offset storeId today productId db))
          (firstDay offset today (firstSeen offset storeId today productId db) forecastWindowDays + i) := by
  have hsold : (fun day => (soldByDay offset (recentlySold offset storeId today productId db) day).getD 0) =
      soldOn offset (recentlySold offset storeId today productId db) :=
    funext fun day => soldByDay_getD (recentlySold_nodup offset storeId today productId db) day
  have hchanges : changesByDay offset (recentChanges offset storeId today productId db) =
      changedOn offset (recentChanges offset storeId today productId db) :=
    funext fun day => changesByDay_of_held (sumsHeld_recentChanges hdoubles.changes day)
  rw [compileDays, sellingDays, hsold, hchanges, ← hstock, walkBack_eq _ _ fun d hd hle => ?_,
    reverse_map_range, walked_eq]
  · refine List.map_congr_left fun i hi => ?_
    have hlt := List.mem_range.mp hi
    rw [daysLookedAt] at hlt ⊢
    congr 1
    omega
  · obtain ⟨hsum, hbefore⟩ := hdoubles.onHand (startOfDay offset today - d).toNat (by omega)
    have hback : startOfDay offset today - ((startOfDay offset today - d).toNat : ℤ) = d := by omega
    rw [hback] at hsum hbefore
    have hpred := @onHandAt_pred offset db productId d
    rw [soldOn_eq hown hd, changedOn_eq hown hd, double_of_held hsum, ← hpred, double_of_held hbefore]

/-- The days of a product as the ledger has them. -/
structure Reconstructs (offset : ℤ) (storeId : Uuid) (today : Timestamp) (db : PhoneDb)
    (productId : Uuid) (days : List SellingDay) : Prop where
  /-- Every day once and oldest first, up to today. -/
  consecutive : ∃ first, startOfDay offset today + 1 - forecastWindowDays ≤ first ∧
    days.map (·.day) = (List.range (startOfDay offset today + 1 - first).toNat).map fun i : ℕ => first + i
  /-- What the live sales of the day took. -/
  quantity : ∀ day ∈ days, day.quantity = takenOn offset db productId (· = day.day)
  /-- Out of stock when no count came later, nothing was sold, and the ledger had
  nothing on hand at its end. -/
  ran_out : ∀ day ∈ days, day.inStock = false ↔ CountedBy offset db productId day.day ∧
    takenOn offset db productId (· = day.day) ≤ 0 ∧ onHandAt offset db productId day.day ≤ 0

theorem reconstructs (hown : Own storeId db)
    (hdoubles : UndoneInDoubles offset storeId today db productId) {stock : ℚ}
    (hstock : onHandAt offset db productId (startOfDay offset today) = stock) :
    Reconstructs offset storeId today db productId
      (compileDays offset storeId today productId db stock) := by
  have hfirst := @firstDay_le offset today (firstSeen offset storeId today productId db)
  rw [compileDays_eq hown hdoubles hstock, daysLookedAt]
  generalize SellingDays.firstDay offset today (firstSeen offset storeId today productId db)
    forecastWindowDays = first at hfirst ⊢
  have hlater : ∀ i : ℕ, startOfDay offset today + 1 - forecastWindowDays ≤ first + i := by omega
  refine ⟨⟨first, hfirst, by rw [List.map_map]; rfl⟩, fun day hday => ?_, fun day hday => ?_⟩
  · obtain ⟨i, _, rfl⟩ := List.mem_map.mp hday
    exact soldOn_eq hown (hlater i)
  · obtain ⟨i, _, rfl⟩ := List.mem_map.mp hday
    change (judged _ _ _ (first + i)).inStock = false ↔ CountedBy offset db productId (first + i) ∧
      takenOn offset db productId (· = first + i) ≤ 0 ∧ onHandAt offset db productId (first + i) ≤ 0
    rw [← soldOn_eq hown (hlater i), ← countedOn_all_iff hown (hlater i)]
    simp only [judged, Bool.not_eq_false', Bool.and_eq_true, decide_eq_true_eq]
    rw [and_assoc]
    exact and_congr_right fun _ => and_comm

end

section

variable {storeId : Uuid} {db : PhoneDb}

theorem own_of_tables {db' : PhoneDb} (h : Own storeId db) (hsales : db'.sales = db.sales)
    (hmoves : db'.stockMovements = db.stockMovements) : Own storeId db' := by
  constructor
  · rw [hsales]
    exact h.sales
  · rw [hmoves]
    exact h.movements

theorem own_applyMovement (h : Own storeId db) (now : Timestamp) (movement : StockMovement) :
    Own storeId (applyMovement storeId now movement db) := by
  rw [applyMovement]
  split
  next => exact h
  next row =>
    refine ⟨h.sales, fun id m hm => ?_⟩
    dsimp only [moveStock] at hm
    split at hm
    next => exact h.movements id m hm
    next =>
      rw [Table.find?_put] at hm
      split at hm
      next =>
        cases hm
        refine ⟨rfl, ?_⟩
        dsimp only [StockMovement.toRow]
        cases movement.kind <;> decide
      next => exact h.movements id m hm

theorem own_giveBack (now : Timestamp) (items : List SaleItemRow) (h : Own storeId db) :
    Own storeId (items.foldl (fun db item => giveBack now item db) db) := by
  obtain ⟨hsales, _, hmoves⟩ := giveBack_tables now db items
  exact own_of_tables h hsales hmoves

theorem own_step (s : Phone) (a : PhoneLedger.Action) (h : Own storeId s.db) :
    Own storeId (step storeId s a).db := by
  cases a with
  | beginSave args drawn movementId now => exact h
  | commitSave i now =>
    rw [step]
    split
    next => exact h
    next save hsave =>
      dsimp only [PhoneDatabase.commitSave]
      have hsaved : Own storeId (enqueueContent storeId .products save.product.id
          (.product save.product.toPushJson) (upsertProduct storeId save.product s.db)) :=
        own_of_tables h rfl rfl
      split
      next => exact hsaved
      next movement hmovement => exact own_of_tables (own_applyMovement hsaved now movement) rfl rfl
  | dropSave i => exact h
  | receiveStock movementId now productId quantity unitCost =>
    exact own_of_tables (own_applyMovement h now _) rfl rfl
  | remove now productId => exact own_of_tables h rfl rfl
  | record saleId drawn now cart paymentMethod discount note occurredAt =>
    rw [step]
    split
    next => exact h
    next db' hdb =>
      obtain ⟨sale, _, hrecord⟩ := Option.bind_eq_some_iff.mp hdb
      rw [recordSale, Option.map_eq_some_iff] at hrecord
      obtain ⟨mid, hmid, rfl⟩ := hrecord
      have hinserted := insertLines_inserted hmid
      refine own_of_tables ⟨?_, ?_⟩ hinserted.sales hinserted.stockMovements
      · intro id row hrow
        rw [Table.find?_put] at hrow
        split at hrow
        next =>
          cases hrow
          rfl
        next => exact h.sales id row hrow
      · exact h.movements
  | voidSale now saleId =>
    have hmarked : Own storeId { s.db with
        sales := s.db.sales.mapRows fun id row =>
          if id = saleId then { row with deletedAt := some now, updatedAt := now } else row } := by
      refine ⟨fun id row hrow => ?_, h.movements⟩
      rw [Table.find?_mapRows, Option.map_eq_some_iff] at hrow
      obtain ⟨before, hbefore, rfl⟩ := hrow
      have hstore := h.sales id before hbefore
      split
      next => exact hstore
      next => exact hstore
    exact own_of_tables (own_giveBack now (linesFor saleId s.db) hmarked) rfl rfl

theorem own_run (actions : List PhoneLedger.Action) (s : Phone) (h : Own storeId s.db) :
    Own storeId (run storeId s actions).db := by
  induction actions generalizing s with
  | nil => exact h
  | cons a actions ih => exact ih _ (own_step s a h)

theorem mem_activeProducts {sorts : Sorts} {product : Product}
    (h : product ∈ activeProducts storeId db sorts.byName) :
    stockOf db product.id = some product.stockQuantity := by
  rw [activeProducts, (sorts.byName.perm _).mem_iff, List.mem_map] at h
  obtain ⟨⟨id, row⟩, hmem, rfl⟩ := h
  rw [stockOf, show (Product.fromRow id row).id = id from rfl,
    Table.mem_entries.mp (List.mem_of_mem_filter hmem)]
  rfl

/-- What is suggested is made of the forecasts. -/
structure MadeOf (insights : StoreInsights) (sorts : Sorts) (forecasts : List (Product × DemandForecast)) :
    Prop where
  /-- What to reorder. -/
  restock : RestockAdvisor.suggestRestocks sorts.byCover sorts.byLevel forecasts 6 = some insights.restock
  /-- Prices worth a second look. -/
  prices : PriceAdvisor.suggestPrices sorts.byValue (decide (enoughHistoryDays ≤ insights.daysOfHistory))
    forecasts 5 = some insights.prices

theorem compile_spec (offset : ℤ) (storeId : Uuid) (today : Timestamp) (db : PhoneDb) (sorts : Sorts) :
    ∃ insights, compile offset storeId today db sorts = some insights ∧
      MadeOf insights sorts (forecasts offset storeId today db sorts.byName) := by
  rw [compile]
  cases hrestock : RestockAdvisor.suggestRestocks sorts.byCover sorts.byLevel
      (forecasts offset storeId today db sorts.byName) 6 with
  | none => exact absurd hrestock (by simp [RestockAdvisor.suggestRestocks])
  | some restock =>
    cases hprices : PriceAdvisor.suggestPrices sorts.byValue (decide (enoughHistoryDays ≤
        (dailySales offset storeId db (today - patternWindowDays * DAY)).length))
        (forecasts offset storeId today db sorts.byName) 5 with
    | none => exact absurd hprices (by simp [PriceAdvisor.suggestPrices])
    | some prices => exact ⟨_, rfl, hrestock, hprices⟩

/-- Whatever was sold, voided, counted, delivered and edited on a phone, in any
order that keeps its ledger: as long as nothing is dated later than today and all
sums are doubles, what is suggested is made of forecasts, and they of days as the
ledger has them. -/
theorem forecasts_from_ledger {storeId : Uuid} {actions : List PhoneLedger.Action} {db : PhoneDb}
    {offset : ℤ} {today : Timestamp}
    (hsound : ∀ before a after, actions = before ++ a :: after →
      PhoneLedger.Exact (run storeId Phone.fresh before) a ∧
        Sound storeId (run storeId Phone.fresh before) a)
    (hrun : (run storeId Phone.fresh actions).db = db)
    (hmoves : ∀ id m, db.stockMovements.find? id = some m →
      startOfDay offset m.occurredAt ≤ startOfDay offset today)
    (hsales : ∀ id sale, db.sales.find? id = some sale →
      startOfDay offset sale.occurredAt ≤ startOfDay offset today)
    (hdoubles : ∀ id q, stockOf db id = some q → UndoneInDoubles offset storeId today db id)
    (sorts : Sorts) : ∃ insights, compile offset storeId today db sorts = some insights ∧
      MadeOf insights sorts (forecasts offset storeId today db sorts.byName) ∧
      ∀ entry ∈ forecasts offset storeId today db sorts.byName, ∃ days,
        entry.2 = forecastDemand days (startOfDay offset today) ∧
        Reconstructs offset storeId today db entry.1.id days := by
  subst hrun
  have hledger : Ledger (run storeId Phone.fresh actions).db :=
    (ledger_along_iff storeId ledger_fresh actions fun before a after h =>
      (hsound before a after h).1).mpr (fun before a after h => (hsound before a after h).2)
        actions [] (List.append_nil _).symm
  have hown : Own storeId (run storeId Phone.fresh actions).db := by
    refine own_run actions Phone.fresh ⟨fun id sale hsale => ?_, fun id m hm => ?_⟩
    · cases hsale
    · cases hm
  obtain ⟨insights, hcompile, hmade⟩ := compile_spec offset storeId today
    (run storeId Phone.fresh actions).db sorts
  refine ⟨insights, hcompile, hmade, fun entry hentry => ?_⟩
  obtain ⟨product, hproduct, rfl⟩ := List.mem_map.mp hentry
  refine ⟨_, rfl, reconstructs hown (hdoubles _ _ (mem_activeProducts hproduct)) ?_⟩
  rw [onHandAt_today hmoves hsales]
  exact (hledger _ _ (mem_activeProducts hproduct)).symm

/-- Rice is entered and some of it is sold. -/
def riceDay : List PhoneLedger.Action := riceEntered ++ [riceSold]

theorem exact_riceDay : ∀ before a after, riceDay = before ++ a :: after →
    PhoneLedger.Exact (run ⟨1⟩ Phone.fresh before) a := by
  rintro before a after hsplit
  refine voidedTwice_exact before a (after ++ [.voidSale 4 ⟨20⟩, .voidSale 5 ⟨20⟩]) ?_
  rw [← List.cons_append, ← List.append_assoc, ← hsplit]
  rfl

theorem sound_riceDay : ∀ before a after, riceDay = before ++ a :: after →
    Sound ⟨1⟩ (run ⟨1⟩ Phone.fresh before) a := by
  intro before a after hsplit
  rcases before with _ | ⟨first, _ | ⟨second, _ | ⟨third, rest⟩⟩⟩
  · cases hsplit
    trivial
  · cases hsplit
    rintro save hsave
    cases hsave
    decide +kernel
  · cases hsplit
    intro sale _ _ hlive
    exact absurd hlive (by decide +kernel)
  · exact absurd (congrArg List.length hsplit) (by simp [riceDay, riceEntered])

theorem forecasts_from_ledger_riceDay : ∃ entry ∈ forecasts 480 ⟨1⟩ 3
      (run ⟨1⟩ Phone.fresh riceDay).db stable, ∃ days,
    entry.2 = forecastDemand days (startOfDay 480 3) ∧
    Reconstructs 480 ⟨1⟩ 3 (run ⟨1⟩ Phone.fresh riceDay).db entry.1.id days := by
  have hmoves : ¬(run ⟨1⟩ Phone.fresh riceDay).db.stockMovements.Any fun _ m =>
      ¬startOfDay 480 m.occurredAt ≤ startOfDay 480 3 := by decide +kernel
  have hsales : ¬(run ⟨1⟩ Phone.fresh riceDay).db.sales.Any fun _ sale =>
      ¬startOfDay 480 sale.occurredAt ≤ startOfDay 480 3 := by decide +kernel
  have hsome : forecasts 480 ⟨1⟩ 3 (run ⟨1⟩ Phone.fresh riceDay).db stable ≠ [] := by
    decide +kernel
  obtain ⟨entry, rest, hentry⟩ := List.exists_cons_of_ne_nil hsome
  have hmem : entry ∈ forecasts 480 ⟨1⟩ 3 (run ⟨1⟩ Phone.fresh riceDay).db stable := by
    rw [hentry]
    exact List.mem_cons_self
  have hdoubles : ∀ id q, stockOf (run ⟨1⟩ Phone.fresh riceDay).db id = some q →
      UndoneInDoubles 480 ⟨1⟩ 3 (run ⟨1⟩ Phone.fresh riceDay).db id :=
    forall_stockOf fun e he => by
      have hrice : e.1 = ⟨10⟩ := by
        have hall : ∀ e ∈ (run ⟨1⟩ Phone.fresh riceDay).db.products.entries, e.1 = ⟨10⟩ := by
          decide +kernel
        exact hall e he
      rw [hrice]
      exact ⟨by decide +kernel, by decide +kernel⟩
  obtain ⟨_, _, _, hall⟩ := forecasts_from_ledger
    (fun before a after h => ⟨exact_riceDay before a after h, sound_riceDay before a after h⟩) rfl
    (fun id m hm => not_not.mp (Table.not_any.mp hmoves id m hm))
    (fun id sale hsale => not_not.mp (Table.not_any.mp hsales id sale hsale)) hdoubles
    ⟨stable, stable, stable, stable⟩
  exact ⟨entry, hmem, hall entry hmem⟩

end

end Kitaza.Insights
