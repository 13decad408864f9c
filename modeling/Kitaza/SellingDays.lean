import Kitaza.PhoneDatabase
import Kitaza.ReportWindows
import Mathlib.Algebra.BigOperators.Group.Finset.Basic

/-!
# How fast a product sells

The app rebuilds what was on the shelf by walking back from the stock of
today, undoing each day's sales and changes, and works out a selling rate
from the days on which there was something to sell. The walk is made in doubles.
On every day not before the last count it meets the closing stock of the ledger
read forwards but for what rounding has added up to, which is nothing where all
sums are doubles; a shelf is misjudged when that takes it across zero.
-/

namespace Kitaza.SellingDays

open Primitives FloatRounding Rounding BillingPlan ReportWindows

/-- One day of one product: how much was sold, and whether there was
anything on the shelf to sell. Local days are counted from the Unix epoch. -/
structure SellingDay where
  /-- The day. -/
  day : ℤ
  /-- How much was sold. -/
  quantity : ℚ
  /-- False for a day the product was out of stock. -/
  inStock : Bool
  deriving DecidableEq, Repr

/-- How fast a product sells, and whether that is worth trusting yet. -/
structure DemandForecast where
  /-- Units a day, over the days the product could actually be sold. -/
  dailyQuantity : ℚ
  /-- Days of history behind the figure, out of the window looked at. -/
  daysCounted : ℕ
  /-- Units sold on those days. -/
  totalSold : ℚ
  deriving DecidableEq, Repr

namespace DemandForecast

/-- Days it takes to go on. -/
def minimumDays : ℕ := 10

/-- Units it takes to go on. -/
def minimumUnits : ℚ := 5

/-- Whether there is enough to go on. -/
def isReliable (forecast : DemandForecast) : Bool :=
  minimumDays ≤ forecast.daysCounted && minimumUnits ≤ forecast.totalSold &&
    0 < forecast.dailyQuantity

/-- How long the stock on hand lasts at this rate. -/
def coverDays (forecast : DemandForecast) (stock : ℚ) : Option ℚ :=
  if forecast.dailyQuantity ≤ 0 then none else some (stock / forecast.dailyQuantity)

/-- The forecast of a product without history. -/
def none : DemandForecast := ⟨0, 0, 0⟩

theorem dailyQuantity_pos_of_isReliable {forecast : DemandForecast}
    (h : forecast.isReliable = true) : 0 < forecast.dailyQuantity := by
  rw [isReliable, Bool.and_eq_true] at h
  exact of_decide_eq_true h.2

theorem coverDays_of_pos {forecast : DemandForecast} (h : 0 < forecast.dailyQuantity)
    (stock : ℚ) : forecast.coverDays stock = some (stock / forecast.dailyQuantity) :=
  if_neg h.not_ge

end DemandForecast

/-- The window of history the rate is worked out from. -/
def forecastWindowDays : ℕ := 28

/-- The shorter recent window that is weighted more heavily. -/
def recentWindowDays : ℕ := 7

/-- What sold on a day on average. -/
def mean (days : List SellingDay) : Option ℚ :=
  if days.isEmpty then none
  else some (days.foldl (fun sum day => sum + max 0 day.quantity) 0 / days.length)

/-- How fast a product sells: a weighted average of the last week and the
three before it. Both windows count today. The averages are exact here. -/
def forecastDemand (history : List SellingDay) (today : ℤ) : DemandForecast :=
  let start := today - (forecastWindowDays - 1)
  let recentFrom := today - (recentWindowDays - 1)
  let counted := history.filter fun day => day.inStock && !(day.day < start)
  if counted.isEmpty then DemandForecast.none
  else
    let recentRate := mean (counted.filter fun day => !(day.day < recentFrom))
    let earlierRate := mean (counted.filter fun day => day.day < recentFrom)
    let rate := match recentRate, earlierRate with
      | none, none => 0
      | some recent, none => recent
      | none, some earlier => earlier
      | some recent, some earlier => recent * (3 / 5) + earlier * (2 / 5)
    ⟨rate, counted.length, counted.foldl (fun sum day => sum + day.quantity) 0⟩

/-- One change to a product's stock, as the ledger recorded it: always a
signed difference, even for a count. -/
structure StockChange where
  /-- When. -/
  day : Timestamp
  /-- The difference. -/
  change : ℚ
  /-- Whether it was a count. -/
  isCount : Bool
  deriving DecidableEq, Repr

/-- The day an instant falls on, on a phone so many minutes from UTC. -/
def startOfDay (offset : ℤ) (value : Timestamp) : ℤ := localDay offset value

/-- What was sold, by local day. A day given twice keeps its last figure. -/
def soldByDay (offset : ℤ) (soldPerDay : List (Timestamp × ℚ)) : ℤ → Option ℚ :=
  soldPerDay.foldl
    (fun sold entry => Function.update sold (startOfDay offset entry.1) (some entry.2))
    fun _ => none

/-- What the stock changed by, by local day, added up in doubles. -/
def changesByDay (offset : ℤ) (stockChanges : List StockChange) : ℤ → ℚ :=
  stockChanges.foldl
    (fun changes change => Function.update changes (startOfDay offset change.day)
      (double (changes (startOfDay offset change.day) + change.change)))
    fun _ => 0

/-- The day of the last count. -/
def countedOn (offset : ℤ) (stockChanges : List StockChange) : Option ℤ :=
  stockChanges.foldl
    (fun counted change =>
      if change.isCount then
        match counted with
        | none => some (startOfDay offset change.day)
        | some day =>
          if day < startOfDay offset change.day then some (startOfDay offset change.day)
          else some day
      else counted)
    none

/-- Walk back over so many days from a day and its closing stock. -/
def walkBack (sold changes : ℤ → ℚ) (countedOn firstKnownDay : Option ℤ) :
    ℕ → ℤ → ℚ → List SellingDay
  | 0, _, _ => []
  | left + 1, day, stockAtEndOfDay =>
    if firstKnownDay.any (day < ·) then []
    else
      let quantity := sold day
      let known := countedOn.all (· ≤ day)
      let ranOut := known && stockAtEndOfDay ≤ 0 && quantity ≤ 0
      ⟨day, quantity, !ranOut⟩ ::
        -- Yesterday's closing stock: undo today's sales and stock changes.
        walkBack sold changes countedOn firstKnownDay left (day - 1)
          (double (double (stockAtEndOfDay + quantity) - changes day))

/-- Fill in the days a product sold nothing, and mark the days it had
nothing to sell. -/
def sellingDays (offset : ℤ) (soldPerDay : List (Timestamp × ℚ)) (stockNow : ℚ)
    (stockChanges : List StockChange) (asOf : Timestamp) (knownFrom : Option Timestamp)
    (windowDays : ℕ) : List SellingDay :=
  (walkBack (fun day => (soldByDay offset soldPerDay day).getD 0)
    (changesByDay offset stockChanges) (countedOn offset stockChanges)
    (knownFrom.map (startOfDay offset)) windowDays (startOfDay offset asOf) stockNow).reverse

/-- Round an order up to something an owner would actually ask for. -/
def roundOrder (quantity : ℚ) : ℚ :=
  if quantity ≤ 0 then 0
  else if quantity < 10 then ⌈quantity⌉
  else if quantity < 100 then ⌈quantity / 5⌉ * 5
  else ⌈quantity / 10⌉ * 10

section

variable (offset : ℤ) (soldPerDay : List (Timestamp × ℚ)) (stockChanges : List StockChange)

/-- What was sold on a day. -/
def soldOn (day : ℤ) : ℚ :=
  ((soldPerDay.filter fun entry => startOfDay offset entry.1 = day).map (·.2)).sum

/-- The changes of a day, sales apart. -/
def changesOn (day : ℤ) : List ℚ :=
  (stockChanges.filter fun change => startOfDay offset change.day = day).map (·.change)

/-- What the stock changed by on a day, sales apart. -/
def changedOn (day : ℤ) : ℚ := (changesOn offset stockChanges day).sum

/-- The stock at the end of a day, from the stock a window opened with. -/
def closing (opening : ℚ) (first day : ℤ) : ℚ :=
  opening + ∑ n ∈ Finset.range (day + 1 - first).toNat,
    (changedOn offset stockChanges (first + n) - soldOn offset soldPerDay (first + n))

/-- A day no count comes after. -/
def SinceLastCount (day : ℤ) : Prop :=
  ∀ change ∈ stockChanges, change.isCount = true → startOfDay offset change.day ≤ day

instance sinceLastCountDecidable (day : ℤ) : Decidable (SinceLastCount offset stockChanges day) :=
  inferInstanceAs (Decidable (∀ change ∈ stockChanges, _ → _))

/-- The sales as the doubles a phone has of them. -/
def soldAsDoubles : List (Timestamp × ℚ) :=
  soldPerDay.map fun entry => (entry.1, double entry.2)

/-- The changes as the doubles a phone has of them. -/
def changesAsDoubles : List StockChange :=
  stockChanges.map fun change => { change with change := double change.change }

end

/-- The first day that is looked at. -/
def firstDay (offset : ℤ) (asOf : Timestamp) (knownFrom : Option Timestamp) (windowDays : ℕ) : ℤ :=
  let windowFrom := startOfDay offset asOf + 1 - windowDays
  match knownFrom with
  | none => windowFrom
  | some known => max windowFrom (startOfDay offset known)

section

variable {offset : ℤ}

theorem soldOn_concat (entries : List (Timestamp × ℚ)) (entry : Timestamp × ℚ) (day : ℤ) :
    soldOn offset (entries ++ [entry]) day =
      soldOn offset entries day + if startOfDay offset entry.1 = day then entry.2 else 0 := by
  rw [soldOn, soldOn, List.filter_append, List.map_append, List.sum_append]
  split_ifs with hday <;> simp [hday]

theorem changesOn_concat (changes : List StockChange) (change : StockChange) (day : ℤ) :
    changesOn offset (changes ++ [change]) day =
      changesOn offset changes day ++
        if startOfDay offset change.day = day then [change.change] else [] := by
  rw [changesOn, changesOn, List.filter_append, List.map_append]
  split_ifs with hday <;> simp [hday]

theorem soldByDay_concat (entries : List (Timestamp × ℚ)) (entry : Timestamp × ℚ) (day : ℤ) :
    soldByDay offset (entries ++ [entry]) day =
      if day = startOfDay offset entry.1 then some entry.2 else soldByDay offset entries day := by
  rw [soldByDay, List.foldl_concat, Function.update_apply]
  rfl

theorem changesByDay_concat (changes : List StockChange) (change : StockChange) (day : ℤ) :
    changesByDay offset (changes ++ [change]) day =
      if day = startOfDay offset change.day then
        double (changesByDay offset changes (startOfDay offset change.day) + change.change)
      else changesByDay offset changes day := by
  rw [changesByDay, List.foldl_concat, Function.update_apply]
  rfl

/-- Where each day is given once, its figure is what was sold on it. -/
theorem soldByDay_getD {soldPerDay : List (Timestamp × ℚ)}
    (hdays : (soldPerDay.map fun entry => startOfDay offset entry.1).Nodup) (day : ℤ) :
    (soldByDay offset soldPerDay day).getD 0 = soldOn offset soldPerDay day := by
  induction soldPerDay using List.reverseRecOn with
  | nil => rfl
  | append_singleton entries entry ih =>
    rw [List.map_append, List.nodup_append] at hdays
    rw [soldByDay_concat, soldOn_concat]
    by_cases hday : startOfDay offset entry.1 = day
    · have hnone : entries.filter (fun e => startOfDay offset e.1 = day) = [] := by
        rw [List.filter_eq_nil_iff]
        intro e he heq
        exact hdays.2.2 _ (List.mem_map_of_mem he) _
          (List.mem_map_of_mem (List.mem_singleton_self _))
          ((of_decide_eq_true heq).trans hday.symm)
      have hzero : soldOn offset entries day = 0 := by
        rw [soldOn, hnone]
        rfl
      rw [if_pos hday.symm, if_pos hday, hzero, zero_add]
      rfl
    · rw [if_neg (Ne.symm hday), if_neg hday, ih hdays.1, add_zero]

/-- A day's changes are added up one after the other. -/
theorem changesByDay_eq (stockChanges : List StockChange) (day : ℤ) :
    changesByDay offset stockChanges day =
      floatSum roundHalfEven 53 0 (changesOn offset stockChanges day) := by
  induction stockChanges using List.reverseRecOn with
  | nil => rfl
  | append_singleton changes change ih =>
    rw [changesByDay_concat, changesOn_concat, floatSum_append, ← ih]
    by_cases hday : startOfDay offset change.day = day
    · rw [if_pos hday.symm, if_pos hday, hday]
      rfl
    · rw [if_neg (Ne.symm hday), if_neg hday]
      rfl

theorem changesByDay_of_held {stockChanges : List StockChange} {day : ℤ}
    (h : SumsHeld 53 0 (changesOn offset stockChanges day)) :
    changesByDay offset stockChanges day = changedOn offset stockChanges day := by
  rw [changesByDay_eq, floatSum_of_held nearest_roundHalfEven (by norm_num) h, zero_add, changedOn]

theorem startOfDay_soldAsDoubles (soldPerDay : List (Timestamp × ℚ)) :
    ((soldAsDoubles soldPerDay).map fun entry => startOfDay offset entry.1) =
      soldPerDay.map fun entry => startOfDay offset entry.1 := by
  rw [soldAsDoubles, List.map_map]
  rfl

/-- Where each day is given once, at most one entry is of a day. -/
theorem filter_cases {β : Type*} (dayOf : β → ℤ) {l : List β} (hdays : (l.map dayOf).Nodup)
    (day : ℤ) : l.filter (fun entry => dayOf entry = day) = [] ∨
      ∃ entry ∈ l, l.filter (fun entry => dayOf entry = day) = [entry] := by
  have hone : (l.filter fun entry => dayOf entry = day).length ≤ 1 := by
    have hcount := List.nodup_iff_count_le_one.mp hdays day
    rwa [List.count_eq_countP, List.countP_map, List.countP_eq_length_filter] at hcount
  have hmem : ∀ entry ∈ l.filter (fun entry => dayOf entry = day), entry ∈ l :=
    fun entry h => List.mem_of_mem_filter h
  generalize (l.filter fun entry => dayOf entry = day) = entries at hone hmem ⊢
  match entries with
  | [] => exact Or.inl rfl
  | [entry] => exact Or.inr ⟨entry, hmem entry List.mem_cons_self, rfl⟩
  | _ :: _ :: _ => simp at hone

/-- A day's figure on the phone is the double of what was sold on it. -/
theorem soldByDay_asDoubles {soldPerDay : List (Timestamp × ℚ)}
    (hdays : (soldPerDay.map fun entry => startOfDay offset entry.1).Nodup) (day : ℤ) :
    (soldByDay offset (soldAsDoubles soldPerDay) day).getD 0 =
      double (soldOn offset soldPerDay day) := by
  rw [soldByDay_getD (by rwa [startOfDay_soldAsDoubles]), soldOn, soldOn, soldAsDoubles,
    List.filter_map, List.map_map]
  simp only [Function.comp_def]
  rcases filter_cases (fun entry : Timestamp × ℚ => startOfDay offset entry.1) hdays day with
    hnone | ⟨entry, -, hone⟩
  · rw [hnone]
    exact double_zero.symm
  · rw [hone]
    simp

theorem held_soldOn {soldPerDay : List (Timestamp × ℚ)}
    (hdays : (soldPerDay.map fun entry => startOfDay offset entry.1).Nodup)
    (h : ∀ entry ∈ soldPerDay, Held 53 entry.2) (day : ℤ) :
    Held 53 (soldOn offset soldPerDay day) := by
  rw [soldOn]
  rcases filter_cases (fun entry : Timestamp × ℚ => startOfDay offset entry.1) hdays day with
    hnone | ⟨entry, hentry, hone⟩
  · rw [hnone]
    exact held_intCast (n := 0) (by norm_num)
  · rw [hone, List.map_singleton, List.sum_singleton]
    exact h entry hentry

/-- Figures that are doubles stay what they are. -/
theorem soldAsDoubles_of_held {soldPerDay : List (Timestamp × ℚ)}
    (h : ∀ entry ∈ soldPerDay, Held 53 entry.2) : soldAsDoubles soldPerDay = soldPerDay := by
  refine (List.map_congr_left fun entry hentry => ?_).trans (List.map_id _)
  rw [double_of_held (h entry hentry)]
  rfl

theorem changesAsDoubles_of_held {stockChanges : List StockChange}
    (h : ∀ change ∈ stockChanges, Held 53 change.change) :
    changesAsDoubles stockChanges = stockChanges := by
  refine (List.map_congr_left fun change hchange => ?_).trans (List.map_id _)
  rw [double_of_held (h change hchange)]
  rfl

theorem sinceLastCount_asDoubles (stockChanges : List StockChange) (day : ℤ) :
    SinceLastCount offset (changesAsDoubles stockChanges) day ↔
      SinceLastCount offset stockChanges day := by
  simp [SinceLastCount, changesAsDoubles]

/-- A day is known when no count comes after it. -/
theorem known_iff (stockChanges : List StockChange) (day : ℤ) :
    (countedOn offset stockChanges).all (· ≤ day) = true ↔
      SinceLastCount offset stockChanges day := by
  induction stockChanges using List.reverseRecOn with
  | nil => simp [countedOn, SinceLastCount]
  | append_singleton changes change ih =>
    have hsplit : SinceLastCount offset (changes ++ [change]) day ↔
        SinceLastCount offset changes day ∧
          (change.isCount = true → startOfDay offset change.day ≤ day) := by
      simp [SinceLastCount, or_imp, forall_and]
    rw [hsplit, ← ih, countedOn, List.foldl_concat, ← countedOn]
    cases hcount : change.isCount with
    | false => simp
    | true =>
      cases hlast : countedOn offset changes with
      | none => simp
      | some last =>
        by_cases hlt : last < startOfDay offset change.day
        · simp [hlt]
          omega
        · simp [hlt]
          omega

/-- A day closes with what the day before closed with and its own changes. -/
theorem closing_pred (soldPerDay : List (Timestamp × ℚ)) (stockChanges : List StockChange)
    (opening : ℚ) {first day : ℤ} (h : first ≤ day) :
    closing offset soldPerDay stockChanges opening first (day - 1) =
      closing offset soldPerDay stockChanges opening first day + soldOn offset soldPerDay day -
        changedOn offset stockChanges day := by
  have hdays : (day + 1 - first).toNat = (day - 1 + 1 - first).toNat + 1 := by omega
  have hlast : first + ((day - 1 + 1 - first).toNat : ℤ) = day := by omega
  rw [closing, closing, hdays, Finset.sum_range_succ, hlast]
  ring

end

/-- A day judged by its sales and its closing stock. -/
def judged (sold closing : ℤ → ℚ) (countedOn : Option ℤ) (day : ℤ) : SellingDay :=
  ⟨day, sold day, !(countedOn.all (· ≤ day) && closing day ≤ 0 && sold day ≤ 0)⟩

theorem judged_of_known {sold closing : ℤ → ℚ} {countedOn : Option ℤ} {day : ℤ}
    (h : countedOn.all (· ≤ day) = true) :
    (judged sold closing countedOn day).inStock = false ↔ sold day ≤ 0 ∧ closing day ≤ 0 := by
  have hshelf : (judged sold closing countedOn day).inStock =
      !(closing day ≤ 0 && sold day ≤ 0) := by
    rw [judged, h, Bool.true_and]
  rw [hshelf, Bool.not_eq_false', Bool.and_eq_true, decide_eq_true_eq, decide_eq_true_eq,
    and_comm]

theorem judged_of_unknown {sold closing : ℤ → ℚ} {countedOn : Option ℤ} {day : ℤ}
    (h : ¬ countedOn.all (· ≤ day) = true) : (judged sold closing countedOn day).inStock = true := by
  rw [judged, Bool.eq_false_iff.2 h, Bool.false_and, Bool.false_and, Bool.not_false]

/-- How many days are walked back over. -/
def walked (firstKnownDay : Option ℤ) (left : ℕ) (day : ℤ) : ℕ :=
  match firstKnownDay with
  | none => left
  | some known => min left (day + 1 - known).toNat

/-- Starting from a day's closing stock, every day walked back over is judged
by its own. -/
theorem walkBack_eq {sold changes closing : ℤ → ℚ} (countedOn firstKnownDay : Option ℤ)
    {left : ℕ} {day : ℤ} (hpred : ∀ d, day + 1 - left ≤ d → d ≤ day →
      closing (d - 1) = double (double (closing d + sold d) - changes d)) :
    walkBack sold changes countedOn firstKnownDay left day (closing day) =
      (List.range (walked firstKnownDay left day)).map fun back : ℕ =>
        judged sold closing countedOn (day - back) := by
  induction left generalizing day with
  | zero =>
    have hnone : walked firstKnownDay 0 day = 0 := by
      cases firstKnownDay <;> simp [walked]
    rw [hnone]
    rfl
  | succ left ih =>
    rw [walkBack]
    by_cases hstop : firstKnownDay.any (day < ·) = true
    · have hnone : walked firstKnownDay (left + 1) day = 0 := by
        cases firstKnownDay with
        | none => simp at hstop
        | some known =>
          simp only [Option.any_some, decide_eq_true_eq] at hstop
          simp only [walked]
          omega
      rw [if_pos hstop, hnone]
      rfl
    · have hmore : walked firstKnownDay (left + 1) day =
          walked firstKnownDay left (day - 1) + 1 := by
        cases firstKnownDay with
        | none => rfl
        | some known =>
          simp only [Option.any_some, decide_eq_true_eq] at hstop
          simp only [walked]
          omega
      have hearlier : ∀ d, day - 1 + 1 - (left : ℤ) ≤ d → d ≤ day - 1 →
          closing (d - 1) = double (double (closing d + sold d) - changes d) :=
        fun d hd hle => hpred d (by push_cast; omega) (by omega)
      have hrest := ih hearlier
      rw [if_neg hstop, hmore, List.range_succ_eq_map, List.map_cons, List.map_map]
      dsimp only
      rw [← hpred day (by push_cast; omega) le_rfl, hrest]
      congr 1
      · simp [judged]
      · refine List.map_congr_left fun back _ => ?_
        have hback : day - 1 - (back : ℤ) = day - ((back + 1 : ℕ) : ℤ) := by
          push_cast
          ring
        rw [hback]
        rfl

/-- Days gone through backwards come out oldest first. -/
theorem reverse_map_range {ρ : Type*} (f : ℤ → ρ) (n : ℕ) (day : ℤ) :
    ((List.range n).map fun back : ℕ => f (day - back)).reverse =
      (List.range n).map fun i : ℕ => f (day + 1 - n + i) := by
  refine List.ext_getElem (by simp) fun i hi _ => ?_
  have hlt : i < n := by simpa using hi
  simp only [List.getElem_reverse, List.getElem_map, List.getElem_range, List.length_map,
    List.length_range]
  congr 1
  omega

section

variable (offset : ℤ) (soldPerDay : List (Timestamp × ℚ)) (stockNow opening : ℚ)
  (stockChanges : List StockChange) (asOf : Timestamp) (knownFrom : Option Timestamp)
  (windowDays : ℕ)

/-- How many days are looked at. -/
def daysLookedAt : ℕ :=
  (startOfDay offset asOf + 1 - firstDay offset asOf knownFrom windowDays).toNat

/-- The stock at the end of a day so many days back, by the exact ledger. -/
def shelf (back : ℕ) : ℚ :=
  closing offset soldPerDay stockChanges opening (startOfDay offset asOf + 1 - windowDays)
    (startOfDay offset asOf - back)

/-- The stock the walk has for it. -/
def walkedShelf : ℕ → ℚ
  | 0 => double stockNow
  | back + 1 =>
    double (double (walkedShelf back +
        double (soldOn offset soldPerDay (startOfDay offset asOf - back))) -
      changesByDay offset (changesAsDoubles stockChanges) (startOfDay offset asOf - back))

/-- What undoing one day is off by: its figures as doubles, the sum and the
difference. -/
def roundingError (back : ℕ) : ℚ :=
  let day := startOfDay offset asOf - back
  let stock := walkedShelf offset soldPerDay stockNow stockChanges asOf back
  let sum := stock + double (soldOn offset soldPerDay day)
  let difference := double sum - changesByDay offset (changesAsDoubles stockChanges) day
  (double (soldOn offset soldPerDay day) - soldOn offset soldPerDay day) + (double sum - sum) +
    (changedOn offset stockChanges day - changesByDay offset (changesAsDoubles stockChanges) day) +
    (double difference - difference)

/-- What the roundings from today back to a day add up to. -/
def drift (back : ℕ) : ℚ :=
  double stockNow - stockNow +
    ∑ i ∈ Finset.range back, roundingError offset soldPerDay stockNow stockChanges asOf i

/-- All that is added and taken away from today back to a day. -/
def handled (back : ℕ) : ℚ :=
  |stockNow| + ∑ i ∈ Finset.range back, (|soldOn offset soldPerDay (startOfDay offset asOf - i)| +
    ((changesOn offset stockChanges (startOfDay offset asOf - i)).map abs).sum)

/-- How often a figure on the way was rounded, at most. -/
def roundings (back : ℕ) : ℕ :=
  1 + ∑ i ∈ Finset.range back,
    ((changesOn offset stockChanges (startOfDay offset asOf - i)).length + 2)

/-- Whether the closing stock of a day is further from zero than its roundings can
add up to. -/
def FarFromZero (back : ℕ) : Prop :=
  (slack 53 ^ roundings offset stockChanges asOf back - 1) *
      handled offset soldPerDay stockNow stockChanges asOf back <
    |shelf offset soldPerDay opening stockChanges asOf windowDays back|

/-- Whether all figures and sums of the walk are doubles. -/
structure SumsAreDoubles : Prop where
  /-- The stock of today. -/
  now : Held 53 stockNow
  /-- What was sold each day. -/
  sold : ∀ entry ∈ soldPerDay, Held 53 entry.2
  /-- Each change. -/
  change : ∀ change ∈ stockChanges, Held 53 change.change
  /-- The sums of each day's changes. -/
  changes : ∀ day, SumsHeld 53 0 (changesOn offset stockChanges day)
  /-- The stock of each day before its sales, and that of the day before. -/
  shelf : ∀ back < windowDays,
    Held 53 (shelf offset soldPerDay opening stockChanges asOf windowDays back +
      soldOn offset soldPerDay (startOfDay offset asOf - back)) ∧
    Held 53 (SellingDays.shelf offset soldPerDay opening stockChanges asOf windowDays (back + 1))

end

section

variable {offset : ℤ} {soldPerDay : List (Timestamp × ℚ)} {stockNow opening : ℚ}
  {stockChanges : List StockChange} {asOf : Timestamp} {knownFrom : Option Timestamp}
  {windowDays : ℕ}

theorem walked_eq : walked (knownFrom.map (startOfDay offset)) windowDays (startOfDay offset asOf) =
    daysLookedAt offset asOf knownFrom windowDays := by
  cases knownFrom with
  | none => simp [walked, daysLookedAt, firstDay]
  | some known =>
    simp only [walked, daysLookedAt, firstDay, Option.map_some]
    omega

theorem daysLookedAt_le : daysLookedAt offset asOf knownFrom windowDays ≤ windowDays := by
  rw [← walked_eq]
  cases knownFrom with
  | none => exact le_rfl
  | some known => exact min_le_left _ _

/-- A day back, the ledger undoes a day. -/
theorem shelf_succ {back : ℕ} (h : back < windowDays) :
    shelf offset soldPerDay opening stockChanges asOf windowDays (back + 1) =
      shelf offset soldPerDay opening stockChanges asOf windowDays back +
        soldOn offset soldPerDay (startOfDay offset asOf - back) -
        changedOn offset stockChanges (startOfDay offset asOf - back) := by
  rw [shelf, shelf, ← closing_pred _ _ _ (by omega)]
  congr 1
  push_cast
  ring

/-- What the walk has is what the ledger has and the drift. -/
theorem walkedShelf_eq (hleads : closing offset soldPerDay stockChanges opening
      (startOfDay offset asOf + 1 - windowDays) (startOfDay offset asOf) = stockNow)
    {back : ℕ} (h : back ≤ windowDays) :
    walkedShelf offset soldPerDay stockNow stockChanges asOf back =
      shelf offset soldPerDay opening stockChanges asOf windowDays back +
        drift offset soldPerDay stockNow stockChanges asOf back := by
  induction back with
  | zero =>
    rw [walkedShelf, shelf, drift, Nat.cast_zero, sub_zero, hleads]
    simp
  | succ back ih =>
    have hback := ih (Nat.le_of_succ_le h)
    rw [drift] at hback
    rw [walkedShelf, shelf_succ h, drift, Finset.sum_range_succ, roundingError]
    linarith

theorem changesOn_asDoubles (stockChanges : List StockChange) (day : ℤ) :
    changesOn offset (changesAsDoubles stockChanges) day =
      (changesOn offset stockChanges day).map double := by
  rw [changesOn, changesOn, changesAsDoubles, List.filter_map, List.map_map, List.map_map]
  rfl

/-- What the walk has is as far from the ledger as it was rounded on the way. -/
theorem walkedShelf_within (hleads : closing offset soldPerDay stockChanges opening
      (startOfDay offset asOf + 1 - windowDays) (startOfDay offset asOf) = stockNow)
    {back : ℕ} (h : back ≤ windowDays) :
    Within 53 (roundings offset stockChanges asOf back)
      (handled offset soldPerDay stockNow stockChanges asOf back)
      (walkedShelf offset soldPerDay stockNow stockChanges asOf back)
      (shelf offset soldPerDay opening stockChanges asOf windowDays back) := by
  induction back with
  | zero =>
    rw [walkedShelf, shelf, roundings, handled, Nat.cast_zero, sub_zero, hleads, Finset.range_zero,
      Finset.sum_empty, Finset.sum_empty, add_zero, add_zero]
    exact (within_refl 53 stockNow).rounded nearest_roundHalfEven
  | succ back ih =>
    have hback := ih (Nat.le_of_succ_le h)
    have hone : 1 ≤ roundings offset stockChanges asOf back := Nat.le_add_right 1 _
    have hsold := ((within_refl 53 (soldOn offset soldPerDay (startOfDay offset asOf - back))).rounded
      nearest_roundHalfEven).mono hone
    have hsum := (hback.add hsold).rounded nearest_roundHalfEven
    have hchanges := within_floatSum nearest_roundHalfEven le_rfl ((within_refl 53 0).mono zero_le_one)
      (l := changesOn offset stockChanges (startOfDay offset asOf - back))
    rw [abs_zero, zero_add, zero_add] at hchanges
    have hnext := ((hsum.mono (Nat.le_add_right _ _)).sub (hchanges.mono (k :=
      roundings offset stockChanges asOf back + 1 +
        (changesOn offset stockChanges (startOfDay offset asOf - back)).length)
      (by omega))).rounded nearest_roundHalfEven
    rw [walkedShelf, shelf_succ h, changesByDay_eq, changesOn_asDoubles, changedOn]
    have hcount : roundings offset stockChanges asOf (back + 1) =
        roundings offset stockChanges asOf back + 1 +
          (changesOn offset stockChanges (startOfDay offset asOf - back)).length + 1 := by
      rw [roundings, roundings, Finset.sum_range_succ]
      omega
    have hsize : handled offset soldPerDay stockNow stockChanges asOf (back + 1) =
        handled offset soldPerDay stockNow stockChanges asOf back +
          |soldOn offset soldPerDay (startOfDay offset asOf - back)| +
          ((changesOn offset stockChanges (startOfDay offset asOf - back)).map abs).sum := by
      rw [handled, handled, Finset.sum_range_succ, ← add_assoc, ← add_assoc]
    rw [hcount, hsize]
    exact hnext

/-- Without rounding there is no drift. -/
theorem drift_of_doubles
    (hdays : (soldPerDay.map fun entry => startOfDay offset entry.1).Nodup)
    (hleads : closing offset soldPerDay stockChanges opening
      (startOfDay offset asOf + 1 - windowDays) (startOfDay offset asOf) = stockNow)
    (h : SumsAreDoubles offset soldPerDay stockNow opening stockChanges asOf windowDays)
    {back : ℕ} (hback : back ≤ windowDays) :
    drift offset soldPerDay stockNow stockChanges asOf back = 0 := by
  induction back with
  | zero =>
    rw [drift, double_of_held h.now]
    simp
  | succ back ih =>
    have hzero := ih (Nat.le_of_succ_le hback)
    have hstock := walkedShelf_eq hleads (Nat.le_of_succ_le hback)
    rw [hzero, add_zero] at hstock
    obtain ⟨hsum, hnext⟩ := h.shelf back hback
    rw [shelf_succ hback] at hnext
    rw [drift] at hzero
    rw [drift, Finset.sum_range_succ, ← add_assoc, hzero, roundingError]
    rw [hstock, changesAsDoubles_of_held h.change, changesByDay_of_held (h.changes _),
      double_of_held (held_soldOn hdays h.sold _),
      double_of_held hsum, double_of_held hnext]
    ring

/-- The selling days are the days from the first one looked at up to today,
each judged by its own sales and the stock the walk has for it. -/
theorem sellingDays_eq
    (hdays : (soldPerDay.map fun entry => startOfDay offset entry.1).Nodup) :
    sellingDays offset (soldAsDoubles soldPerDay) (double stockNow) (changesAsDoubles stockChanges)
        asOf knownFrom windowDays =
      (List.range (daysLookedAt offset asOf knownFrom windowDays)).map fun i : ℕ =>
        judged (fun day => double (soldOn offset soldPerDay day))
          (fun day => walkedShelf offset soldPerDay stockNow stockChanges asOf
            (startOfDay offset asOf - day).toNat)
          (countedOn offset (changesAsDoubles stockChanges))
          (firstDay offset asOf knownFrom windowDays + i) := by
  have hsold : (fun day => (soldByDay offset (soldAsDoubles soldPerDay) day).getD 0) =
      fun day => double (soldOn offset soldPerDay day) :=
    funext fun day => soldByDay_asDoubles hdays day
  have hwalk := @walkBack_eq (fun day => double (soldOn offset soldPerDay day))
    (changesByDay offset (changesAsDoubles stockChanges))
    (fun day => walkedShelf offset soldPerDay stockNow stockChanges asOf
      (startOfDay offset asOf - day).toNat)
    (countedOn offset (changesAsDoubles stockChanges)) (knownFrom.map (startOfDay offset)) windowDays
    (startOfDay offset asOf) fun d _ hd => by
      have hnext : (startOfDay offset asOf - (d - 1)).toNat =
          (startOfDay offset asOf - d).toNat + 1 := by omega
      have hday : startOfDay offset asOf - ((startOfDay offset asOf - d).toNat : ℤ) = d := by omega
      rw [hnext, walkedShelf, hday]
  rw [sub_self, Int.toNat_zero, walkedShelf] at hwalk
  rw [sellingDays, hsold, hwalk, reverse_map_range, walked_eq]
  refine List.map_congr_left fun i hi => ?_
  have hlt := List.mem_range.1 hi
  rw [daysLookedAt] at hlt ⊢
  congr 1
  omega

/-- What walking back gets right. -/
structure Exact (offset : ℤ) (soldPerDay : List (Timestamp × ℚ)) (opening : ℚ)
    (stockChanges : List StockChange) (asOf : Timestamp) (knownFrom : Option Timestamp)
    (windowDays : ℕ) (days : List SellingDay) : Prop where
  /-- Every day once and oldest first, from the first one looked at to today. -/
  consecutive : days.map (·.day) =
    (List.range (daysLookedAt offset asOf knownFrom windowDays)).map fun i : ℕ =>
      firstDay offset asOf knownFrom windowDays + i
  /-- The quantity sold that day, as a double. -/
  quantity : ∀ day ∈ days, day.quantity = double (soldOn offset soldPerDay day.day)
  /-- Out of stock, since the last count, when nothing was sold and the
  ledger closed at nothing. -/
  ran_out : ∀ day ∈ days, SinceLastCount offset stockChanges day.day →
    (day.inStock = false ↔ soldOn offset soldPerDay day.day ≤ 0 ∧
      closing offset soldPerDay stockChanges opening
        (startOfDay offset asOf + 1 - windowDays) day.day ≤ 0)
  /-- In stock before the last count. -/
  before_count : ∀ day ∈ days, ¬ SinceLastCount offset stockChanges day.day → day.inStock = true

/-- What the roundings add up to takes no empty or unsold shelf across zero. -/
def NeverAcross (offset : ℤ) (soldPerDay : List (Timestamp × ℚ)) (stockNow opening : ℚ)
    (stockChanges : List StockChange) (asOf : Timestamp) (knownFrom : Option Timestamp)
    (windowDays : ℕ) : Prop :=
  ∀ back < daysLookedAt offset asOf knownFrom windowDays,
    SinceLastCount offset stockChanges (startOfDay offset asOf - back) →
    soldOn offset soldPerDay (startOfDay offset asOf - back) ≤ 0 →
    (shelf offset soldPerDay opening stockChanges asOf windowDays back +
        drift offset soldPerDay stockNow stockChanges asOf back ≤ 0 ↔
      shelf offset soldPerDay opening stockChanges asOf windowDays back ≤ 0)

instance neverAcrossDecidable : Decidable (NeverAcross offset soldPerDay stockNow opening
    stockChanges asOf knownFrom windowDays) :=
  inferInstanceAs (Decidable (∀ back < _, _ → _ → _))

theorem double_nonpos_iff (x : ℚ) : double x ≤ 0 ↔ x ≤ 0 := by
  rw [← not_lt, ← not_lt, double_pos_iff]

/-- The days looked at, counted back from today. -/
theorem firstDay_add {i : ℕ} (hi : i < daysLookedAt offset asOf knownFrom windowDays) :
    ∃ back < daysLookedAt offset asOf knownFrom windowDays,
      firstDay offset asOf knownFrom windowDays + i = startOfDay offset asOf - back := by
  refine ⟨daysLookedAt offset asOf knownFrom windowDays - 1 - i, by omega, ?_⟩
  rw [daysLookedAt] at hi ⊢
  omega

theorem sub_eq_firstDay_add {back : ℕ}
    (hback : back < daysLookedAt offset asOf knownFrom windowDays) :
    ∃ i < daysLookedAt offset asOf knownFrom windowDays,
      startOfDay offset asOf - back = firstDay offset asOf knownFrom windowDays + i := by
  refine ⟨daysLookedAt offset asOf knownFrom windowDays - 1 - back, by omega, ?_⟩
  rw [daysLookedAt] at hback ⊢
  omega

/-- How the walk judges a day since the last count. -/
theorem judged_back (hleads : closing offset soldPerDay stockChanges opening
      (startOfDay offset asOf + 1 - windowDays) (startOfDay offset asOf) = stockNow)
    {back : ℕ} (hback : back ≤ windowDays)
    (hsince : SinceLastCount offset stockChanges (startOfDay offset asOf - back)) :
    (judged (fun day => double (soldOn offset soldPerDay day))
        (fun day => walkedShelf offset soldPerDay stockNow stockChanges asOf
          (startOfDay offset asOf - day).toNat)
        (countedOn offset (changesAsDoubles stockChanges))
        (startOfDay offset asOf - back)).inStock = false ↔
      soldOn offset soldPerDay (startOfDay offset asOf - back) ≤ 0 ∧
        shelf offset soldPerDay opening stockChanges asOf windowDays back +
          drift offset soldPerDay stockNow stockChanges asOf back ≤ 0 := by
  have hcount : (startOfDay offset asOf - (startOfDay offset asOf - back)).toNat = back := by omega
  rw [judged_of_known ((known_iff _ _).2 ((sinceLastCount_asDoubles _ _).2 hsince)), hcount,
    double_nonpos_iff, walkedShelf_eq hleads hback]

/-- Walking back gets everything right exactly when the roundings take no shelf
across zero. -/
theorem exact_iff
    (hdays : (soldPerDay.map fun entry => startOfDay offset entry.1).Nodup)
    (hleads : closing offset soldPerDay stockChanges opening
      (startOfDay offset asOf + 1 - windowDays) (startOfDay offset asOf) = stockNow) :
    Exact offset soldPerDay opening stockChanges asOf knownFrom windowDays
      (sellingDays offset (soldAsDoubles soldPerDay) (double stockNow)
        (changesAsDoubles stockChanges) asOf knownFrom windowDays) ↔
      NeverAcross offset soldPerDay stockNow opening stockChanges asOf knownFrom windowDays := by
  rw [sellingDays_eq hdays]
  constructor
  · intro h back hback hsince hsold
    have hle := hback.le.trans daysLookedAt_le
    obtain ⟨i, hi, hday⟩ := sub_eq_firstDay_add hback
    have hran := h.ran_out _ (List.mem_map_of_mem (List.mem_range.2 hi))
    rw [← hday, judged] at hran
    have hjudged := judged_back hleads hle hsince
    rw [judged] at hjudged
    rw [hran hsince] at hjudged
    simp only [hsold, true_and] at hjudged
    exact hjudged.symm
  · intro h
    constructor
    · rw [List.map_map]
      rfl
    · rintro day hday
      obtain ⟨i, -, rfl⟩ := List.mem_map.1 hday
      rfl
    · rintro day hday hknown
      obtain ⟨i, hi, rfl⟩ := List.mem_map.1 hday
      obtain ⟨back, hback, hsame⟩ := firstDay_add (List.mem_range.1 hi)
      rw [hsame] at hknown ⊢
      rw [judged_back hleads (hback.le.trans daysLookedAt_le) hknown]
      exact and_congr_right fun hsold => h back hback hknown hsold
    · rintro day hday hunknown
      obtain ⟨i, -, rfl⟩ := List.mem_map.1 hday
      refine judged_of_unknown (mt (known_iff _ _).1 ?_)
      rwa [sinceLastCount_asDoubles]

/-- No shelf goes across zero where all figures and sums are doubles, or where every
unsold shelf is far from it. -/
theorem neverAcross_of_far
    (hdays : (soldPerDay.map fun entry => startOfDay offset entry.1).Nodup)
    (hleads : closing offset soldPerDay stockChanges opening
      (startOfDay offset asOf + 1 - windowDays) (startOfDay offset asOf) = stockNow)
    (h : SumsAreDoubles offset soldPerDay stockNow opening stockChanges asOf windowDays ∨
      ∀ back < daysLookedAt offset asOf knownFrom windowDays,
        SinceLastCount offset stockChanges (startOfDay offset asOf - back) →
        soldOn offset soldPerDay (startOfDay offset asOf - back) ≤ 0 →
        FarFromZero offset soldPerDay stockNow opening stockChanges asOf windowDays back) :
    NeverAcross offset soldPerDay stockNow opening stockChanges asOf knownFrom windowDays := by
  intro back hback hsince hsold
  have hle := hback.le.trans daysLookedAt_le
  rcases h with hdoubles | hfar
  · rw [drift_of_doubles hdays hleads hdoubles hle, add_zero]
  · rw [← walkedShelf_eq hleads hle]
    exact (walkedShelf_within hleads hle).nonpos_iff (hfar back hback hsince hsold)

end

example : sellingDays 480 [(100 * DAY, 5)] 15 [⟨99 * DAY, 20, false⟩] (100 * DAY) none 4 =
    [⟨97, 0, false⟩, ⟨98, 0, false⟩, ⟨99, 0, true⟩, ⟨100, 5, true⟩] := by decide +kernel

section

open PhoneDatabase

variable (offset : ℤ)

/-- The local midnight a day starts with. -/
def midnightOf (day : ℤ) : Timestamp := day * DAY - offset * MINUTE

theorem startOfDay_midnightOf (day : ℤ) : startOfDay offset (midnightOf offset day) = day := by
  rw [startOfDay, localDay, midnightOf, sub_add_cancel]
  exact Int.mul_ediv_cancel _ (by decide)

/-- Figures added up by day, one row a day; the totals are exact here. -/
def groupByDay (figures : List (ℤ × ℚ)) : List (ℤ × ℚ) :=
  (figures.map (·.1)).dedup.map fun day =>
    (day, ((figures.filter fun figure => figure.1 = day).map (·.2)).sum)

/-- Grouping changes no day's total. -/
theorem sum_groupByDay (figures : List (ℤ × ℚ)) (day : ℤ) :
    (((groupByDay figures).filter fun figure => figure.1 = day).map (·.2)).sum =
      ((figures.filter fun figure => figure.1 = day).map (·.2)).sum := by
  have hdays : (figures.map (·.1)).dedup.filter (· = day) =
      List.replicate (if day ∈ figures.map (·.1) then 1 else 0) day := by
    rw [List.filter_eq, List.count_dedup]
  have hmap : (groupByDay figures).filter (fun figure => figure.1 = day) =
      ((figures.map (·.1)).dedup.filter (· = day)).map fun d =>
        (d, ((figures.filter fun figure => figure.1 = d).map (·.2)).sum) := by
    rw [groupByDay, List.filter_map]
    rfl
  rw [hmap, hdays]
  split_ifs with hday
  · simp
  · have hnone : figures.filter (fun figure => figure.1 = day) = [] := by
      rw [List.filter_eq_nil_iff]
      intro figure hfigure heq
      exact hday (List.mem_map.2 ⟨figure, hfigure, of_decide_eq_true heq⟩)
    rw [hnone]
    rfl

/-- The figures of a product's live sale lines since an instant. -/
def soldFigures (storeId : Uuid) (since : Timestamp) (productId : Uuid) (db : PhoneDb) :
    List (ℤ × ℚ) :=
  db.saleItems.entries.filterMap fun (_, item) =>
    match db.sales.find? item.saleId with
    | none => none
    | some sale =>
      if sale.storeId = storeId ∧ sale.deletedAt = none ∧ since ≤ sale.occurredAt ∧
          item.productId = some productId then
        some (startOfDay offset sale.occurredAt, item.quantity)
      else none

/-- How much of a product sold on each day. -/
def soldPerProductPerDay (storeId : Uuid) (since : Timestamp) (productId : Uuid) (db : PhoneDb) :
    List (Timestamp × ℚ) :=
  (groupByDay (soldFigures offset storeId since productId db)).map fun (day, quantity) =>
    (midnightOf offset day, quantity)

/-- A product's movements since an instant, sales apart. -/
def movementsOf (storeId : Uuid) (since : Timestamp) (productId : Uuid) (db : PhoneDb) :
    List StockMovementRow :=
  (db.stockMovements.entries.map (·.2)).filter fun row =>
    row.storeId = storeId ∧ row.productId = productId ∧ since ≤ row.occurredAt ∧
      row.movement ≠ "sale"

/-- Deliveries, counts and spoilage of a product on each day. -/
def stockChangesOf (storeId : Uuid) (since : Timestamp) (productId : Uuid) (db : PhoneDb) :
    List StockChange :=
  let rows := movementsOf storeId since productId db
  (groupByDay (rows.map fun row => (startOfDay offset row.occurredAt, row.quantity))).map
    fun (day, change) => ⟨midnightOf offset day, change,
      rows.any fun row => startOfDay offset row.occurredAt = day && row.movement == "adjustment"⟩

/-- How far back the patterns look. -/
def patternWindowDays : ℤ := 60

variable (storeId : Uuid) (today : Timestamp) (productId : Uuid) (db : PhoneDb)

/-- What a product sold in the window that is read. -/
def recentlySold : List (Timestamp × ℚ) :=
  soldPerProductPerDay offset storeId (today - patternWindowDays * DAY) productId db

/-- How a product's stock changed in the window that is read. -/
def recentChanges : List StockChange :=
  stockChangesOf offset storeId (today - patternWindowDays * DAY) productId db

/-- The first day a product was sold or delivered, if that happened inside
the window. -/
def firstSeen : Option Timestamp :=
  ((recentlySold offset storeId today productId db).map (·.1) ++
    (recentChanges offset storeId today productId db).map (·.day)).min?

/-- The selling days of a product with so much stock, from what is on the
phone. -/
def compileDays (stockQuantity : ℚ) : List SellingDay :=
  sellingDays offset (recentlySold offset storeId today productId db) stockQuantity
    (recentChanges offset storeId today productId db) today
    (firstSeen offset storeId today productId db) forecastWindowDays

/-- Figures grouped by day give each day once. -/
theorem recentlySold_nodup : ((recentlySold offset storeId today productId db).map fun entry =>
    startOfDay offset entry.1).Nodup := by
  rw [recentlySold, soldPerProductPerDay, groupByDay, List.map_map, List.map_map]
  have hmap : ∀ days : List ℤ, days.map (fun day => startOfDay offset (midnightOf offset day)) =
      days := fun days => by
    simp only [startOfDay_midnightOf, List.map_id']
  refine Eq.subst (motive := List.Nodup) (hmap _).symm (List.nodup_dedup _)

/-- A day's figure is the total of the day's live sale lines. -/
theorem soldOn_recentlySold (day : ℤ) :
    soldOn offset (recentlySold offset storeId today productId db) day =
      (((soldFigures offset storeId (today - patternWindowDays * DAY) productId db).filter
        fun figure => figure.1 = day).map (·.2)).sum := by
  rw [← sum_groupByDay, soldOn, recentlySold, soldPerProductPerDay, List.filter_map, List.map_map]
  simp only [Function.comp_def, startOfDay_midnightOf]

/-- Where all its sums are doubles, what the phone compiles is exact: from the
first day a product was seen, each day is judged by the ledger that leads to the
stock it shows. -/
theorem compileDays_exact {opening stockQuantity : ℚ}
    (hleads : closing offset (recentlySold offset storeId today productId db)
      (recentChanges offset storeId today productId db) opening
      (startOfDay offset today + 1 - forecastWindowDays) (startOfDay offset today) =
        stockQuantity)
    (hsums : SumsAreDoubles offset (recentlySold offset storeId today productId db) stockQuantity
      opening (recentChanges offset storeId today productId db) today forecastWindowDays) :
    Exact offset (recentlySold offset storeId today productId db) opening
      (recentChanges offset storeId today productId db) today
      (firstSeen offset storeId today productId db) forecastWindowDays
      (compileDays offset storeId today productId db stockQuantity) := by
  have hdays := recentlySold_nodup offset storeId today productId db
  have hexact := (@exact_iff _ _ _ _ _ _ (firstSeen offset storeId today productId db) _ hdays
    hleads).mpr (neverAcross_of_far hdays hleads (Or.inl hsums))
  rw [soldAsDoubles_of_held hsums.sold, changesAsDoubles_of_held hsums.change,
    double_of_held hsums.now] at hexact
  exact hexact

end

end Kitaza.SellingDays
