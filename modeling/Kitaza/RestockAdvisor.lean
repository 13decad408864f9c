import Kitaza.SellingDays
import Kitaza.TopRanked

/-!
# What to reorder

A product with enough history is judged by how fast it sells, one without by
the reorder level its owner set. Everything that is due is advised once, with
an order that covers what it is for, whatever the sort does with equals.
-/

namespace Kitaza.RestockAdvisor

open Primitives PhoneDatabase SellingDays TopRanked

/-- What the advice is built on. -/
inductive RestockBasis where
  | sellingRate
  | reorderLevel
  deriving DecidableEq, Repr

/-- Advice to reorder a product. -/
structure RestockAdvice where
  /-- The product. -/
  product : Product
  /-- How much to order. -/
  orderQuantity : ℚ
  /-- What that is built on. -/
  basis : RestockBasis
  /-- Units a day; zero when the advice comes from the reorder level. -/
  dailyQuantity : ℚ
  /-- How many days the stock on hand lasts. Absent without a rate. -/
  coverDays : Option ℚ
  deriving DecidableEq, Repr

/-- How long a delivery takes to arrive. -/
def deliveryDays : ℚ := 2

/-- How long an order should last. -/
def targetCoverDays : ℚ := 10

/-- Advice on a product and its forecast by its selling rate. -/
def adviceByRate (product : Product) (forecast : DemandForecast) : Option RestockAdvice :=
  match forecast.coverDays product.stockQuantity with
  | none => none
  | some cover =>
    if deliveryDays + 1 < cover then none
    else
      let order := roundOrder
        (forecast.dailyQuantity * (targetCoverDays + deliveryDays) - product.stockQuantity)
      if order ≤ 0 then none
      else some ⟨product, order, .sellingRate, forecast.dailyQuantity, some cover⟩

/-- Advice on a product by its reorder level. -/
def adviceByLevel (product : Product) : Option RestockAdvice :=
  if 0 < product.reorderLevel ∧ product.stockQuantity ≤ product.reorderLevel then
    some ⟨product, roundOrder (product.reorderLevel * 2 - product.stockQuantity), .reorderLevel,
      0, none⟩
  else none

/-- Go on to the next product of the catalogue. -/
def collect (advice : List RestockAdvice × List RestockAdvice) (entry : Product × DemandForecast) :
    List RestockAdvice × List RestockAdvice :=
  if !entry.1.isActive then advice
  else if entry.2.isReliable then
    (advice.1 ++ (adviceByRate entry.1 entry.2).toList, advice.2)
  else (advice.1, advice.2 ++ (adviceByLevel entry.1).toList)

/-- The days the stock lasts, the shortest ranked first. -/
def runsOutFirst (advice : RestockAdvice) : ℚ := -(advice.coverDays.getD 0)

/-- The stock as a part of the reorder level, the smallest ranked first. -/
def lowestFirst (advice : RestockAdvice) : ℚ :=
  -(advice.product.stockQuantity / advice.product.reorderLevel)

/-- Everything worth reordering, soonest first. -/
def allRestocks (byCover : Arrangement runsOutFirst) (byLevel : Arrangement lowestFirst)
    (catalogue : List (Product × DemandForecast)) : List RestockAdvice :=
  let advice := catalogue.foldl collect ([], [])
  byCover.arrange advice.1 ++ byLevel.arrange advice.2

/-- What to reorder, soonest first; a negative limit is a range error. -/
def suggestRestocks (byCover : Arrangement runsOutFirst) (byLevel : Arrangement lowestFirst)
    (catalogue : List (Product × DemandForecast)) (limit : ℤ) : Option (List RestockAdvice) :=
  if limit < 0 then none else some ((allRestocks byCover byLevel catalogue).take limit.toNat)

theorem roundOrder_of_nonpos {x : ℚ} (h : x ≤ 0) : roundOrder x = 0 := if_pos h

theorem roundOrder_of_lt_ten {x : ℚ} (h : 0 < x) (hten : x < 10) : roundOrder x = ⌈x⌉ := by
  rw [roundOrder, if_neg h.not_ge, if_pos hten]

theorem roundOrder_of_lt_hundred {x : ℚ} (h : 10 ≤ x) (hhundred : x < 100) :
    roundOrder x = ⌈x / 5⌉ * 5 := by
  rw [roundOrder, if_neg (by linarith), if_neg h.not_gt, if_pos hhundred]

theorem roundOrder_of_hundred_le {x : ℚ} (h : 100 ≤ x) : roundOrder x = ⌈x / 10⌉ * 10 := by
  rw [roundOrder, if_neg (by linarith), if_neg (by linarith), if_neg h.not_gt]

/-- Rounded up to a step, a figure grows by less than the step. -/
theorem ceil_div_mul_mem (x : ℚ) {step : ℚ} (hstep : 0 < step) :
    x ≤ ⌈x / step⌉ * step ∧ ⌈x / step⌉ * step < x + step := by
  have hle := Int.le_ceil (x / step)
  have hlt := Int.ceil_lt_add_one (x / step)
  have hmul : x / step * step = x := div_mul_cancel₀ x hstep.ne'
  constructor
  · calc x = x / step * step := hmul.symm
      _ ≤ ⌈x / step⌉ * step := by gcongr
  · calc (⌈x / step⌉ : ℚ) * step < (x / step + 1) * step := by gcongr
      _ = x + step := by rw [add_mul, hmul, one_mul]

/-- An order is never cut short. -/
theorem le_roundOrder (x : ℚ) : x ≤ roundOrder x := by
  rcases le_or_gt x 0 with h | h
  · rwa [roundOrder_of_nonpos h]
  rcases lt_or_ge x 10 with hten | hten
  · rw [roundOrder_of_lt_ten h hten]
    exact Int.le_ceil x
  rcases lt_or_ge x 100 with hhundred | hhundred
  · rw [roundOrder_of_lt_hundred hten hhundred]
    exact (ceil_div_mul_mem x (by norm_num)).1
  · rw [roundOrder_of_hundred_le hhundred]
    exact (ceil_div_mul_mem x (by norm_num)).1

/-- Rounding adds less than ten. -/
theorem roundOrder_lt_add_ten {x : ℚ} (h : 0 < x) : roundOrder x < x + 10 := by
  rcases lt_or_ge x 10 with hten | hten
  · rw [roundOrder_of_lt_ten h hten]
    have hlt := Int.ceil_lt_add_one x
    linarith
  rcases lt_or_ge x 100 with hhundred | hhundred
  · rw [roundOrder_of_lt_hundred hten hhundred]
    have hlt := (ceil_div_mul_mem x (by norm_num : (0 : ℚ) < 5)).2
    linarith
  · rw [roundOrder_of_hundred_le hhundred]
    exact (ceil_div_mul_mem x (by norm_num)).2

theorem roundOrder_nonneg (x : ℚ) : 0 ≤ roundOrder x := by
  rcases le_or_gt x 0 with h | h
  · rw [roundOrder_of_nonpos h]
  · exact h.le.trans (le_roundOrder x)

/-- What is below ten is not rounded past it. -/
theorem roundOrder_le_ten {x : ℚ} (h : x ≤ 10) : roundOrder x ≤ 10 := by
  rcases le_or_gt x 0 with hzero | hzero
  · rw [roundOrder_of_nonpos hzero]
    norm_num
  rcases h.lt_or_eq with hten | rfl
  · rw [roundOrder_of_lt_ten hzero hten]
    have hceil : ⌈x⌉ ≤ 10 := Int.ceil_le.2 (by exact_mod_cast h)
    exact_mod_cast hceil
  · norm_num [roundOrder]

/-- What is below a hundred is not rounded past it. -/
theorem roundOrder_le_hundred {x : ℚ} (h : x ≤ 100) : roundOrder x ≤ 100 := by
  rcases le_or_gt x 10 with hten | hten
  · exact (roundOrder_le_ten hten).trans (by norm_num)
  rcases h.lt_or_eq with hhundred | rfl
  · rw [roundOrder_of_lt_hundred hten.le hhundred]
    have hceil : ⌈x / 5⌉ ≤ 20 := Int.ceil_le.2 (by push_cast; linarith)
    have hcast : (⌈x / 5⌉ : ℚ) ≤ 20 := by exact_mod_cast hceil
    linarith
  · norm_num [roundOrder]

theorem roundOrder_monotone : Monotone roundOrder := by
  intro x y hxy
  rcases le_or_gt x 0 with hx | hx
  · rw [roundOrder_of_nonpos hx]
    exact roundOrder_nonneg y
  rcases lt_or_ge y 10 with hten | hten
  · rw [roundOrder_of_lt_ten hx (by linarith), roundOrder_of_lt_ten (by linarith) hten]
    exact_mod_cast Int.ceil_le_ceil hxy
  rcases lt_or_ge x 10 with hlt | hge
  · exact (roundOrder_le_ten hlt.le).trans (hten.trans (le_roundOrder y))
  rcases lt_or_ge y 100 with hhundred | hhundred
  · rw [roundOrder_of_lt_hundred hge (by linarith), roundOrder_of_lt_hundred hten hhundred]
    have hceil : ⌈x / 5⌉ ≤ ⌈y / 5⌉ := Int.ceil_le_ceil (by linarith)
    have hcast : (⌈x / 5⌉ : ℚ) ≤ ⌈y / 5⌉ := by exact_mod_cast hceil
    linarith
  rcases lt_or_ge x 100 with hlt | hge
  · exact (roundOrder_le_hundred hlt.le).trans (hhundred.trans (le_roundOrder y))
  · rw [roundOrder_of_hundred_le hge, roundOrder_of_hundred_le hhundred]
    have hceil : ⌈x / 10⌉ ≤ ⌈y / 10⌉ := Int.ceil_le_ceil (by linarith)
    have hcast : (⌈x / 10⌉ : ℚ) ≤ ⌈y / 10⌉ := by exact_mod_cast hceil
    linarith

/-- A multiple of a step needs no rounding up to it. -/
theorem ceil_intCast_mul_div (n : ℤ) {step : ℚ} (hstep : step ≠ 0) :
    ⌈(n : ℚ) * step / step⌉ = n := by
  rw [mul_div_cancel_right₀ _ hstep, Int.ceil_intCast]

theorem roundOrder_idem (x : ℚ) : roundOrder (roundOrder x) = roundOrder x := by
  rcases le_or_gt x 0 with h | h
  · rw [roundOrder_of_nonpos h, roundOrder_of_nonpos le_rfl]
  have hpos : 0 < roundOrder x := h.trans_le (le_roundOrder x)
  rcases lt_or_ge (roundOrder x) 10 with hten | hten
  · have hx : x < 10 := (le_roundOrder x).trans_lt hten
    rw [roundOrder_of_lt_ten hpos hten, roundOrder_of_lt_ten h hx, Int.ceil_intCast]
  rcases lt_or_ge x 10 with hx | hx
  · have heq : roundOrder x = 10 := le_antisymm (roundOrder_le_ten hx.le) hten
    rw [heq]
    norm_num [roundOrder]
  rcases lt_or_ge x 100 with hhundred | hhundred
  · rcases (roundOrder_le_hundred hhundred.le).lt_or_eq with hlt | heq
    · rw [roundOrder_of_lt_hundred hten hlt, roundOrder_of_lt_hundred hx hhundred,
        ceil_intCast_mul_div _ (by norm_num)]
    · rw [heq]
      norm_num [roundOrder]
  · have hge : 100 ≤ roundOrder x := hhundred.trans (le_roundOrder x)
    rw [roundOrder_of_hundred_le hge, roundOrder_of_hundred_le hhundred,
      ceil_intCast_mul_div _ (by norm_num)]

/-- Due by its rate: on sale, a reliable forecast, and three days of cover or
less. -/
def DueByRate (entry : Product × DemandForecast) : Prop :=
  entry.1.isActive = true ∧ entry.2.isReliable = true ∧
    entry.1.stockQuantity / entry.2.dailyQuantity ≤ 3

/-- Due by its level: on sale, no reliable forecast, and at or below a
positive reorder level. -/
def DueByLevel (entry : Product × DemandForecast) : Prop :=
  entry.1.isActive = true ∧ entry.2.isReliable = false ∧ 0 < entry.1.reorderLevel ∧
    entry.1.stockQuantity ≤ entry.1.reorderLevel

instance (entry : Product × DemandForecast) : Decidable (DueByRate entry) :=
  inferInstanceAs (Decidable (_ ∧ _ ∧ _))

instance (entry : Product × DemandForecast) : Decidable (DueByLevel entry) :=
  inferInstanceAs (Decidable (_ ∧ _ ∧ _ ∧ _))

/-- Advice by a product's rate: with the order the stock lasts twelve days. -/
structure ForTwelveDays (entry : Product × DemandForecast) (advice : RestockAdvice) : Prop where
  /-- It is about the product. -/
  product : advice.product = entry.1
  /-- By its rate. -/
  basis : advice.basis = .sellingRate
  /-- The rate. -/
  rate : advice.dailyQuantity = entry.2.dailyQuantity
  /-- The cover. -/
  cover : advice.coverDays = some (entry.1.stockQuantity / entry.2.dailyQuantity)
  /-- Twelve days or more. -/
  enough : 12 ≤ (entry.1.stockQuantity + advice.orderQuantity) / entry.2.dailyQuantity

/-- Advice by a product's level: with the order the stock is twice that. -/
structure ForTwiceTheLevel (entry : Product × DemandForecast) (advice : RestockAdvice) : Prop where
  /-- It is about the product. -/
  product : advice.product = entry.1
  /-- By its level. -/
  basis : advice.basis = .reorderLevel
  /-- Twice the level or more. -/
  enough : entry.1.reorderLevel * 2 ≤ entry.1.stockQuantity + advice.orderQuantity

theorem coverDays_of_isReliable {forecast : DemandForecast} (h : forecast.isReliable = true)
    (stock : ℚ) : forecast.coverDays stock = some (stock / forecast.dailyQuantity) :=
  DemandForecast.coverDays_of_pos (DemandForecast.dailyQuantity_pos_of_isReliable h) stock

/-- What is not due by its rate gets no advice. -/
theorem adviceByRate_of_not_due {entry : Product × DemandForecast}
    (hactive : entry.1.isActive = true) (hreliable : entry.2.isReliable = true)
    (h : ¬ DueByRate entry) : adviceByRate entry.1 entry.2 = none := by
  have hcover : ¬ entry.1.stockQuantity / entry.2.dailyQuantity ≤ 3 := fun hle =>
    h ⟨hactive, hreliable, hle⟩
  have hlong : deliveryDays + 1 < entry.1.stockQuantity / entry.2.dailyQuantity := by
    rw [deliveryDays]
    linarith [not_le.1 hcover]
  rw [adviceByRate, coverDays_of_isReliable hreliable]
  exact if_pos hlong

/-- What is due by its rate gets an order for twelve days. -/
theorem adviceByRate_of_due {entry : Product × DemandForecast} (h : DueByRate entry) :
    ∃ advice, adviceByRate entry.1 entry.2 = some advice ∧ ForTwelveDays entry advice := by
  obtain ⟨-, hreliable, hcover⟩ := h
  have hpos := DemandForecast.dailyQuantity_pos_of_isReliable hreliable
  have hstock : entry.1.stockQuantity ≤ 3 * entry.2.dailyQuantity := (div_le_iff₀ hpos).1 hcover
  have hshort : ¬ deliveryDays + 1 < entry.1.stockQuantity / entry.2.dailyQuantity := by
    rw [deliveryDays]
    linarith
  have hneeded : 0 < entry.2.dailyQuantity * (targetCoverDays + deliveryDays) -
      entry.1.stockQuantity := by
    rw [targetCoverDays, deliveryDays]
    linarith
  have horder := le_roundOrder
    (entry.2.dailyQuantity * (targetCoverDays + deliveryDays) - entry.1.stockQuantity)
  have hadvice : adviceByRate entry.1 entry.2 = some
      ⟨entry.1, roundOrder (entry.2.dailyQuantity * (targetCoverDays + deliveryDays) -
        entry.1.stockQuantity), .sellingRate, entry.2.dailyQuantity,
        some (entry.1.stockQuantity / entry.2.dailyQuantity)⟩ := by
    rw [adviceByRate, coverDays_of_isReliable hreliable]
    dsimp only
    rw [if_neg hshort, if_neg (hneeded.trans_le horder).not_ge]
  refine ⟨_, hadvice, rfl, rfl, rfl, rfl, ?_⟩
  rw [le_div_iff₀ hpos]
  dsimp only
  rw [targetCoverDays, deliveryDays] at horder ⊢
  linarith

/-- Advice on an entry by its rate, if it is judged by that. -/
def rateAdvice (entry : Product × DemandForecast) : Option RestockAdvice :=
  if entry.1.isActive && entry.2.isReliable then adviceByRate entry.1 entry.2 else none

/-- Advice on an entry by its level, if it is judged by that. -/
def levelAdvice (entry : Product × DemandForecast) : Option RestockAdvice :=
  if entry.1.isActive && !entry.2.isReliable then adviceByLevel entry.1 else none

theorem collect_eq (advice : List RestockAdvice × List RestockAdvice)
    (entry : Product × DemandForecast) : collect advice entry =
      (advice.1 ++ (rateAdvice entry).toList, advice.2 ++ (levelAdvice entry).toList) := by
  cases hactive : entry.1.isActive <;> cases hreliable : entry.2.isReliable <;>
    simp [collect, rateAdvice, levelAdvice, hactive, hreliable]

theorem rateAdvice_of_due {entry : Product × DemandForecast} (h : DueByRate entry) :
    ∃ advice, rateAdvice entry = some advice ∧ ForTwelveDays entry advice := by
  obtain ⟨advice, hadvice, hmeets⟩ := adviceByRate_of_due h
  refine ⟨advice, ?_, hmeets⟩
  rw [rateAdvice, h.1, h.2.1]
  exact hadvice

theorem rateAdvice_of_not_due {entry : Product × DemandForecast} (h : ¬ DueByRate entry) :
    rateAdvice entry = none := by
  rw [rateAdvice]
  split_ifs with hjudged
  · rw [Bool.and_eq_true] at hjudged
    exact adviceByRate_of_not_due hjudged.1 hjudged.2 h
  · rfl

theorem levelAdvice_of_due {entry : Product × DemandForecast} (h : DueByLevel entry) :
    ∃ advice, levelAdvice entry = some advice ∧ ForTwiceTheLevel entry advice := by
  have horder := le_roundOrder (entry.1.reorderLevel * 2 - entry.1.stockQuantity)
  have hadvice : levelAdvice entry = some
      ⟨entry.1, roundOrder (entry.1.reorderLevel * 2 - entry.1.stockQuantity), .reorderLevel,
        0, none⟩ := by
    rw [levelAdvice, h.1, h.2.1]
    exact if_pos h.2.2
  refine ⟨_, hadvice, rfl, rfl, ?_⟩
  dsimp only
  linarith

theorem levelAdvice_of_not_due {entry : Product × DemandForecast} (h : ¬ DueByLevel entry) :
    levelAdvice entry = none := by
  rw [levelAdvice]
  split_ifs with hjudged
  · rw [Bool.and_eq_true, Bool.not_eq_true'] at hjudged
    exact if_neg fun hlevel => h ⟨hjudged.1, hjudged.2, hlevel⟩
  · rfl

/-- Where there is advice exactly on what is due, what is due in a catalogue
matches the advice on it. -/
theorem forall₂_advice {due : Product × DemandForecast → Prop} [DecidablePred due]
    {meets : Product × DemandForecast → RestockAdvice → Prop}
    {advise : Product × DemandForecast → Option RestockAdvice}
    (hdue : ∀ entry, due entry → ∃ advice, advise entry = some advice ∧ meets entry advice)
    (hnot : ∀ entry, ¬ due entry → advise entry = none)
    (catalogue : List (Product × DemandForecast)) :
    List.Forall₂ meets (catalogue.filter fun entry => due entry) (catalogue.filterMap advise) := by
  induction catalogue with
  | nil => exact .nil
  | cons entry catalogue ih =>
    by_cases h : due entry
    · obtain ⟨advice, hadvice, hmeets⟩ := hdue entry h
      rw [List.filter_cons_of_pos (by simpa using h), List.filterMap_cons_some hadvice]
      exact .cons hmeets ih
    · rw [List.filter_cons_of_neg (by simpa using h), List.filterMap_cons_none (hnot entry h)]
      exact ih

theorem foldl_collect (catalogue : List (Product × DemandForecast)) :
    catalogue.foldl collect ([], []) =
      (catalogue.filterMap rateAdvice, catalogue.filterMap levelAdvice) := by
  induction catalogue using List.reverseRecOn with
  | nil => rfl
  | append_singleton catalogue entry ih =>
    rw [List.foldl_concat, ih, collect_eq, List.filterMap_append, List.filterMap_append]
    cases hrate : rateAdvice entry <;> cases hlevel : levelAdvice entry <;> simp [hrate, hlevel]

/-- Entries and their advice, matched one to one. -/
def Matched (meets : Product × DemandForecast → RestockAdvice → Prop)
    (entries : List (Product × DemandForecast)) (advice : List RestockAdvice) : Prop :=
  ∃ matched, List.Forall₂ meets entries matched ∧ advice.Perm matched

/-- Advice on everything that is due and nothing else: first by rate with the
shortest cover first, then by level with the emptiest shelf first. -/
structure Complete (catalogue : List (Product × DemandForecast))
    (byRate byLevel : List RestockAdvice) : Prop where
  /-- What is due by its rate, once each. -/
  by_rate : Matched ForTwelveDays (catalogue.filter fun entry => DueByRate entry) byRate
  /-- The shortest cover first. -/
  by_cover : byRate.Pairwise fun a b => a.coverDays.getD 0 ≤ b.coverDays.getD 0
  /-- What is due by its level, once each. -/
  by_level : Matched ForTwiceTheLevel (catalogue.filter fun entry => DueByLevel entry) byLevel
  /-- The emptiest shelf first. -/
  by_stock : byLevel.Pairwise fun a b =>
    a.product.stockQuantity / a.product.reorderLevel ≤
      b.product.stockQuantity / b.product.reorderLevel

/-- The advice is complete and sufficient for every catalogue, and an order
is rounded up by less than ten. -/
theorem restocks_complete (byCover : Arrangement runsOutFirst) (byStock : Arrangement lowestFirst)
    (catalogue : List (Product × DemandForecast)) :
    (∃ byRate byLevel, Complete catalogue byRate byLevel ∧
        ∀ limit : ℤ, suggestRestocks byCover byStock catalogue limit =
          if limit < 0 then none else some ((byRate ++ byLevel).take limit.toNat)) ∧
      Monotone roundOrder ∧ (∀ x, roundOrder (roundOrder x) = roundOrder x) ∧
      ∀ x, 0 < x → x ≤ roundOrder x ∧ roundOrder x < x + 10 := by
  refine ⟨⟨_, _, ?_, fun limit => rfl⟩, roundOrder_monotone, roundOrder_idem,
    fun x hx => ⟨le_roundOrder x, roundOrder_lt_add_ten hx⟩⟩
  rw [foldl_collect]
  constructor
  · exact ⟨_, forall₂_advice (fun _ => rateAdvice_of_due) (fun _ => rateAdvice_of_not_due) _,
      byCover.perm _⟩
  · exact (byCover.ranked _).imp neg_le_neg_iff.1
  · exact ⟨_, forall₂_advice (fun _ => levelAdvice_of_due) (fun _ => levelAdvice_of_not_due) _,
      byStock.perm _⟩
  · exact (byStock.ranked _).imp neg_le_neg_iff.1

end Kitaza.RestockAdvisor
