import Kitaza.SellingDays
import Kitaza.TopRanked
import Mathlib.Data.Prod.Lex

/-!
# Prices worth a second look

A suggested price is the least multiple of half a peso that leaves the target
margin after the cost. It is only ever shown where it is above the price
asked now, because what is shown either sells below its cost or would earn
more by it.
-/

namespace Kitaza.PriceAdvisor

open Primitives PhoneDatabase SellingDays TopRanked

/-- Why a price is worth a second look. -/
inductive PriceIssue where
  /-- Sold for less than it cost. -/
  | belowCost
  /-- Almost nothing left after the cost, on something that sells well. -/
  | thinMargin
  /-- Barely sells. -/
  | slowMover
  deriving DecidableEq, Repr

/-- The place of an issue among the issues. -/
def PriceIssue.index : PriceIssue → ℕ
  | .belowCost => 0
  | .thinMargin => 1
  | .slowMover => 2

/-- Advice on a price. -/
structure PriceAdvice where
  /-- The product. -/
  product : Product
  /-- What is wrong. -/
  issue : PriceIssue
  /-- What is left of the price after the cost, in percent. -/
  marginPercent : ℚ
  /-- Units a month. -/
  monthlyQuantity : ℚ
  /-- Absent for a slow mover, where a price change is not the answer. -/
  suggestedPrice : Option ℚ
  /-- What the suggested price would add in a month. -/
  extraPerMonth : ℚ
  deriving DecidableEq, Repr

/-- The margin a suggestion aims for. -/
def targetMarginPercent : ℚ := 15

/-- The floor under what is worth mentioning. -/
def worthMentioningPerMonth : ℚ := 50

/-- What is left of one unit's price after its cost. -/
def marginPerUnit (product : Product) : ℚ := product.sellingPrice - product.costPrice

/-- What is left of a price after the cost, in percent. -/
def marginPercent (product : Product) : ℚ :=
  if product.sellingPrice ≤ 0 then 0 else marginPerUnit product / product.sellingPrice * 100

/-- The price that leaves a margin of itself after the cost, rounded up to
the half peso. -/
def priceForMargin (cost marginPercent : ℚ) : ℚ :=
  if cost ≤ 0 then 0 else ⌈cost / (1 - marginPercent / 100) * 2⌉ / 2

/-- What a price would add, never less than nothing. -/
def gained (extra : ℚ) : ℚ := if 0 < extra then extra else 0

/-- Advice on one product of the catalogue. -/
def adviceOn (storeHasHistory : Bool) (entry : Product × DemandForecast) : Option PriceAdvice :=
  let product := entry.1
  let forecast := entry.2
  if !product.isActive || product.sellingPrice ≤ 0 then none
  else
    let monthly := forecast.dailyQuantity * 30
    let suggested := priceForMargin product.costPrice targetMarginPercent
    let extra := (suggested - product.sellingPrice) * monthly
    if 0 < product.costPrice ∧ product.sellingPrice < product.costPrice then
      some ⟨product, .belowCost, marginPercent product, monthly, some suggested,
        gained extra⟩
    else if forecast.isReliable = true ∧ marginPercent product < 8 ∧
        worthMentioningPerMonth ≤ extra then
      some ⟨product, .thinMargin, marginPercent product, monthly, some suggested, extra⟩
    else if storeHasHistory = true ∧ 21 ≤ forecast.daysCounted ∧ forecast.totalSold ≤ 2 ∧
        5 ≤ product.stockQuantity then
      some ⟨product, .slowMover, marginPercent product, monthly, none, 0⟩
    else none

/-- The first issue ranks first, and within one issue what adds the most. -/
def mostValuable (advice : PriceAdvice) : ℕᵒᵈ ×ₗ ℚ :=
  toLex (OrderDual.toDual advice.issue.index, advice.extraPerMonth)

/-- All prices worth a second look, most valuable first. -/
def allPrices (byValue : Arrangement mostValuable) (storeHasHistory : Bool)
    (catalogue : List (Product × DemandForecast)) : List PriceAdvice :=
  byValue.arrange (catalogue.filterMap (adviceOn storeHasHistory))

/-- Prices worth a second look; a negative limit is a range error. -/
def suggestPrices (byValue : Arrangement mostValuable) (storeHasHistory : Bool)
    (catalogue : List (Product × DemandForecast)) (limit : ℤ) : Option (List PriceAdvice) :=
  if limit < 0 then none
  else some ((allPrices byValue storeHasHistory catalogue).take limit.toNat)

/-- The product at another price. -/
def atPrice (product : Product) (price : ℚ) : Product := { product with sellingPrice := price }

/-- A whole number of half pesos that leaves the target margin. -/
def Worthwhile (product : Product) (price : ℚ) : Prop :=
  (∃ halves : ℤ, price = halves / 2) ∧ targetMarginPercent ≤ marginPercent (atPrice product price)

/-- The margin is met from the cost over what the cost may take of the price. -/
theorem target_le_marginPercent_iff {product : Product} (hcost : 0 < product.costPrice)
    (price : ℚ) : targetMarginPercent ≤ marginPercent (atPrice product price) ↔
      product.costPrice / (1 - targetMarginPercent / 100) ≤ price := by
  have hshare : (0 : ℚ) < 1 - targetMarginPercent / 100 := by norm_num [targetMarginPercent]
  rw [marginPercent, marginPerUnit, atPrice, div_le_iff₀ hshare]
  dsimp only
  rcases le_or_gt price 0 with hprice | hprice
  · rw [if_pos hprice]
    norm_num [targetMarginPercent]
    linarith
  · rw [if_neg hprice.not_ge, div_mul_eq_mul_div, le_div_iff₀ hprice]
    norm_num [targetMarginPercent]
    constructor <;> intro h <;> linarith

/-- The suggestion is the least price worth asking. -/
theorem isLeast_priceForMargin {product : Product} (hcost : 0 < product.costPrice) :
    IsLeast {price | Worthwhile product price}
      (priceForMargin product.costPrice targetMarginPercent) := by
  have hprice : priceForMargin product.costPrice targetMarginPercent =
      ⌈product.costPrice / (1 - targetMarginPercent / 100) * 2⌉ / 2 := if_neg hcost.not_ge
  rw [hprice]
  constructor
  · refine ⟨⟨_, rfl⟩, (target_le_marginPercent_iff hcost _).2 ?_⟩
    rw [le_div_iff₀ two_pos]
    exact Int.le_ceil _
  · rintro _ ⟨⟨halves, rfl⟩, hmargin⟩
    have hle := (target_le_marginPercent_iff hcost _).1 hmargin
    rw [le_div_iff₀ two_pos] at hle
    have hceil : (⌈product.costPrice / (1 - targetMarginPercent / 100) * 2⌉ : ℚ) ≤ halves := by
      exact_mod_cast Int.ceil_le.2 hle
    linarith

/-- What sells below its cost has a price above to go to. -/
theorem lt_priceForMargin_of_belowCost {product : Product} (hcost : 0 < product.costPrice)
    (hbelow : product.sellingPrice < product.costPrice) :
    product.sellingPrice < priceForMargin product.costPrice targetMarginPercent := by
  have hmargin := (isLeast_priceForMargin hcost).1.2
  rw [target_le_marginPercent_iff hcost, div_le_iff₀ (by norm_num [targetMarginPercent])] at hmargin
  norm_num [targetMarginPercent] at hmargin ⊢
  linarith

/-- What leaves next to no margin has a cost. -/
theorem costPrice_pos_of_thin {product : Product} (hprice : 0 < product.sellingPrice)
    (hthin : marginPercent product < 8) : 0 < product.costPrice := by
  rw [marginPercent, if_neg hprice.not_ge, marginPerUnit, div_mul_eq_mul_div,
    div_lt_iff₀ hprice] at hthin
  linarith

/-- What would earn more at the suggested price sells below it. -/
theorem lt_priceForMargin_of_extra {product : Product} {forecast : DemandForecast}
    (hreliable : forecast.isReliable = true)
    (hextra : worthMentioningPerMonth ≤
      (priceForMargin product.costPrice targetMarginPercent - product.sellingPrice) *
        (forecast.dailyQuantity * 30)) :
    product.sellingPrice < priceForMargin product.costPrice targetMarginPercent := by
  have hdaily := DemandForecast.dailyQuantity_pos_of_isReliable hreliable
  have hmonthly : 0 < forecast.dailyQuantity * 30 := by positivity
  have hpos : 0 < (priceForMargin product.costPrice targetMarginPercent - product.sellingPrice) *
      (forecast.dailyQuantity * 30) := by
    rw [worthMentioningPerMonth] at hextra
    linarith
  exact sub_pos.1 ((mul_pos_iff_of_pos_right hmonthly).1 hpos)

/-- A suggested price is above the one asked now, and the least worth
asking. -/
def Improves (advice : PriceAdvice) : Prop :=
  ∀ price ∈ advice.suggestedPrice, advice.product.sellingPrice < price ∧
    IsLeast {price | Worthwhile advice.product price} price

theorem improves_adviceOn {storeHasHistory : Bool} {entry : Product × DemandForecast}
    {advice : PriceAdvice} (h : adviceOn storeHasHistory entry = some advice) :
    Improves advice := by
  intro price hsuggested
  simp only [adviceOn] at h
  split_ifs at h with hsold hbelow hthin hslow
  · cases h
    obtain rfl : _ = price := Option.some.inj hsuggested
    exact ⟨lt_priceForMargin_of_belowCost hbelow.1 hbelow.2, isLeast_priceForMargin hbelow.1⟩
  · cases h
    obtain rfl : _ = price := Option.some.inj hsuggested
    have hprice : 0 < entry.1.sellingPrice := by
      simp only [Bool.or_eq_true, decide_eq_true_eq, not_or, not_le] at hsold
      exact hsold.2
    exact ⟨lt_priceForMargin_of_extra hthin.1 hthin.2.2,
      isLeast_priceForMargin (costPrice_pos_of_thin hprice hthin.2.1)⟩
  · cases h
    cases hsuggested

theorem product_adviceOn {storeHasHistory : Bool} {entry : Product × DemandForecast}
    {advice : PriceAdvice} (h : adviceOn storeHasHistory entry = some advice) :
    advice.product = entry.1 := by
  simp only [adviceOn] at h
  split_ifs at h <;> cases h <;> rfl

/-- What sells below its cost is advised as that. -/
theorem adviceOn_belowCost (storeHasHistory : Bool) {entry : Product × DemandForecast}
    (hactive : entry.1.isActive = true) (hprice : 0 < entry.1.sellingPrice)
    (hbelow : entry.1.sellingPrice < entry.1.costPrice) :
    ∃ advice, adviceOn storeHasHistory entry = some advice ∧ advice.issue = .belowCost := by
  have hsold : ¬ (!entry.1.isActive || decide (entry.1.sellingPrice ≤ 0)) = true := by
    simp [hactive, hprice]
  simp only [adviceOn, if_neg hsold, if_pos (And.intro (hprice.trans hbelow) hbelow)]
  exact ⟨_, rfl, rfl⟩

/-- What the advice before the cut promises. -/
structure Sound (catalogue : List (Product × DemandForecast)) (advice : List PriceAdvice) :
    Prop where
  /-- No suggestion is a worse price. -/
  improves : ∀ a ∈ advice, Improves a
  /-- What sells below its cost is advised as that. -/
  below_cost : ∀ entry ∈ catalogue, entry.1.isActive = true → 0 < entry.1.sellingPrice →
    entry.1.sellingPrice < entry.1.costPrice →
      ∃ a ∈ advice, a.product = entry.1 ∧ a.issue = .belowCost
  /-- No entry is advised twice. -/
  once : (advice.map (·.product)).Subperm (catalogue.map (·.1))
  /-- By issue, and within one issue what adds the most first. -/
  ordered : advice.Pairwise fun a b => a.issue.index < b.issue.index ∨
    a.issue.index = b.issue.index ∧ b.extraPerMonth ≤ a.extraPerMonth

/-- Products are advised on as they come up in the catalogue. -/
theorem sublist_advice (storeHasHistory : Bool) (catalogue : List (Product × DemandForecast)) :
    ((catalogue.filterMap (adviceOn storeHasHistory)).map (·.product)).Sublist
      (catalogue.map (·.1)) := by
  induction catalogue with
  | nil => exact .slnil
  | cons entry catalogue ih =>
    cases hadvice : adviceOn storeHasHistory entry with
    | none =>
      rw [List.filterMap_cons_none hadvice, List.map_cons]
      exact ih.cons _
    | some advice =>
      rw [List.filterMap_cons_some hadvice, List.map_cons, List.map_cons,
        product_adviceOn hadvice]
      exact ih.cons_cons _

theorem le_mostValuable {a b : PriceAdvice} (h : mostValuable b ≤ mostValuable a) :
    a.issue.index < b.issue.index ∨
      a.issue.index = b.issue.index ∧ b.extraPerMonth ≤ a.extraPerMonth := by
  rcases Prod.Lex.toLex_le_toLex.1 h with hlt | ⟨heq, hle⟩
  · exact .inl hlt
  · exact .inr ⟨(OrderDual.toDual.injective heq).symm, hle⟩

theorem length_suggestPrices {byValue : Arrangement mostValuable} {storeHasHistory : Bool}
    {catalogue : List (Product × DemandForecast)} {limit : ℤ} :
    ∀ shown ∈ suggestPrices byValue storeHasHistory catalogue limit,
      (shown.length : ℤ) ≤ limit := by
  intro shown hshown
  rw [Option.mem_def, suggestPrices] at hshown
  split_ifs at hshown with hlimit
  cases hshown
  have hlength := List.length_take_le limit.toNat (allPrices byValue storeHasHistory catalogue)
  omega

/-- No advice suggests a worse price, whatever the sort does with equals. -/
theorem prices_sound (byValue : Arrangement mostValuable) (storeHasHistory : Bool)
    (catalogue : List (Product × DemandForecast)) :
    ∃ advice, Sound catalogue advice ∧ ∀ limit : ℤ,
      suggestPrices byValue storeHasHistory catalogue limit =
          (if limit < 0 then none else some (advice.take limit.toNat)) ∧
        ∀ shown ∈ suggestPrices byValue storeHasHistory catalogue limit,
          (shown.length : ℤ) ≤ limit := by
  have hperm := byValue.perm (catalogue.filterMap (adviceOn storeHasHistory))
  refine ⟨allPrices byValue storeHasHistory catalogue, ⟨?_, ?_, ?_, ?_⟩,
    fun limit => ⟨rfl, length_suggestPrices⟩⟩
  · intro a ha
    obtain ⟨entry, -, hadvice⟩ := List.mem_filterMap.1 (hperm.mem_iff.1 ha)
    exact improves_adviceOn hadvice
  · intro entry hentry hactive hprice hbelow
    obtain ⟨a, hadvice, hissue⟩ := adviceOn_belowCost storeHasHistory hactive hprice hbelow
    exact ⟨a, hperm.mem_iff.2 (List.mem_filterMap.2 ⟨entry, hentry, hadvice⟩),
      product_adviceOn hadvice, hissue⟩
  · exact (hperm.map _).subperm.trans (sublist_advice storeHasHistory catalogue).subperm
  · exact (byValue.ranked _).imp le_mostValuable

end Kitaza.PriceAdvisor
