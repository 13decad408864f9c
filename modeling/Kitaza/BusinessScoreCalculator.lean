import Kitaza.BusinessScore
import Kitaza.Rounding

/-!
# The health rating on the phone

The offline twin of the server's rating: the same four signals with the same
weights, the reasons typed instead of told. The two agree unless a profit is
exactly half a percent above an even margin, which the server rounds down to
the even percentage and the phone rounds up.
-/

namespace Kitaza.BusinessScoreCalculator

open Primitives Rounding BusinessScore

/-- One reason behind a health rating. -/
inductive HealthReason where
  | profitEarned (amount : Money)
  | spentMoreThanSold (amount : Money)
  | healthyMargin (percent : ℤ)
  | thinMargin (percent : ℤ)
  | veryThinMargin (percent : ℤ)
  | profitUp
  | profitDown
  | withdrewMoreThanProfit (amount : Money)
  | needsRestock (count : ℕ)
  deriving DecidableEq, Repr

/-- A rating with its reasons, as the phone keeps it. -/
structure PhoneHealth where
  /-- The light. -/
  rating : HealthRating
  /-- Out of 100. -/
  score : ℤ
  /-- Why. -/
  reasons : List HealthReason
  /-- A store with no sales yet is not judged at all. -/
  hasSales : Bool
  deriving DecidableEq, Repr

/-- The rating of a store with no sales yet. -/
def unknown : PhoneHealth := ⟨.yellow, 50, [], false⟩

/-- The margin that is healthy. -/
def healthyMarginPercent : ℤ := 15

/-- The margin that is thin. -/
def thinMarginPercent : ℤ := 5

/-- What a signal adds to the score, and why. -/
abbrev TypedSignal := ℤ × List HealthReason

/-- Is there a profit? -/
def profitReason (inputs : HealthInputs) : TypedSignal :=
  if 0 < inputs.netProfit then (25, [.profitEarned inputs.netProfit])
  else (-30, [.spentMoreThanSold (-inputs.netProfit)])

/-- Is a margin healthy? -/
def judge (margin : ℤ) : TypedSignal :=
  if healthyMarginPercent ≤ margin then (15, [.healthyMargin margin])
  else if thinMarginPercent ≤ margin then (0, [.thinMargin margin])
  else if 0 < margin then (-10, [.veryThinMargin margin])
  else (0, [])

/-- The share of sales that is profit. -/
def margin (inputs : HealthInputs) : ℤ := roundHalfAway (inputs.netProfit / inputs.salesTotal * 100)

/-- Is the margin healthy? -/
def marginReason (inputs : HealthInputs) : TypedSignal := judge (margin inputs)

/-- Is it better than before? -/
def trendReason (inputs : HealthInputs) : TypedSignal :=
  if inputs.previousNetProfit = 0 then (0, [])
  else if inputs.previousNetProfit < inputs.netProfit then (10, [.profitUp])
  else if inputs.netProfit < inputs.previousNetProfit then (-10, [.profitDown])
  else (0, [])

/-- Is more taken out than earned? -/
def withdrawalReason (inputs : HealthInputs) : TypedSignal :=
  if inputs.netProfit < inputs.withdrawalsTotal ∧ 0 < inputs.withdrawalsTotal then
    (-15, [.withdrewMoreThanProfit inputs.withdrawalsTotal])
  else (0, [])

/-- Is stock running low? -/
def stockReason (inputs : HealthInputs) : TypedSignal :=
  if 0 < inputs.lowStockCount then (-5, [.needsRestock inputs.lowStockCount]) else (0, [])

/-- The signals, in the order they are kept. -/
def typedSignals (inputs : HealthInputs) : List TypedSignal :=
  [profitReason inputs, marginReason inputs, trendReason inputs, withdrawalReason inputs,
    stockReason inputs]

/-- Score a business on the phone. -/
def evaluate (inputs : HealthInputs) : PhoneHealth :=
  if inputs.salesTotal ≤ 0 then unknown
  else
    let score := max 0 (min 100 (50 + ((typedSignals inputs).map Prod.fst).sum))
    { rating := if 70 ≤ score then .green else if 40 ≤ score then .yellow else .red
      score := score
      reasons := (typedSignals inputs).flatMap Prod.snd
      hasSales := true }

/-- What a screen gives as a reason. -/
inductive Told where
  | noSales
  | because (reason : HealthReason)
  deriving DecidableEq, Repr

/-- The reasons a screen gives for a rating. -/
def healthReasons (health : PhoneHealth) : List Told :=
  if health.hasSales then health.reasons.map .because else [.noSales]

/-- The server's words for a reason. -/
def sentence : HealthReason → String
  | .profitEarned amount => "You earned a profit of " ++ peso amount ++ "."
  | .spentMoreThanSold amount => "You spent " ++ pesoNegated (-amount) ++ " more than you sold."
  | .healthyMargin percent => "Healthy margin: " ++ toString percent ++ "% of sales is profit."
  | .thinMargin percent => "Thin margin: only " ++ toString percent ++ "% of sales is profit."
  | .veryThinMargin percent => "Very thin margin: " ++ toString percent ++ "% of sales is profit."
  | .profitUp => "Profit is higher than the previous period."
  | .profitDown => "Profit is lower than the previous period."
  | .withdrewMoreThanProfit amount =>
    "You withdrew " ++ peso amount ++ ", more than the profit you made."
  | .needsRestock count => toString count ++ " product(s) need restocking."

/-- The server's words for what a screen gives as a reason. -/
def Told.sentence : Told → String
  | .noSales => "Record your first sale to see how your store is doing."
  | .because reason => BusinessScoreCalculator.sentence reason

/-- The two ratings have the same score, the same light and the same reasons,
with the same figures. -/
structure Agrees (inputs : HealthInputs) : Prop where
  /-- The scores. -/
  score : (BusinessScore.evaluate inputs).score = (evaluate inputs).score
  /-- The lights. -/
  rating : (BusinessScore.evaluate inputs).rating = (evaluate inputs).rating
  /-- The reasons. -/
  reasons : (BusinessScore.evaluate inputs).reasons =
    (healthReasons (evaluate inputs)).map Told.sentence

/-- The profit is half a percent of the sales above an even percentage. -/
def OnATie (inputs : HealthInputs) : Prop :=
  0 < inputs.netProfit ∧ EvenHalf (inputs.netProfit / inputs.salesTotal * 100)

instance (inputs : HealthInputs) : Decidable (OnATie inputs) := inferInstanceAs (Decidable (_ ∧ _))

/-- A typed signal, told. -/
def tell (s : TypedSignal) : Signal := (s.1, s.2.map sentence)

section

variable (inputs : HealthInputs)

/-- Where there is a profit or not, both say so alike. -/
theorem profitSignal_eq : profitSignal inputs = tell (profitReason inputs) := by
  unfold profitSignal profitReason
  split_ifs
  · rfl
  · have htext : sentence (.spentMoreThanSold (-inputs.netProfit)) =
        "You spent " ++ pesoNegated inputs.netProfit ++ " more than you sold." :=
      congrArg (fun amount => "You spent " ++ pesoNegated amount ++ " more than you sold.")
        (neg_neg _)
    exact congrArg (fun text => (-30, [text])) htext.symm

theorem trendSignal_eq : trendSignal inputs = tell (trendReason inputs) := by
  unfold trendSignal trendReason
  split_ifs <;> rfl

theorem withdrawalSignal_eq : withdrawalSignal inputs = tell (withdrawalReason inputs) := by
  unfold withdrawalSignal withdrawalReason
  split_ifs <;> rfl

theorem stockSignal_eq : stockSignal inputs = tell (stockReason inputs) := by
  unfold stockSignal stockReason
  split_ifs <;> rfl

end

section

variable {inputs : HealthInputs}

/-- Nothing is said of margins that are not positive. -/
theorem roundHalfEven_nonpos {x : ℚ} (h : x ≤ 0) : roundHalfEven x ≤ 0 := by
  have hfloor : x.floor = ⌊x⌋ := rfl
  have hle := Int.floor_le x
  have hlt := Int.lt_floor_add_one x
  have hnonpos : ⌊x⌋ ≤ 0 := by
    exact_mod_cast hle.trans h
  rw [roundHalfEven, hfloor]
  split_ifs with h1 h2 h3
  · exact hnonpos
  · have hneg : ((⌊x⌋ : ℤ) : ℚ) < 0 := by linarith
    have hneg' : ⌊x⌋ < 0 := by exact_mod_cast hneg
    omega
  · exact hnonpos
  · omega

theorem roundHalfAway_nonpos {x : ℚ} (h : x ≤ 0) : roundHalfAway x ≤ 0 := by
  rw [roundHalfAway]
  split_ifs with h0
  · obtain rfl : x = 0 := le_antisymm h h0
    norm_num
  · rw [neg_nonpos, Int.floor_nonneg]
    linarith

/-- Both judge a margin by the same bounds. -/
theorem marginSignal_eq : marginSignal inputs =
    tell (judge (marginPercent inputs.netProfit inputs.salesTotal)) := by
  unfold marginSignal judge HEALTHY_MARGIN_PERCENT THIN_MARGIN_PERCENT healthyMarginPercent
    thinMarginPercent
  dsimp only
  split_ifs <;> rfl

/-- Nothing is said of a margin that is not positive. -/
theorem judge_of_nonpos {n : ℤ} (h : n ≤ 0) : judge n = (0, []) := by
  rw [judge, healthyMarginPercent, thinMarginPercent, if_neg (by omega), if_neg (by omega),
    if_neg (by omega)]

/-- The server's signals are the phone's, told, but for how the margin is
rounded. -/
theorem signals_eq : signals inputs = [profitReason inputs,
    judge (marginPercent inputs.netProfit inputs.salesTotal), trendReason inputs,
    withdrawalReason inputs, stockReason inputs].map tell := by
  rw [signals, profitSignal_eq, marginSignal_eq, trendSignal_eq, withdrawalSignal_eq,
    stockSignal_eq]
  rfl

/-- What is told of signals is the sentences of their reasons. -/
theorem told_map (s : List TypedSignal) :
    ((s.map tell).map Prod.fst).sum = (s.map Prod.fst).sum ∧
      (s.map tell).flatMap Prod.snd = (s.flatMap Prod.snd).map sentence := by
  rw [List.map_map, List.map_flatMap, List.flatMap_map]
  exact ⟨rfl, rfl⟩

/-- With margins judged alike, everything is. -/
theorem agrees_of_judge (hsales : 0 ≤ inputs.salesTotal)
    (h : judge (marginPercent inputs.netProfit inputs.salesTotal) = marginReason inputs) :
    Agrees inputs := by
  by_cases hzero : inputs.salesTotal = 0
  · have hphone : evaluate inputs = unknown := if_pos hzero.le
    refine ⟨?_, ?_, ?_⟩
    · rw [hphone, BusinessScore.evaluate, if_pos hzero]
      rfl
    · rw [hphone, BusinessScore.evaluate, if_pos hzero]
      rfl
    · rw [hphone, BusinessScore.evaluate, if_pos hzero]
      rfl
  · have hpos : ¬inputs.salesTotal ≤ 0 := fun hle => hzero (le_antisymm hle hsales)
    have hsignals : signals inputs = (typedSignals inputs).map tell := by
      rw [signals_eq, h]
      rfl
    obtain ⟨hsum, htold⟩ := told_map (typedSignals inputs)
    refine ⟨?_, ?_, ?_⟩
    · simp only [BusinessScore.evaluate, if_neg hzero, evaluate, if_neg hpos, hsignals, hsum]
    · simp only [BusinessScore.evaluate, if_neg hzero, evaluate, if_neg hpos, hsignals, hsum,
        ratingOf]
    · simp only [BusinessScore.evaluate, if_neg hzero, evaluate, if_neg hpos, hsignals, htold,
        healthReasons, if_true, List.map_map]
      rfl

/-- How far the other signals move the score. -/
theorem others_bounds : -30 ≤ (trendReason inputs).1 + (withdrawalReason inputs).1 +
      (stockReason inputs).1 ∧
    (trendReason inputs).1 + (withdrawalReason inputs).1 + (stockReason inputs).1 ≤ 10 := by
  have htrend : -10 ≤ (trendReason inputs).1 ∧ (trendReason inputs).1 ≤ 10 := by
    unfold trendReason
    split_ifs <;> exact ⟨by norm_num, by norm_num⟩
  have hwithdrawal : -15 ≤ (withdrawalReason inputs).1 ∧ (withdrawalReason inputs).1 ≤ 0 := by
    unfold withdrawalReason
    split_ifs <;> exact ⟨by norm_num, by norm_num⟩
  have hstock : -5 ≤ (stockReason inputs).1 ∧ (stockReason inputs).1 ≤ 0 := by
    unfold stockReason
    split_ifs <;> exact ⟨by norm_num, by norm_num⟩
  omega

theorem judge_bounds (n : ℤ) : -10 ≤ (judge n).1 ∧ (judge n).1 ≤ 15 := by
  unfold judge
  split_ifs <;> exact ⟨by norm_num, by norm_num⟩

/-- Percentages told alike are the same. -/
theorem percent_injective {m n : ℤ} (hm : 0 ≤ m) (hn : 0 ≤ n)
    (h : toString m = toString n) : m = n := by
  obtain ⟨a, rfl⟩ := Int.eq_ofNat_of_zero_le hm
  obtain ⟨b, rfl⟩ := Int.eq_ofNat_of_zero_le hn
  have htext : Uuid.text ⟨a⟩ = Uuid.text ⟨b⟩ := h
  have hid := Uuid.text_injective htext
  cases hid
  rfl

/-- A positive margin and the next one are never judged alike, with the same
words. -/
theorem tell_judge_ne_succ {n : ℤ} (h : 0 ≤ n) : tell (judge n) ≠ tell (judge (n + 1)) := by
  intro heq
  have hscore : (tell (judge n)).1 = (tell (judge (n + 1))).1 := by rw [heq]
  have htold : (tell (judge n)).2 = (tell (judge (n + 1))).2 := by rw [heq]
  have htext : ∀ a b : String, a ++ toString n ++ b ≠ a ++ toString (n + 1) ++ b := by
    intro a b hab
    have hmid := String.append_right_inj _ |>.mp (String.append_left_inj _ |>.mp hab)
    have hsame := percent_injective h (by omega) hmid
    omega
  unfold judge healthyMarginPercent thinMarginPercent at hscore htold
  by_cases hhealthy : 15 ≤ n
  · rw [if_pos hhealthy, if_pos (by omega)] at htold
    exact htext "Healthy margin: " "% of sales is profit." (List.cons.inj htold).1
  · rw [if_neg hhealthy] at hscore htold
    by_cases hnext : 15 ≤ n + 1
    · rw [if_pos (by omega), if_pos hnext] at hscore
      norm_num [tell] at hscore
    · rw [if_neg hnext] at hscore htold
      by_cases hthin : 5 ≤ n
      · rw [if_pos hthin, if_pos (by omega)] at htold
        exact htext "Thin margin: only " "% of sales is profit." (List.cons.inj htold).1
      · rw [if_neg hthin] at hscore htold
        by_cases hthinNext : 5 ≤ n + 1
        · rw [if_pos (by omega), if_pos hthinNext] at hscore
          norm_num [tell] at hscore
        · rw [if_neg hthinNext] at hscore htold
          rw [if_pos (by omega : 0 < n + 1)] at hscore htold
          by_cases hsome : 0 < n
          · rw [if_pos hsome] at htold
            exact htext "Very thin margin: " "% of sales is profit." (List.cons.inj htold).1
          · rw [if_neg hsome] at hscore
            norm_num [tell] at hscore

/-- The lists of reasons tell what the second signal told, if each begins
with one reason for the profit. -/
theorem second_eq {a : String} {b c rest : List String} {x y : ℤ} (hx : x = y)
    (h : a :: (b ++ rest) = a :: (c ++ rest)) : ((x, b) : Signal) = (y, c) := by
  rw [hx, List.append_cancel_right (List.cons.inj h).2]

/-- Where the two margins differ the ratings do. -/
theorem not_agrees_of_succ (hsales : 0 < inputs.salesTotal) (hprofit : 0 < inputs.netProfit)
    (hserver : 0 ≤ marginPercent inputs.netProfit inputs.salesTotal)
    (hphone : margin inputs = marginPercent inputs.netProfit inputs.salesTotal + 1) :
    ¬Agrees inputs := by
  rintro ⟨hscore, -, hreasons⟩
  have hprofitReason : profitReason inputs = (25, [.profitEarned inputs.netProfit]) := if_pos hprofit
  have hothers := @others_bounds inputs
  have hjudge := judge_bounds (marginPercent inputs.netProfit inputs.salesTotal)
  have hjudge' := judge_bounds (margin inputs)
  simp only [BusinessScore.evaluate, if_neg hsales.ne', evaluate, if_neg hsales.not_ge, signals_eq,
    typedSignals, hprofitReason, marginReason, List.map_cons, List.map_nil, List.sum_cons,
    List.sum_nil, tell] at hscore
  have hsame : (judge (marginPercent inputs.netProfit inputs.salesTotal)).1 =
      (judge (margin inputs)).1 := by
    omega
  simp only [BusinessScore.evaluate, if_neg hsales.ne', evaluate, if_neg hsales.not_ge, signals_eq,
    typedSignals, hprofitReason, marginReason, healthReasons, if_true, List.map_cons,
    List.map_nil, List.flatMap_cons, List.flatMap_nil, List.map_append, List.map_map, tell,
    List.append_nil, List.cons_append, List.nil_append] at hreasons
  apply tell_judge_ne_succ hserver
  rw [← hphone]
  exact second_eq hsame hreasons

end

/-- The health ratings of the server and of the phone agree exactly where a
profit is not half a percent of the sales above an even percentage. -/
theorem scores_agree_iff (inputs : HealthInputs) (hsales : 0 ≤ inputs.salesTotal) :
    Agrees inputs ↔ ¬OnATie inputs := by
  set x := inputs.netProfit / inputs.salesTotal * 100 with hx
  by_cases hzero : inputs.salesTotal = 0
  · have hno : ¬OnATie inputs := by
      rintro ⟨-, hfract, -⟩
      rw [hzero, div_zero, zero_mul, Int.fract_zero] at hfract
      norm_num at hfract
    refine iff_of_true (agrees_of_judge hsales ?_) hno
    rw [marginReason, margin, marginPercent, if_pos hzero, hzero, div_zero, zero_mul,
      judge_of_nonpos le_rfl, judge_of_nonpos (roundHalfAway_nonpos le_rfl)]
  · have hpos : 0 < inputs.salesTotal := lt_of_le_of_ne hsales (Ne.symm hzero)
    have hserver : marginPercent inputs.netProfit inputs.salesTotal = roundHalfEven x := if_neg hzero
    have hphone : margin inputs = roundHalfAway x := rfl
    by_cases hprofit : 0 < inputs.netProfit
    · have hxpos : 0 ≤ x := by positivity
      constructor
      · rintro hagrees ⟨-, htie⟩
        have heven := roundHalfEven_eq hxpos
        rw [if_pos htie] at heven
        have haway : 0 < roundHalfAway x := by
          apply roundHalfAway_pos
          have hwhole : (0 : ℚ) ≤ ⌊x⌋ := by exact_mod_cast Int.floor_nonneg.mpr hxpos
          have hsplit := Int.floor_add_fract x
          rw [htie.1] at hsplit
          linarith
        exact not_agrees_of_succ hpos hprofit (by omega) (by omega) hagrees
      · intro hno
        apply agrees_of_judge hsales
        rw [marginReason, hphone, hserver,
          (roundHalfEven_eq_away_iff hxpos).mpr fun htie => hno ⟨hprofit, htie⟩]
    · have hxneg : x ≤ 0 := by
        apply mul_nonpos_of_nonpos_of_nonneg _ (by norm_num)
        exact div_nonpos_of_nonpos_of_nonneg (not_lt.mp hprofit) hsales
      refine iff_of_true (agrees_of_judge hsales ?_) fun htie => hprofit htie.1
      rw [marginReason, hphone, hserver, judge_of_nonpos (roundHalfEven_nonpos hxneg),
        judge_of_nonpos (roundHalfAway_nonpos hxneg)]

/-- A fifth of sales as profit is judged alike. -/
theorem scores_agree_fifth : Agrees ⟨10000, 2000, 1500, 0, 0⟩ :=
  (scores_agree_iff ⟨10000, 2000, 1500, 0, 0⟩ (by norm_num)).mpr (by decide +kernel)

/-- A profit of one peso on sales of two hundred is half a percent: the
server rounds it to none and the phone to one. -/
theorem half_percent_differs : ¬Agrees ⟨200, 1, 0, 0, 0⟩ ∧
    (BusinessScore.evaluate ⟨200, 1, 0, 0, 0⟩).rating = .green ∧
    (evaluate ⟨200, 1, 0, 0, 0⟩).rating = .yellow := by
  have hserver : (BusinessScore.evaluate ⟨200, 1, 0, 0, 0⟩).rating = .green := by decide +kernel
  have hphone : (evaluate ⟨200, 1, 0, 0, 0⟩).rating = .yellow := by decide +kernel
  refine ⟨fun hagrees => ?_, hserver, hphone⟩
  have hsame := hagrees.rating
  rw [hserver, hphone] at hsame
  cases hsame

end Kitaza.BusinessScoreCalculator
