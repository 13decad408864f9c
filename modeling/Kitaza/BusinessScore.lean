import Kitaza.Primitives

/-!
# The health rating of a business

A score out of 100 from four signals: profit, margin, trend, and what the
owner takes out; with the reasons in words.
-/

namespace Kitaza.BusinessScore

open Primitives

/-- A traffic-light rating. -/
inductive HealthRating where
  | green
  | yellow
  | red
  deriving DecidableEq, Repr

/-- A rating with its reasons. -/
structure BusinessHealth where
  /-- The light. -/
  rating : HealthRating
  /-- Out of 100. -/
  score : ℤ
  /-- One line. -/
  headline : String
  /-- Why. -/
  reasons : List String
  deriving DecidableEq, Repr

/-- What a rating looks at. -/
structure HealthInputs where
  /-- What was sold. -/
  salesTotal : Money
  /-- What was left after costs and expenses. -/
  netProfit : Money
  /-- The same in the window before. -/
  previousNetProfit : Money
  /-- What the owner took out. -/
  withdrawalsTotal : Money
  /-- Products to restock. -/
  lowStockCount : ℕ
  deriving DecidableEq, Repr

/-- The margin that is healthy. -/
def HEALTHY_MARGIN_PERCENT : ℤ := 15

/-- The margin that is thin. -/
def THIN_MARGIN_PERCENT : ℤ := 5

/-- Two digits of a number below a hundred. -/
def twoDigits (n : ℕ) : String := if n < 10 then "0" ++ toString n else toString n

/-- An amount in words; amounts have two decimals. -/
def peso (amount : Money) : String :=
  let centavos := (|amount| * 100).floor.toNat
  "PHP " ++ (if amount < 0 then "-" else "") ++ toString (centavos / 100) ++ "." ++
    twoDigits (centavos % 100)

/-- A negated amount in words; a zero that is negated has a sign. -/
def pesoNegated (amount : Money) : String :=
  if amount = 0 then "PHP -0.00" else peso (-amount)

/-- The share of sales that is profit. -/
def marginPercent (netProfit salesTotal : Money) : ℤ :=
  if salesTotal = 0 then 0 else roundHalfEven (netProfit / salesTotal * 100)

/-- The line for a rating. -/
def headlineFor : HealthRating → String
  | .green => "Your store is doing well"
  | .yellow => "Keep an eye on your numbers"
  | .red => "Your store needs attention"

/-- What a signal adds to the score, and says. -/
abbrev Signal := ℤ × List String

/-- Is there a profit? -/
def profitSignal (inputs : HealthInputs) : Signal :=
  if 0 < inputs.netProfit then (25, ["You earned a profit of " ++ peso inputs.netProfit ++ "."])
  else (-30, ["You spent " ++ pesoNegated inputs.netProfit ++ " more than you sold."])

/-- Is the margin healthy? -/
def marginSignal (inputs : HealthInputs) : Signal :=
  let margin := marginPercent inputs.netProfit inputs.salesTotal
  if HEALTHY_MARGIN_PERCENT ≤ margin then
    (15, ["Healthy margin: " ++ toString margin ++ "% of sales is profit."])
  else if THIN_MARGIN_PERCENT ≤ margin then
    (0, ["Thin margin: only " ++ toString margin ++ "% of sales is profit."])
  else if 0 < margin then
    (-10, ["Very thin margin: " ++ toString margin ++ "% of sales is profit."])
  else (0, [])

/-- Is it better than before? -/
def trendSignal (inputs : HealthInputs) : Signal :=
  if inputs.previousNetProfit = 0 then (0, [])
  else if inputs.previousNetProfit < inputs.netProfit then
    (10, ["Profit is higher than the previous period."])
  else if inputs.netProfit < inputs.previousNetProfit then
    (-10, ["Profit is lower than the previous period."])
  else (0, [])

/-- Is more taken out than earned? -/
def withdrawalSignal (inputs : HealthInputs) : Signal :=
  if inputs.netProfit < inputs.withdrawalsTotal ∧ 0 < inputs.withdrawalsTotal then
    (-15, ["You withdrew " ++ peso inputs.withdrawalsTotal ++ ", more than the profit you made."])
  else (0, [])

/-- Is stock running low? -/
def stockSignal (inputs : HealthInputs) : Signal :=
  if 0 < inputs.lowStockCount then
    (-5, [toString inputs.lowStockCount ++ " product(s) need restocking."])
  else (0, [])

/-- The signals, in the order they are told. -/
def signals (inputs : HealthInputs) : List Signal :=
  [profitSignal inputs, marginSignal inputs, trendSignal inputs, withdrawalSignal inputs,
    stockSignal inputs]

/-- The rating of a score. -/
def ratingOf (score : ℤ) : HealthRating :=
  if 70 ≤ score then .green
  else if 40 ≤ score then .yellow
  else .red

/-- Score a business. -/
def evaluate (inputs : HealthInputs) : BusinessHealth :=
  if inputs.salesTotal = 0 then
    { rating := .yellow
      score := 50
      headline := "No sales recorded yet"
      reasons := ["Record your first sale to see how your store is doing."] }
  else
    let score := max 0 (min 100 (50 + ((signals inputs).map Prod.fst).sum))
    { rating := ratingOf score
      score := score
      headline := headlineFor (ratingOf score)
      reasons := (signals inputs).flatMap Prod.snd }

/-- A store without sales is not judged, and one that breaks even is told that it
spent a negative nothing. -/
example : (evaluate ⟨0, 2000, 1500, 0, 0⟩).rating = .yellow ∧
    (evaluate ⟨100, 0, 0, 0, 0⟩).reasons = ["You spent PHP -0.00 more than you sold."] := by
  decide +kernel

end Kitaza.BusinessScore
