import Kitaza.Rounding
import Kitaza.TopRanked
import Mathlib.Tactic.MkIffOfInductiveProp

/-!
# Unusual expenses

Spending at least two and a half times its category's average is pointed out,
the worst five. The server goes through the categories in the order of a hash
map and the phone sorts by a method that may swap equals, so what is pointed
out is settled by the expenses alone exactly when a tie is between expenses that
five others come before. The server divides decimals and the phone doubles, so
this holds of expenses that what is rounded on the way cannot move.
-/

namespace Kitaza.UnusualExpenses

open Primitives FloatRounding Rounding TopRanked

/-- A past expense. -/
structure ExpenseSample where
  /-- What it was for. -/
  category : String
  /-- How much. -/
  amount : Money
  /-- A note. -/
  description : Option String
  /-- When. -/
  occurredAt : Timestamp
  deriving DecidableEq, Repr

/-- An expense that is pointed out. -/
structure UnusualExpense where
  /-- The expense. -/
  expense : ExpenseSample
  /-- What its category costs on average. -/
  categoryAverage : Money
  /-- How many times that it is. -/
  timesAboveAverage : ℚ
  deriving DecidableEq, Repr

/-- The arithmetic of decimals, as far as it rounds. -/
structure Arithmetic where
  /-- Decimals added up. -/
  sum : List ℚ → ℚ
  /-- A quotient of decimals. -/
  quotient : ℚ → ℚ → ℚ
  /-- A decimal as a double. -/
  toF64 : ℚ → ℚ

/-- An amount in whole centavos. -/
def Centavos (x : ℚ) : Prop := 0 < x ∧ (x * 100).den = 1

instance (x : ℚ) : Decidable (Centavos x) := inferInstanceAs (Decidable (_ ∧ _))

/-- A decimal of up to so many digits. -/
def Digits (d : ℕ) (x : ℚ) : Prop :=
  ∃ s < d + 1, (x * 10 ^ s).den = 1 ∧ |x * 10 ^ s| < 10 ^ d

instance (d : ℕ) (x : ℚ) : Decidable (Digits d x) :=
  inferInstanceAs (Decidable (∃ s < d + 1, _))

/-- A total that decimals hold to the centavo with digits to spare. -/
def LARGEST_TOTAL : ℚ := 10 ^ 24

/-- What is documented of decimals. A sum of amounts is exact. A quotient has 28
digits, or 28 places where it is below one, and is exact where these are enough.
The double of a decimal is a few last places off at most, and is the nearest one
for up to fifteen digits. -/
structure Lawful (a : Arithmetic) : Prop where
  /-- Sums are exact. -/
  sum : ∀ l : List ℚ, (∀ x ∈ l, Centavos x) → l.sum ≤ LARGEST_TOTAL → a.sum l = l.sum
  /-- Quotients are close. -/
  quotient : ∀ x y : ℚ, 0 ≤ x → 0 < y → x / y ≤ 10 ^ 27 →
    |a.quotient x y - x / y| ≤ max 1 (x / y) / 10 ^ 27
  /-- Short quotients are exact. -/
  quotientKept : ∀ x y : ℚ, 0 < y → Digits 28 (x / y) → a.quotient x y = x / y
  /-- Doubles are close. -/
  toF64 : ∀ x : ℚ, |a.toF64 x - x| ≤ |x| / 2 ^ 48
  /-- Doubles of short decimals are the nearest. -/
  toF64Kept : ∀ x : ℚ, Digits 15 x → a.toF64 x = double x

/-- How many times its category's average an expense has to be. -/
def OUTLIER_MULTIPLIER : ℚ := 5 / 2

/-- How many entries a category has to have. -/
def MINIMUM_SAMPLES : ℕ := 4

/-- How many are pointed out. -/
def MAX_FLAGGED : ℕ := 5

/-- The expenses of a category. -/
def byCategory (samples : List ExpenseSample) (category : String) : List ExpenseSample :=
  samples.filter (·.category = category)

/-- The categories, in the order they come up. -/
def categories (samples : List ExpenseSample) : List String :=
  (samples.map (·.category)).eraseDups

section

variable (a : Arithmetic)

/-- The average, on the server. -/
def mean (entries : List ExpenseSample) : Money :=
  a.quotient (a.sum (entries.map (·.amount))) entries.length

/-- How many times the average, on the server. -/
def ratioOf (amount average : Money) : ℚ := a.toF64 (a.quotient amount average)

/-- Does the server point out an expense? -/
def flagEntry (average : Money) (entry : ExpenseSample) : Option UnusualExpense :=
  let ratio := ratioOf a entry.amount average
  if ratio < OUTLIER_MULTIPLIER then none
  else some ⟨entry, roundDp 2 average, double (roundHalfAway (double (ratio * 10)) / 10)⟩

/-- What the server points out in a category. -/
def flagCategory (entries : List ExpenseSample) : List UnusualExpense :=
  if entries.length < MINIMUM_SAMPLES then []
  else
    let average := mean a entries
    if average = 0 then [] else entries.filterMap (flagEntry a average)

/-- What the server points out, its hash map gone through in an order. -/
def detectUnusualExpenses (order : List String) (samples : List ExpenseSample) :
    List UnusualExpense :=
  let flagged := order.flatMap fun category => flagCategory a (byCategory samples category)
  (rank (·.timesAboveAverage) flagged).take MAX_FLAGGED

end

/-- The average, on the phone. -/
def phoneMean (entries : List ExpenseSample) : ℚ :=
  let total := entries.foldl (fun sum entry => double (sum + double entry.amount)) 0
  double (total / entries.length)

/-- A figure read back from a text with one decimal. -/
def toOneDecimal (ratio : ℚ) : ℚ := double (roundHalfAway (ratio * 10) / 10)

/-- Does the phone point out an expense? -/
def phoneFlagEntry (average : ℚ) (entry : ExpenseSample) : Option UnusualExpense :=
  let ratio := double (double entry.amount / average)
  if ratio < OUTLIER_MULTIPLIER then none
  else some ⟨entry, average, toOneDecimal ratio⟩

/-- What the phone points out in a category. -/
def phoneFlagCategory (entries : List ExpenseSample) : List UnusualExpense :=
  if entries.length < MINIMUM_SAMPLES then []
  else
    let average := phoneMean entries
    if average ≤ 0 then [] else entries.filterMap (phoneFlagEntry average)

/-- What the phone points out, with a method to sort by. -/
def detect (sort : List UnusualExpense → List UnusualExpense) (samples : List ExpenseSample) :
    List UnusualExpense :=
  let flagged := (categories samples).flatMap fun category =>
    phoneFlagCategory (byCategory samples category)
  (sort flagged).take MAX_FLAGGED

/-- A method to sort the worst first. Equals may be swapped. -/
structure SortsWorstFirst (sort : List UnusualExpense → List UnusualExpense) : Prop where
  /-- Nothing is lost. -/
  perm : ∀ l, (sort l).Perm l
  /-- The worst come first. -/
  ranked : ∀ l, Ranked (·.timesAboveAverage) (sort l)

/-- An expense and how many times the average it is. -/
abbrev Flag := ExpenseSample × ℚ

/-- What is pointed out, and how strongly. -/
def UnusualExpense.flag (unusual : UnusualExpense) : Flag :=
  (unusual.expense, unusual.timesAboveAverage)

/-- What a category costs on average. -/
def average (entries : List ExpenseSample) : ℚ :=
  (entries.map (·.amount)).sum / entries.length

section

variable (samples : List ExpenseSample)

/-- Is an expense unusual? It is at least two and a half times the average of
a category with four entries or more. -/
def unusual (entry : ExpenseSample) : Option Flag :=
  let entries := byCategory samples entry.category
  if MINIMUM_SAMPLES ≤ entries.length ∧ OUTLIER_MULTIPLIER * average entries ≤ entry.amount then
    some (entry, toOneDecimal (entry.amount / average entries))
  else none

/-- The worst five, ties in the order of a list. -/
def worst (arranged : List ExpenseSample) : List Flag :=
  (rank Prod.snd (arranged.filterMap (unusual samples))).take MAX_FLAGGED

/-- Server and phone point out the same, the worst five with their ties in a
fixed order, however the hash map is gone through and equals are sorted. -/
def Determined (a : Arithmetic) : Prop :=
  ∃ arranged : List ExpenseSample, arranged.Perm samples ∧
    ∀ order : List String, order.Perm (categories samples) →
    ∀ sort : List UnusualExpense → List UnusualExpense, SortsWorstFirst sort →
      (detectUnusualExpenses a order samples).map UnusualExpense.flag = worst samples arranged ∧
      (detect sort samples).map UnusualExpense.flag = worst samples arranged

/-- A tie between unusual expenses is behind five others. -/
def UntiedWorst : Prop := Untied Prod.snd MAX_FLAGGED (samples.filterMap (unusual samples))

instance : Decidable (UntiedWorst samples) := inferInstanceAs (Decidable (Untied _ _ _))

/-- A ratio is away from the limit, and what is pointed out from the halves of a
tenth. -/
def RoomAround (room ratio : ℚ) : Prop :=
  ratio * room < OUTLIER_MULTIPLIER ∨
    OUTLIER_MULTIPLIER * room < ratio ∧
      (roundHalfAway (ratio * 10) - 1 / 2 : ℚ) * room < ratio * 10 ∧
      ratio * 10 * room < (roundHalfAway (ratio * 10) + 1 / 2 : ℚ)

instance (room ratio : ℚ) : Decidable (RoomAround room ratio) :=
  inferInstanceAs (Decidable (_ ∨ _))

/-- How far what is rounded on the way can take a ratio, on either side: the
phone rounds once for each entry. -/
def room (entries : List ExpenseSample) : ℚ := slack 53 ^ (entries.length + 35)

/-- Doubles hold all there is to compute of an entry, as they do for pesos and
their quarters when the average and the ratio come out even. -/
@[mk_iff]
structure KeptByDoubles (entries : List ExpenseSample) (entry : ExpenseSample) : Prop where
  /-- The amounts. -/
  amounts : ∀ other ∈ entries, Held 53 other.amount
  /-- Their sums. -/
  sums : SumsHeld 53 0 (entries.map (·.amount))
  /-- The average. -/
  average : Held 53 (UnusualExpenses.average entries)
  /-- It is a short decimal. -/
  averageDigits : Digits 28 (UnusualExpenses.average entries)
  /-- The ratio. -/
  ratio : Held 53 (entry.amount / UnusualExpenses.average entries)
  /-- It is a short decimal. -/
  ratioDigits : Digits 15 (entry.amount / UnusualExpenses.average entries)
  /-- Its tenfold. -/
  tenfold : Held 53 (entry.amount / UnusualExpenses.average entries * 10)

instance (entries : List ExpenseSample) (entry : ExpenseSample) :
    Decidable (KeptByDoubles entries entry) :=
  decidable_of_iff _ (keptByDoubles_iff entries entry).symm

/-- What is rounded on the way moves no expense: the ratio has room around it, or
nothing is rounded. -/
def Clear : Prop :=
  ∀ entry ∈ samples, MINIMUM_SAMPLES ≤ (byCategory samples entry.category).length →
    ((byCategory samples entry.category).map (·.amount)).sum ≤ LARGEST_TOTAL ∧
      (RoomAround (room (byCategory samples entry.category))
          (entry.amount / average (byCategory samples entry.category)) ∨
        KeptByDoubles (byCategory samples entry.category) entry)

instance : Decidable (Clear samples) := inferInstanceAs (Decidable (∀ entry ∈ samples, _))

end

/-- How the server judges an entry. -/
def judge (a : Arithmetic) (entries : List ExpenseSample) (entry : ExpenseSample) :
    Option UnusualExpense :=
  if entries.length < MINIMUM_SAMPLES then none
  else if mean a entries = 0 then none
  else flagEntry a (mean a entries) entry

/-- How the phone judges an entry. -/
def phoneJudge (entries : List ExpenseSample) (entry : ExpenseSample) : Option UnusualExpense :=
  if entries.length < MINIMUM_SAMPLES then none
  else if phoneMean entries ≤ 0 then none
  else phoneFlagEntry (phoneMean entries) entry

/-- What is pointed out of an entry by its ratio and the tenfold of it. -/
def shown (entry : ExpenseSample) (ratio tenfold : ℚ) : Option Flag :=
  if ratio < OUTLIER_MULTIPLIER then none
  else some (entry, double (roundHalfAway tenfold / 10))

section

variable {a : Arithmetic} {samples : List ExpenseSample}

/-- Giving up on a category gives up on each of its entries. -/
theorem filterMap_gated {p q : Prop} [Decidable p] [Decidable q]
    (f : ExpenseSample → Option UnusualExpense) (entries : List ExpenseSample) :
    (if p then [] else if q then [] else entries.filterMap f) =
      entries.filterMap fun entry => if p then none else if q then none else f entry := by
  by_cases hp : p
  · simp only [if_pos hp, List.filterMap_none]
  · by_cases hq : q
    · simp only [if_neg hp, if_pos hq, List.filterMap_none]
    · simp only [if_neg hp, if_neg hq]

theorem flagCategory_eq (entries : List ExpenseSample) :
    flagCategory a entries = entries.filterMap (judge a entries) := filterMap_gated _ entries

theorem phoneFlagCategory_eq (entries : List ExpenseSample) :
    phoneFlagCategory entries = entries.filterMap (phoneJudge entries) :=
  filterMap_gated _ entries

theorem mem_categories {entry : ExpenseSample} (h : entry ∈ samples) :
    entry.category ∈ categories samples := by
  rw [categories, List.mem_eraseDups]
  exact List.mem_map_of_mem h

theorem nodup_categories : (categories samples).Nodup := nodup_eraseDups _

/-- What is pointed out before it is arranged and cut off: the unusual
expenses, category by category. -/
theorem flags_perm {judgement : List ExpenseSample → ExpenseSample → Option UnusualExpense}
    (h : ∀ entry ∈ samples, (judgement (byCategory samples entry.category) entry).map
      UnusualExpense.flag = unusual samples entry)
    {order : List String} (horder : order.Perm (categories samples)) :
    ((order.flatMap fun category => (byCategory samples category).filterMap
      (judgement (byCategory samples category))).map UnusualExpense.flag).Perm
      (samples.filterMap (unusual samples)) := by
  have hnodup : order.Nodup := horder.nodup_iff.mpr nodup_categories
  have hmem : ∀ entry ∈ samples, entry.category ∈ order := fun entry hentry =>
    horder.mem_iff.mpr (mem_categories hentry)
  have hgroup : ∀ category, ((byCategory samples category).filterMap
      (judgement (byCategory samples category))).map UnusualExpense.flag =
      (byCategory samples category).filterMap (unusual samples) := by
    intro category
    rw [List.map_filterMap]
    refine List.filterMap_congr fun entry hentry => ?_
    obtain ⟨hentry, hcategory⟩ := List.mem_filter.mp hentry
    have hjudged := h entry hentry
    rwa [of_decide_eq_true hcategory] at hjudged
  rw [List.map_flatMap, List.flatMap_congr fun category _ => hgroup category,
    ← List.filterMap_flatMap]
  exact (perm_flatMap_filter ExpenseSample.category hnodup hmem).filterMap _

/-- The figure an expense is arranged by is the one that is shown. -/
theorem flag_snd (unusual : UnusualExpense) :
    unusual.flag.2 = unusual.timesAboveAverage := rfl

/-- Any arrangement of what is pointed out shows the worst five, when these
are not tied. -/
theorem flags_take_eq (hu : UntiedWorst samples) {flagged sorted : List UnusualExpense}
    (hflagged : (flagged.map UnusualExpense.flag).Perm (samples.filterMap (unusual samples)))
    (hsorted : sorted.Perm flagged) (hranked : Ranked (·.timesAboveAverage) sorted) :
    (sorted.take MAX_FLAGGED).map UnusualExpense.flag = worst samples samples := by
  rw [List.map_take, worst]
  have hall := (hsorted.map UnusualExpense.flag).trans hflagged
  refine take_eq (untied_perm hall.symm hu) (hall.trans (rank_perm _).symm) ?_ (ranked_rank _)
  exact hranked.map flag_snd

theorem Centavos.pos {x : ℚ} (h : Centavos x) : 1 / 100 ≤ x := by
  obtain ⟨hpos, hwhole⟩ := h
  have hnum : ((x * 100).num : ℚ) = x * 100 := Rat.coe_int_num_of_den_eq_one hwhole
  have hone : 0 < (x * 100).num := Rat.num_pos.mpr (by positivity)
  have hge : (1 : ℚ) ≤ (x * 100).num := by exact_mod_cast hone
  linarith

theorem Digits.mono {d e : ℕ} {x : ℚ} (h : Digits d x) (hde : d ≤ e) : Digits e x := by
  obtain ⟨s, hs, hwhole, hlt⟩ := h
  exact ⟨s, by omega, hwhole, hlt.trans_le (pow_le_pow_right₀ (by norm_num) hde)⟩

/-- What is pointed out by exact ratios. -/
theorem unusual_eq_shown {entry : ExpenseSample}
    (hmany : MINIMUM_SAMPLES ≤ (byCategory samples entry.category).length)
    (havg : 0 < average (byCategory samples entry.category)) :
    unusual samples entry =
      shown entry (entry.amount / average (byCategory samples entry.category))
        (entry.amount / average (byCategory samples entry.category) * 10) := by
  have hratio : entry.amount / average (byCategory samples entry.category) < OUTLIER_MULTIPLIER ↔
      ¬ OUTLIER_MULTIPLIER * average (byCategory samples entry.category) ≤ entry.amount := by
    rw [div_lt_iff₀ havg, not_le]
  by_cases hlow : OUTLIER_MULTIPLIER * average (byCategory samples entry.category) ≤ entry.amount
  · rw [unusual, if_pos ⟨hmany, hlow⟩, shown, if_neg ((not_congr hratio).mpr (not_not.mpr hlow)),
      toOneDecimal]
  · rw [unusual, if_neg (fun h => hlow h.2), shown, if_pos (hratio.mpr hlow)]

theorem flagEntry_eq_shown (mean : Money) (entry : ExpenseSample) :
    (flagEntry a mean entry).map UnusualExpense.flag =
      shown entry (ratioOf a entry.amount mean) (double (ratioOf a entry.amount mean * 10)) := by
  rw [flagEntry, shown]
  split_ifs <;> rfl

theorem phoneFlagEntry_eq_shown (mean : ℚ) (entry : ExpenseSample) :
    (phoneFlagEntry mean entry).map UnusualExpense.flag =
      shown entry (double (double entry.amount / mean))
        (double (double entry.amount / mean) * 10) := by
  rw [phoneFlagEntry, shown]
  split_ifs <;> rfl

/-- A tenth that is near one with room around it is the same tenth. -/
theorem roundHalfAway_of_near {m : ℕ} {x y : ℚ} (h : Near 53 m x y) (hx : 0 ≤ x)
    (hlo : (roundHalfAway y - 1 / 2 : ℚ) * slack 53 ^ m < y)
    (hhi : y * slack 53 ^ m < (roundHalfAway y + 1 / 2 : ℚ)) :
    roundHalfAway x = roundHalfAway y := by
  have habove := h.gt hlo
  have hbelow := h.lt hhi
  rw [roundHalfAway_of_nonneg hx, Int.floor_eq_iff]
  constructor <;> linarith

/-- A ratio that is near one with room around it is pointed out alike. -/
theorem shown_of_near {m : ℕ} {entry : ExpenseSample} {x y r : ℚ} (h : Near 53 m x r)
    (hten : Near 53 m y (r * 10)) (hy : 0 ≤ y) (hroom : RoomAround (slack 53 ^ m) r) :
    shown entry x y = shown entry r (r * 10) := by
  have hone : 1 ≤ slack 53 ^ m := one_le_pow₀ (one_le_slack 53)
  rcases hroom with hlow | ⟨hhigh, hlo, hhi⟩
  · have hexact : r < OUTLIER_MULTIPLIER := by
      by_contra hge
      have hpos : 0 ≤ r := le_trans (by norm_num [OUTLIER_MULTIPLIER]) (not_lt.mp hge)
      exact hge ((le_mul_of_one_le_right hpos hone).trans_lt hlow)
    rw [shown, shown, if_pos (h.lt hlow), if_pos hexact]
  · have hexact : ¬ r < OUTLIER_MULTIPLIER := by
      rw [not_lt]
      exact (le_mul_of_one_le_right (by norm_num [OUTLIER_MULTIPLIER]) hone).trans hhigh.le
    rw [shown, shown, if_neg (h.gt hhigh).not_gt, if_neg hexact,
      roundHalfAway_of_near hten hy hlo hhi]

/-- What doubles hold the phone computes exactly. -/
theorem phone_shown_of_kept {entries : List ExpenseSample} {entry : ExpenseSample} (hentry : entry ∈ entries)
    (hkept : KeptByDoubles entries entry) :
    shown entry (double (double entry.amount / phoneMean entries))
        (double (double entry.amount / phoneMean entries) * 10) =
      shown entry (entry.amount / average entries) (entry.amount / average entries * 10) := by
  have hfold : entries.foldl (fun sum entry => double (sum + double entry.amount)) 0 =
      floatSum roundHalfEven 53 0 (entries.map (·.amount)) := by
    rw [floatSum, List.foldl_map]
    refine List.foldl_ext _ _ _ fun sum other hother => ?_
    rw [double_of_held (hkept.amounts other hother)]
    rfl
  have hmean : phoneMean entries = average entries := by
    rw [phoneMean, hfold, floatSum_of_held nearest_roundHalfEven (by norm_num) hkept.sums, zero_add]
    exact double_of_held hkept.average
  rw [hmean, double_of_held (hkept.amounts entry hentry), double_of_held hkept.ratio]

section

variable (ha : Lawful a) {entries : List ExpenseSample} (hne : entries ≠ [])
  (hamounts : ∀ entry ∈ entries, Centavos entry.amount)

include hne

theorem average_le (hfits : (entries.map (·.amount)).sum ≤ LARGEST_TOTAL) :
    average entries ≤ LARGEST_TOTAL := by
  have hlength : (1 : ℚ) ≤ entries.length := by exact_mod_cast List.length_pos_iff.mpr hne
  have hpos : 0 ≤ LARGEST_TOTAL := by norm_num [LARGEST_TOTAL]
  rw [average, div_le_iff₀ (by linarith)]
  exact hfits.trans (le_mul_of_one_le_right hpos hlength)

include hamounts

/-- Every entry adds a centavo or more to the average. -/
theorem average_ge : 1 / 100 ≤ average entries := by
  have hlength : (0 : ℚ) < entries.length := by exact_mod_cast List.length_pos_iff.mpr hne
  have hsum := List.card_nsmul_le_sum (entries.map (·.amount)) (1 / 100 : ℚ) fun x hx => by
    obtain ⟨entry, hentry, rfl⟩ := List.mem_map.mp hx
    exact (hamounts entry hentry).pos
  rw [List.length_map, nsmul_eq_mul] at hsum
  rw [average, le_div_iff₀ hlength]
  linarith

/-- The phone's average is off by a rounding for each entry and two more. -/
theorem phoneMean_near : 0 < phoneMean entries ∧
    Near 53 (entries.length + 2) (phoneMean entries) (average entries) := by
  have havg : 0 < average entries := lt_of_lt_of_le (by norm_num) (average_ge hne hamounts)
  have hpos : ∀ x ∈ entries.map (·.amount), 0 ≤ x := by
    intro x hx
    obtain ⟨entry, hentry, rfl⟩ := List.mem_map.mp hx
    exact le_trans (by norm_num) (hamounts entry hentry).pos
  have hmean : phoneMean entries = doubleAverage (entries.map (·.amount)) := by
    rw [doubleAverage, doubleSum, floatSum, List.foldl_map, List.foldl_map, List.length_map]
    rfl
  obtain ⟨-, hnear⟩ := doubleAverage_near (by simpa using hne) hpos
  rw [← hmean, List.length_map, ← average] at hnear
  exact ⟨hnear.gt (by rwa [zero_mul]), hnear⟩

/-- Where a ratio has room around it, the phone points out what is unusual. -/
theorem phone_shown_of_room {entry : ExpenseSample} (hentry : entry ∈ entries)
    (hroom : RoomAround (room entries) (entry.amount / average entries)) :
    shown entry (double (double entry.amount / phoneMean entries))
        (double (double entry.amount / phoneMean entries) * 10) =
      shown entry (entry.amount / average entries) (entry.amount / average entries * 10) := by
  have hamount : 0 ≤ entry.amount := le_trans (by norm_num) (hamounts entry hentry).pos
  have havg : 0 < average entries := lt_of_lt_of_le (by norm_num) (average_ge hne hamounts)
  obtain ⟨hmean, hnear⟩ := phoneMean_near hne hamounts
  have hdouble : 0 ≤ double entry.amount :=
    double_nonneg hamount
  have hquotient : 0 ≤ double entry.amount / phoneMean entries := div_nonneg hdouble hmean.le
  have hratio : 0 ≤ double (double entry.amount / phoneMean entries) :=
    double_nonneg hquotient
  have hexact : 0 ≤ entry.amount / average entries := div_nonneg hamount havg.le
  have hdiv := (near_double hamount).div hnear hmean havg hdouble hamount
  have hround := ((near_double hquotient).trans hdiv).mono hratio hexact
    (show 1 + (1 + (entries.length + 2)) ≤ entries.length + 35 by omega)
  exact shown_of_near hround (hround.mul_right (by norm_num)) (by positivity) hroom

include ha

variable (hfits : (entries.map (·.amount)).sum ≤ LARGEST_TOTAL)

include hfits

omit hne in
theorem mean_eq : mean a entries =
    a.quotient (entries.map (·.amount)).sum (entries.length : ℚ) := by
  rw [mean, ha.sum _ _ hfits]
  intro x hx
  obtain ⟨entry, hentry, rfl⟩ := List.mem_map.mp hx
  exact hamounts entry hentry

/-- The server's average is off by less than a rounding of doubles. -/
theorem mean_near : 0 < mean a entries ∧ Near 53 1 (mean a entries) (average entries) := by
  have hlength : (0 : ℚ) < entries.length := by exact_mod_cast List.length_pos_iff.mpr hne
  have hge := average_ge hne hamounts
  have hle := average_le hne hfits
  have havg : 0 < average entries := lt_of_lt_of_le (by norm_num) hge
  have hsum : 0 ≤ (entries.map (·.amount)).sum := by
    rw [← div_mul_cancel₀ (entries.map (·.amount)).sum hlength.ne', ← average]
    positivity
  have hbound := ha.quotient _ _ hsum hlength (hle.trans (by norm_num [LARGEST_TOTAL]))
  rw [← mean_eq ha hamounts hfits, ← average] at hbound
  have hmax : max 1 (average entries) ≤ average entries * 100 := by
    rw [max_le_iff]
    constructor <;> linarith
  have hnear : Near 53 1 (mean a entries) (average entries) := by
    refine near_of_abs_sub_le (by norm_num) havg.le (hbound.trans ?_)
    rw [div_le_div_iff₀ (by norm_num) (by norm_num)]
    nlinarith
  exact ⟨hnear.gt (by rwa [zero_mul]), hnear⟩

variable {entry : ExpenseSample} (hentry : entry ∈ entries)

include hentry

/-- The quotient the server takes for a ratio is close to it. -/
theorem ratio_quotient : 0 ≤ entry.amount / mean a entries ∧
    |a.quotient entry.amount (mean a entries) - entry.amount / mean a entries| ≤
      max 1 (entry.amount / mean a entries) / 10 ^ 27 := by
  obtain ⟨hmean, hnear⟩ := mean_near ha hne hamounts hfits
  have hamount : 0 ≤ entry.amount := le_trans (by norm_num) (hamounts entry hentry).pos
  have hle : entry.amount ≤ LARGEST_TOTAL := by
    refine le_trans (List.single_le_sum (fun x hx => ?_) _ (List.mem_map_of_mem hentry)) hfits
    obtain ⟨other, hother, rfl⟩ := List.mem_map.mp hx
    exact le_trans (by norm_num) (hamounts other hother).pos
  have hlow : 1 / 200 ≤ mean a entries := by
    have hone := hnear.1
    have hge := average_ge hne hamounts
    have hslack : slack 53 ^ 1 ≤ 2 := by norm_num [slack]
    nlinarith
  refine ⟨div_nonneg hamount hmean.le, ha.quotient _ _ hamount hmean ?_⟩
  rw [div_le_iff₀ hmean]
  have hbound : entry.amount ≤ 10 ^ 24 := hle
  linarith

/-- A ratio of one or more is off by 34 roundings. -/
theorem ratioOf_near (hone : 1 ≤ entry.amount / mean a entries) :
    0 ≤ ratioOf a entry.amount (mean a entries) ∧
      Near 53 34 (ratioOf a entry.amount (mean a entries)) (entry.amount / average entries) := by
  obtain ⟨hmean, hnear⟩ := mean_near ha hne hamounts hfits
  obtain ⟨hnonneg, hbound⟩ := ratio_quotient ha hne hamounts hfits hentry
  have hamount : 0 ≤ entry.amount := le_trans (by norm_num) (hamounts entry hentry).pos
  have havg : 0 < average entries := lt_of_lt_of_le (by norm_num) (average_ge hne hamounts)
  rw [max_eq_right hone] at hbound
  have hquotient : Near 53 1 (a.quotient entry.amount (mean a entries))
      (entry.amount / mean a entries) := by
    refine near_of_abs_sub_le (by norm_num) hnonneg (hbound.trans ?_)
    gcongr
    norm_num
  have hpos : 0 < a.quotient entry.amount (mean a entries) :=
    hquotient.gt (by linarith)
  have hdouble : Near 48 1 (ratioOf a entry.amount (mean a entries))
      (a.quotient entry.amount (mean a entries)) := by
    have h := ha.toF64 (a.quotient entry.amount (mean a entries))
    rw [abs_of_pos hpos] at h
    exact near_of_abs_sub_le (by norm_num) hpos.le h
  have hratio : 0 < ratioOf a entry.amount (mean a entries) := hdouble.gt (by rwa [zero_mul])
  have hdiv := (Near.refl 53 entry.amount).div hnear hmean havg hamount hamount
  exact ⟨hratio.le, ((hdouble.refine hratio.le hpos.le 5).trans hquotient).trans hdiv⟩

/-- Where a ratio has room around it, the server points out what is unusual. -/
theorem shown_of_room (hroom : RoomAround (room entries) (entry.amount / average entries)) :
    shown entry (ratioOf a entry.amount (mean a entries))
        (double (ratioOf a entry.amount (mean a entries) * 10)) =
      shown entry (entry.amount / average entries) (entry.amount / average entries * 10) := by
  obtain ⟨hmean, hnear⟩ := mean_near ha hne hamounts hfits
  have hamount : 0 ≤ entry.amount := le_trans (by norm_num) (hamounts entry hentry).pos
  have havg : 0 < average entries := lt_of_lt_of_le (by norm_num) (average_ge hne hamounts)
  have hexact : 0 ≤ entry.amount / average entries := div_nonneg hamount havg.le
  rcases lt_or_ge (entry.amount / mean a entries) 1 with hlt | hone
  · -- below the average, which no rounding takes to the limit
    obtain ⟨hnonneg, hbound⟩ := ratio_quotient ha hne hamounts hfits hentry
    rw [max_eq_left hlt.le, abs_le] at hbound
    have hdouble := (abs_le.mp (ha.toF64 (a.quotient entry.amount (mean a entries)))).2
    have habs : |a.quotient entry.amount (mean a entries)| ≤ 2 := by
      rw [abs_le]
      constructor <;> linarith
    have hserver : ratioOf a entry.amount (mean a entries) < OUTLIER_MULTIPLIER := by
      rw [ratioOf, OUTLIER_MULTIPLIER]
      linarith
    have hslack : slack 53 ^ 1 ≤ 2 := by norm_num [slack]
    have hratio : entry.amount / average entries < OUTLIER_MULTIPLIER := by
      rw [div_lt_one hmean] at hlt
      rw [div_lt_iff₀ havg, OUTLIER_MULTIPLIER]
      nlinarith [hnear.2]
    rw [shown, shown, if_pos hserver, if_pos hratio]
  · obtain ⟨hnonneg, hratio⟩ := ratioOf_near ha hne hamounts hfits hentry hone
    have hten : 0 ≤ ratioOf a entry.amount (mean a entries) * 10 := by positivity
    have hround := ((near_double hten).trans (hratio.mul_right (by norm_num : (0 : ℚ) ≤ 10)))
    have hroundTen : 0 ≤ double (ratioOf a entry.amount (mean a entries) * 10) :=
      double_nonneg hten
    exact shown_of_near (hratio.mono hnonneg hexact (by omega))
      (hround.mono hroundTen (by positivity) (by omega)) hroundTen hroom

omit hentry in
/-- What decimals and doubles hold the server computes exactly. -/
theorem shown_of_kept (hkept : KeptByDoubles entries entry) :
    shown entry (ratioOf a entry.amount (mean a entries))
        (double (ratioOf a entry.amount (mean a entries) * 10)) =
      shown entry (entry.amount / average entries) (entry.amount / average entries * 10) := by
  have hlength : (0 : ℚ) < entries.length := by exact_mod_cast List.length_pos_iff.mpr hne
  have havg : 0 < average entries := lt_of_lt_of_le (by norm_num) (average_ge hne hamounts)
  have hmean : mean a entries = average entries := by
    rw [mean_eq ha hamounts hfits, ha.quotientKept _ _ hlength hkept.averageDigits, average]
  have hratio : ratioOf a entry.amount (average entries) = entry.amount / average entries := by
    rw [ratioOf, ha.quotientKept _ _ havg (hkept.ratioDigits.mono (by norm_num)),
      ha.toF64Kept _ hkept.ratioDigits, double_of_held hkept.ratio]
  rw [hmean, hratio, double_of_held hkept.tenfold]

end

/-- Where what is rounded moves no expense, server and phone judge each entry by
what is unusual. -/
theorem judged_of_clear (ha : Lawful a) (hamounts : ∀ entry ∈ samples, Centavos entry.amount)
    (hclear : Clear samples) {entry : ExpenseSample} (hentry : entry ∈ samples) :
    (judge a (byCategory samples entry.category) entry).map UnusualExpense.flag =
      unusual samples entry ∧
    (phoneJudge (byCategory samples entry.category) entry).map UnusualExpense.flag =
      unusual samples entry := by
  have hmem : entry ∈ byCategory samples entry.category :=
    List.mem_filter.mpr ⟨hentry, decide_eq_true rfl⟩
  have hne : byCategory samples entry.category ≠ [] := List.ne_nil_of_mem hmem
  have hcentavos : ∀ other ∈ byCategory samples entry.category, Centavos other.amount :=
    fun other hother => hamounts other (List.mem_of_mem_filter hother)
  by_cases hfew : (byCategory samples entry.category).length < MINIMUM_SAMPLES
  · rw [judge, phoneJudge, unusual, if_pos hfew, if_pos hfew, if_neg (fun h => h.1.not_gt hfew)]
    exact ⟨rfl, rfl⟩
  · obtain ⟨hfits, hmoves⟩ := hclear entry hentry (not_lt.mp hfew)
    have havg : 0 < average (byCategory samples entry.category) :=
      lt_of_lt_of_le (by norm_num) (average_ge hne hcentavos)
    rw [judge, phoneJudge, if_neg hfew, if_neg hfew,
      if_neg (mean_near ha hne hcentavos hfits).1.ne', if_neg (phoneMean_near hne hcentavos).1.not_ge,
      flagEntry_eq_shown, phoneFlagEntry_eq_shown, unusual_eq_shown (not_lt.mp hfew) havg]
    rcases hmoves with hroom | hkept
    · exact ⟨shown_of_room ha hne hcentavos hfits hmem hroom,
        phone_shown_of_room hne hcentavos hmem hroom⟩
    · exact ⟨shown_of_kept ha hne hcentavos hfits hkept, phone_shown_of_kept hmem hkept⟩

/-- Where what is rounded on the way moves no expense, server and phone point out
the same, in the same order and with the same figures, settled by the expenses
alone, exactly when no tie reaches the worst five. -/
theorem determined_iff (ha : Lawful a) (hamounts : ∀ entry ∈ samples, Centavos entry.amount)
    (hclear : Clear samples) : Determined samples a ↔ UntiedWorst samples := by
  have hserver : ∀ order : List String, order.Perm (categories samples) →
      ((order.flatMap fun category => flagCategory a (byCategory samples category)).map
        UnusualExpense.flag).Perm (samples.filterMap (unusual samples)) := by
    intro order horder
    simp only [flagCategory_eq]
    exact flags_perm (fun _ h => (judged_of_clear ha hamounts hclear h).1) horder
  have hphone : (((categories samples).flatMap fun category =>
      phoneFlagCategory (byCategory samples category)).map UnusualExpense.flag).Perm
      (samples.filterMap (unusual samples)) := by
    simp only [phoneFlagCategory_eq]
    exact flags_perm (fun _ h => (judged_of_clear ha hamounts hclear h).2) (List.Perm.refl _)
  constructor
  · rintro ⟨arranged, -, hdetermined⟩
    -- two methods to sort by that differ in which of two equals leads
    have hlead : ∀ x, SortsWorstFirst (rankLeading (·.timesAboveAverage) x) := fun x =>
      ⟨rankLeading_perm x, ranked_rankLeading x⟩
    have hsame : ∀ x, (detect (rankLeading (·.timesAboveAverage) x) samples).map
        UnusualExpense.flag = worst samples arranged := fun x =>
      (hdetermined _ (List.Perm.refl _) _ (hlead x)).2
    refine untied_perm hphone (untied_of_take_eq flag_snd fun x y => ?_)
    exact (hsame x).trans (hsame y).symm
  · intro hu
    refine ⟨samples, List.Perm.refl _, fun order horder sort hsort => ⟨?_, ?_⟩⟩
    · exact flags_take_eq hu (hserver order horder) (rank_perm _) (ranked_rank _)
    · exact flags_take_eq hu hphone (hsort.perm _) (hsort.ranked _)

end

/-- Decimals with 28 places, and the nearest doubles. -/
def decimals : Arithmetic := ⟨List.sum, fun x y => roundDp 28 (x / y), double⟩

theorem lawful_decimals : Lawful decimals where
  sum _ _ _ := rfl
  quotient x y hx hy _ := by
    have hscale : (0 : ℚ) < 10 ^ 28 := by norm_num
    have hround := nearest_roundHalfEven (x / y * 10 ^ 28)
    have herror : roundDp 28 (x / y) - x / y =
        (roundHalfEven (x / y * 10 ^ 28) - x / y * 10 ^ 28) / 10 ^ 28 := by
      rw [roundDp]
      field_simp
    calc |roundDp 28 (x / y) - x / y|
        = |(roundHalfEven (x / y * 10 ^ 28) : ℚ) - x / y * 10 ^ 28| / 10 ^ 28 := by
          rw [herror, abs_div, abs_of_pos hscale]
      _ ≤ 1 / 2 / 10 ^ 28 := by gcongr
      _ ≤ 1 / 10 ^ 27 := by norm_num
      _ ≤ max 1 (x / y) / 10 ^ 27 := by gcongr; exact le_max_left _ _
  quotientKept x y hy h := by
    obtain ⟨s, hs, hwhole, -⟩ := h
    refine roundDp_of_scaled (n := (x / y * 10 ^ s).num * 10 ^ (28 - s)) ?_
    push_cast
    rw [Rat.coe_int_num_of_den_eq_one hwhole, mul_assoc, ← pow_add, Nat.add_sub_of_le (by omega)]
  toF64 x := by
    refine (abs_float_sub_le nearest_roundHalfEven x).trans ?_
    gcongr
    · norm_num
    · norm_num
  toF64Kept _ _ := rfl

/-- Entries of a category, one after the other. -/
def entriesOf (category : String) (amounts : List ℚ) : List ExpenseSample :=
  amounts.mapIdx fun i amount => ⟨category, amount, none, (i : ℤ)⟩

/-- Rents of which the last is two and a half times the average to the centavo,
and supplies of which one is well above it. -/
def rentAndSupplies : List ExpenseSample :=
  entriesOf "rent" [1, 1, 1, 5] ++ entriesOf "supplies" [1206 / 100, 1885 / 100, 20, 11999 / 100]

theorem determined_iff_rentAndSupplies : Determined rentAndSupplies decimals :=
  (determined_iff lawful_decimals (by decide +kernel) (by decide +kernel)).mpr (by decide +kernel)

/-- Amounts of which the last is two and a half times the average, which the
phone puts a last place below it. -/
def doublesBelow : List ExpenseSample :=
  entriesOf "supplies" [1106 / 100, 1885 / 100, 1762 / 100, 1123 / 100, 5876 / 100]

/-- Two categories with an outlier each: which comes first is left to the hash
map. And an expense at the limit that the server points out and the phone does
not. -/
theorem not_determined :
    ((∀ entry ∈ entriesOf "rent" [1, 1, 1, 5] ++ entriesOf "supplies" [1, 1, 1, 5],
        Centavos entry.amount) ∧
      ¬ Determined (entriesOf "rent" [1, 1, 1, 5] ++ entriesOf "supplies" [1, 1, 1, 5]) decimals) ∧
    (∀ entry ∈ doublesBelow, Centavos entry.amount) ∧ ¬ Determined doublesBelow decimals := by
  have hsort : SortsWorstFirst (rank (·.timesAboveAverage)) := ⟨rank_perm, ranked_rank⟩
  refine ⟨⟨by decide +kernel, ?_⟩, by decide +kernel, ?_⟩
  · rintro ⟨arranged, -, h⟩
    have hone := (h ["rent", "supplies"] (by decide +kernel) _ hsort).1
    have htwo := (h ["supplies", "rent"] (by decide +kernel) _ hsort).1
    exact absurd (hone.trans htwo.symm) (by decide +kernel)
  · rintro ⟨arranged, -, h⟩
    obtain ⟨hserver, hphone⟩ := h ["supplies"] (by decide +kernel) _ hsort
    exact absurd (hserver.trans hphone.symm) (by decide +kernel)

end Kitaza.UnusualExpenses
