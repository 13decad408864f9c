import Kitaza.FloatRounding
import Kitaza.Primitives

/-!
# Rounding to whole units

Two ways to round a decimal to the nearest integer, which differ at halves:
away from zero, and to the even neighbour. The error of either is at most a
half, and what rounding each term adds up to is the rounded sum exactly when
the errors together stay within a half. Doubles round to 53 bits, to the even
neighbour.
-/

namespace Kitaza.Rounding

open Primitives FloatRounding

/-- Round to the nearest integer, ties away from zero. -/
def roundHalfAway (x : ℚ) : ℤ :=
  if 0 ≤ x then ⌊x + 1 / 2⌋ else -⌊-x + 1 / 2⌋

/-- A half whose even neighbour is below it. -/
def EvenHalf (x : ℚ) : Prop := Int.fract x = 1 / 2 ∧ Even ⌊x⌋

instance (x : ℚ) : Decidable (EvenHalf x) := inferInstanceAs (Decidable (_ ∧ _))

theorem roundHalfAway_of_nonneg {x : ℚ} (h : 0 ≤ x) : roundHalfAway x = ⌊x + 1 / 2⌋ := if_pos h

theorem roundHalfAway_intCast {n : ℤ} (h : 0 ≤ n) : roundHalfAway n = n := by
  rw [roundHalfAway_of_nonneg (by exact_mod_cast h), Int.floor_eq_iff]
  constructor <;> norm_num

/-- A whole number passes through rounding. -/
theorem roundHalfAway_sub_intCast {x : ℚ} {n : ℤ} (hx : 0 ≤ x) (hn : (n : ℚ) ≤ x) :
    roundHalfAway (x - n) = roundHalfAway x - n := by
  rw [roundHalfAway_of_nonneg (sub_nonneg.mpr hn), roundHalfAway_of_nonneg hx, sub_add_eq_add_sub,
    Int.floor_sub_intCast]

theorem roundHalfAway_mono {x y : ℚ} (hx : 0 ≤ x) (h : x ≤ y) :
    roundHalfAway x ≤ roundHalfAway y := by
  rw [roundHalfAway_of_nonneg hx, roundHalfAway_of_nonneg (hx.trans h)]
  exact Int.floor_le_floor (by linarith)

theorem roundHalfAway_pos {x : ℚ} (h : 1 / 2 ≤ x) : 0 < roundHalfAway x := by
  rw [roundHalfAway_of_nonneg (by linarith), Int.floor_pos]
  linarith

/-- The two ways part at halves whose even neighbour is below. -/
theorem roundHalfEven_eq {x : ℚ} (h : 0 ≤ x) :
    roundHalfEven x = if EvenHalf x then roundHalfAway x - 1 else roundHalfAway x := by
  have hfloor : x.floor = ⌊x⌋ := rfl
  have hle := Int.floor_le x
  have hlt := Int.lt_floor_add_one x
  rw [roundHalfEven, roundHalfAway_of_nonneg h, hfloor]
  rcases lt_trichotomy (x - ⌊x⌋) (1 / 2) with hlo | heq | hhi
  · have haway : ⌊x + 1 / 2⌋ = ⌊x⌋ := Int.floor_eq_iff.mpr ⟨by linarith, by linarith⟩
    rw [if_pos hlo, if_neg (fun hh => hlo.ne hh.1), haway]
  · have haway : ⌊x + 1 / 2⌋ = ⌊x⌋ + 1 := by
      rw [Int.floor_eq_iff]
      push_cast
      constructor <;> linarith
    rw [if_neg heq.not_lt, if_neg heq.symm.not_lt, haway]
    by_cases heven : ⌊x⌋ % 2 = 0
    · rw [if_pos heven, if_pos ⟨heq, Int.even_iff.mpr heven⟩, add_sub_cancel_right]
    · rw [if_neg heven, if_neg (fun hh => heven (Int.even_iff.mp hh.2))]
  · have haway : ⌊x + 1 / 2⌋ = ⌊x⌋ + 1 := by
      rw [Int.floor_eq_iff]
      push_cast
      constructor <;> linarith
    rw [if_neg hhi.not_gt, if_pos hhi, if_neg (fun hh => hhi.ne' hh.1), haway]

theorem roundHalfEven_eq_away_iff {x : ℚ} (h : 0 ≤ x) :
    roundHalfEven x = roundHalfAway x ↔ ¬ EvenHalf x := by
  rw [roundHalfEven_eq h]
  split_ifs with he
  · simp [he]
  · simp [he]

theorem roundHalfEven_le_away {x : ℚ} (h : 0 ≤ x) : roundHalfEven x ≤ roundHalfAway x := by
  rw [roundHalfEven_eq h]
  split_ifs <;> omega

/-- The rounding error of a figure. -/
def error (x : ℚ) : ℚ := x - roundHalfEven x

/-- Rounding each term adds up to the rounded sum exactly when the errors
together round to nothing. -/
theorem sum_rounded_iff {xs : List ℚ} (h : 0 ≤ xs.sum) :
    ((xs.map roundHalfEven).sum = roundHalfAway xs.sum) ↔
      -(1 / 2) ≤ (xs.map error).sum ∧ (xs.map error).sum < 1 / 2 := by
  have hsplit : xs.sum = (((xs.map roundHalfEven).sum : ℤ) : ℚ) + (xs.map error).sum := by
    clear h
    induction xs with
    | nil => simp
    | cons x xs ih =>
      simp only [List.map_cons, List.sum_cons, Int.cast_add]
      rw [ih, error]
      ring
  rw [roundHalfAway_of_nonneg h, eq_comm, Int.floor_eq_iff, hsplit]
  constructor
  · rintro ⟨hlo, hhi⟩
    constructor <;> linarith
  · rintro ⟨hlo, hhi⟩
    constructor <;> linarith

theorem nearest_roundHalfEven : Nearest roundHalfEven := by
  intro x
  have hfloor : x.floor = ⌊x⌋ := rfl
  have hle := Int.floor_le x
  have hlt := Int.lt_floor_add_one x
  rw [roundHalfEven, hfloor, abs_le]
  split_ifs with hlo hhi heven
  · constructor <;> linarith
  · push_cast
    constructor <;> linarith
  · constructor <;> linarith
  · push_cast
    constructor <;> linarith

/-- The double that stands for a figure. Figures are taken to be within the
range of its exponents. -/
def double (x : ℚ) : ℚ := float roundHalfEven 53 x

theorem double_zero : double 0 = 0 := float_zero nearest_roundHalfEven

theorem double_pos_iff (x : ℚ) : 0 < double x ↔ 0 < x :=
  float_pos_iff nearest_roundHalfEven (by norm_num) x

theorem double_eq_iff (x : ℚ) : double x = x ↔ Held 53 x :=
  float_eq_iff nearest_roundHalfEven (by norm_num) x

instance heldDecidable (x : ℚ) : Decidable (Held 53 x) :=
  decidable_of_iff (double x = x) (double_eq_iff x)

instance sumsHeldDecidable : ∀ (start : ℚ) (l : List ℚ), Decidable (SumsHeld 53 start l)
  | _, [] => isTrue trivial
  | start, x :: l =>
    have := sumsHeldDecidable (start + x) l
    inferInstanceAs (Decidable (Held 53 (start + x) ∧ SumsHeld 53 (start + x) l))

/-- A figure and its double are one rounding apart. -/
theorem near_double {x : ℚ} (h : 0 ≤ x) : Near 53 1 (double x) x :=
  near_float nearest_roundHalfEven (by norm_num) h

theorem double_nonneg {x : ℚ} (h : 0 ≤ x) : 0 ≤ double x :=
  float_nonneg nearest_roundHalfEven (by norm_num) h

theorem abs_double_sub_le (x : ℚ) : |double x - x| ≤ |x| / 2 ^ 53 :=
  abs_float_sub_le nearest_roundHalfEven x

theorem double_of_held {x : ℚ} (h : Held 53 x) : double x = x :=
  (double_eq_iff x).mpr h

/-- Figures read as doubles and added up one by one. -/
def doubleSum (l : List ℚ) : ℚ := floatSum roundHalfEven 53 0 (l.map double)

/-- Their average. -/
def doubleAverage (l : List ℚ) : ℚ := double (doubleSum l / l.length)

theorem doubleSum_concat (l : List ℚ) (x : ℚ) :
    doubleSum (l ++ [x]) = double (doubleSum l + double x) := by
  rw [doubleSum, List.map_append, floatSum_append]
  rfl

/-- An average is off by a rounding for each figure and two more. -/
theorem doubleAverage_near {l : List ℚ} (hne : l ≠ []) (hpos : ∀ x ∈ l, 0 ≤ x) :
    0 ≤ doubleAverage l ∧ Near 53 (l.length + 2) (doubleAverage l) (l.sum / l.length) := by
  have hlength : (0 : ℚ) < l.length := by exact_mod_cast List.length_pos_iff.mpr hne
  obtain ⟨hsum, hnear⟩ := near_floatSum nearest_roundHalfEven (by norm_num) hpos le_rfl le_rfl
    le_rfl (show Near 53 1 0 0 by simp [Near])
  rw [zero_add] at hnear
  have hquotient : 0 ≤ doubleSum l / l.length := div_nonneg hsum hlength.le
  have hdiv := hnear.div (Near.refl 53 (l.length : ℚ)) hlength hlength hsum (List.sum_nonneg hpos)
  have hround := (near_double hquotient).trans hdiv
  have hcount : 1 + (1 + l.length + 0) = l.length + 2 := by omega
  rw [hcount] at hround
  exact ⟨double_nonneg hquotient, hround⟩

end Kitaza.Rounding
