import Mathlib.Algebra.BigOperators.Group.List.Basic
import Mathlib.Algebra.Order.Field.Power
import Mathlib.Data.Int.Log
import Mathlib.Data.Rat.Floor
import Mathlib.Tactic.FieldSimp
import Mathlib.Tactic.GCongr
import Mathlib.Tactic.Linarith
import Mathlib.Tactic.Positivity
import Mathlib.Tactic.Ring

/-!
# Binary floating point of a precision

A figure is rounded to so many significant bits by a method of rounding to the
nearest integer. What has that many bits is kept; anything else is off by at
most one part in twice the largest integer of so many bits. A sum that is
rounded at each step is exact when all its parts can be held. What is near to
something stays near when it is rounded, added up and divided; a sum with
differences in it is off by a part of all that was added and taken away.
-/

namespace Kitaza.FloatRounding

/-- A method of rounding to the nearest integer, whatever it does with halves. -/
def Nearest (r : ℚ → ℤ) : Prop := ∀ x, |(r x : ℚ) - x| ≤ 1 / 2

/-- The last place of a figure of so many bits. -/
def lastPlace (p : ℕ) (x : ℚ) : ℚ := 2 ^ (Int.log 2 |x| + 1 - p)

/-- A figure to so many significant bits. -/
def float (r : ℚ → ℤ) (p : ℕ) (x : ℚ) : ℚ := r (x / lastPlace p x) * lastPlace p x

/-- What can be held in so many bits. -/
def Held (p : ℕ) (x : ℚ) : Prop := ∃ m e : ℤ, |m| ≤ 2 ^ p ∧ x = m * 2 ^ e

theorem lastPlace_pos (p : ℕ) (x : ℚ) : 0 < lastPlace p x := zpow_pos (by norm_num) _

theorem held_intCast {p : ℕ} {n : ℤ} (h : |n| ≤ 2 ^ p) : Held p n := ⟨n, 0, h, by simp⟩

/-- What can be held is a whole number of its last place. -/
theorem exists_div_lastPlace {p : ℕ} (hp : 0 < p) {x : ℚ} (hx : x ≠ 0) (h : Held p x) :
    ∃ k : ℤ, x / lastPlace p x = k := by
  obtain ⟨m, e, hm, hxe⟩ := h
  have hmabs : |x| = |m| * 2 ^ e := by
    rw [hxe, abs_mul, abs_of_pos (zpow_pos (by norm_num : (0 : ℚ) < 2) e), Int.cast_abs]
  have hlog : (2 : ℚ) ^ Int.log 2 |x| ≤ |x| := by
    exact_mod_cast Int.zpow_log_le_self (b := 2) (by norm_num) (abs_pos.mpr hx)
  have hmle : ((|m| : ℤ) : ℚ) ≤ 2 ^ p := by exact_mod_cast hm
  have hxle : |x| ≤ 2 ^ ((p : ℤ) + e) := by
    rw [hmabs, zpow_add₀ (by norm_num), zpow_natCast]
    exact mul_le_mul_of_nonneg_right hmle (zpow_pos (by norm_num) e).le
  have hle : Int.log 2 |x| ≤ p + e :=
    (zpow_le_zpow_iff_right₀ (by norm_num : (1 : ℚ) < 2)).mp (hlog.trans hxle)
  rcases hle.lt_or_eq with hlt | heq
  · -- the last place divides the unit the figure is a multiple of
    refine ⟨m * 2 ^ (e - (Int.log 2 |x| + 1 - p)).toNat, ?_⟩
    rw [lastPlace, div_eq_iff (zpow_pos (by norm_num) _).ne']
    push_cast
    rw [← zpow_natCast, Int.toNat_of_nonneg (by omega), mul_assoc, ← zpow_add₀ (by norm_num),
      sub_add_cancel]
    exact hxe
  · -- a power of two
    have hmeq : |m| = 2 ^ p := by
      refine le_antisymm hm ?_
      have hge : (2 : ℚ) ^ ((p : ℤ) + e) ≤ |m| * 2 ^ e := by
        rw [← hmabs, ← heq]
        exact hlog
      rw [zpow_add₀ (by norm_num), zpow_natCast] at hge
      have := le_of_mul_le_mul_right hge (zpow_pos (by norm_num) e)
      exact_mod_cast this
    obtain ⟨half, hhalf⟩ : ∃ half : ℤ, m = half * 2 := by
      obtain ⟨n, rfl⟩ := Nat.exists_eq_succ_of_ne_zero hp.ne'
      rcases (abs_eq (by positivity)).mp hmeq with rfl | rfl
      · exact ⟨2 ^ n, pow_succ 2 n⟩
      · exact ⟨-2 ^ n, by rw [pow_succ, neg_mul]⟩
    refine ⟨half, ?_⟩
    rw [lastPlace, heq, div_eq_iff (zpow_pos (by norm_num) _).ne']
    have hplace : (p : ℤ) + e + 1 - p = e + 1 := by ring
    rw [hplace, zpow_add₀ (by norm_num), zpow_one, hxe, hhalf]
    push_cast
    ring

section

variable {r : ℚ → ℤ} (hr : Nearest r) {p : ℕ}

include hr

/-- An integer is its own nearest one. -/
theorem nearest_intCast (n : ℤ) : r n = n := by
  have h := hr n
  rw [← Int.cast_sub, ← Int.cast_abs] at h
  have hlt : ((|r n - n| : ℤ) : ℚ) < 1 := h.trans_lt (by norm_num)
  have hzero : |r n - n| = 0 := by
    have : |r n - n| < 1 := by exact_mod_cast hlt
    have := abs_nonneg (r n - n)
    omega
  exact sub_eq_zero.mp (abs_eq_zero.mp hzero)

theorem float_zero : float r p 0 = 0 := by
  rw [float, zero_div]
  have h := nearest_intCast hr 0
  rw [Int.cast_zero] at h
  rw [h, Int.cast_zero, zero_mul]

/-- The error of rounding is small beside the figure. -/
theorem abs_float_sub_le (x : ℚ) : |float r p x - x| ≤ |x| / 2 ^ p := by
  rcases eq_or_ne x 0 with rfl | hx
  · rw [float_zero hr]
    simp
  · have hu := lastPlace_pos p x
    have hsplit : float r p x - x = (r (x / lastPlace p x) - x / lastPlace p x) * lastPlace p x := by
      rw [float, sub_mul, div_mul_cancel₀ x hu.ne']
    have hplace : lastPlace p x = 2 ^ Int.log 2 |x| * 2 / 2 ^ p := by
      rw [lastPlace, zpow_sub₀ (by norm_num), zpow_add₀ (by norm_num), zpow_one, zpow_natCast]
    have hlog : ((2 : ℕ) : ℚ) ^ Int.log 2 |x| ≤ |x| :=
      Int.zpow_log_le_self (by norm_num) (abs_pos.mpr hx)
    calc |float r p x - x| = |(r (x / lastPlace p x) : ℚ) - x / lastPlace p x| * lastPlace p x := by
          rw [hsplit, abs_mul, abs_of_pos hu]
      _ ≤ 1 / 2 * lastPlace p x := by gcongr; exact hr _
      _ = 2 ^ Int.log 2 |x| / 2 ^ p := by rw [hplace]; ring
      _ ≤ |x| / 2 ^ p := by gcongr; exact_mod_cast hlog

/-- What can be held is kept. -/
theorem float_of_held (hp : 0 < p) {x : ℚ} (h : Held p x) : float r p x = x := by
  rcases eq_or_ne x 0 with rfl | hx
  · exact float_zero hr
  · obtain ⟨k, hk⟩ := exists_div_lastPlace hp hx h
    rw [float, hk, nearest_intCast hr, ← hk, div_mul_cancel₀ x (lastPlace_pos p x).ne']

/-- And what is kept can be held. -/
theorem held_float (x : ℚ) : Held p (float r p x) := by
  rcases eq_or_ne x 0 with rfl | hx
  · rw [float_zero hr]
    exact held_intCast (n := 0) (by simp)
  · refine ⟨r (x / lastPlace p x), Int.log 2 |x| + 1 - p, ?_, rfl⟩
    have hbelow : |x / lastPlace p x| < 2 ^ p := by
      rw [abs_div, abs_of_pos (lastPlace_pos p x), div_lt_iff₀ (lastPlace_pos p x), lastPlace,
        ← zpow_natCast, ← zpow_add₀ (by norm_num), add_sub_cancel]
      exact_mod_cast Int.lt_zpow_succ_log_self (b := 2) (by norm_num) |x|
    have hnear := abs_sub_abs_le_abs_sub ((r (x / lastPlace p x) : ℤ) : ℚ) (x / lastPlace p x)
    have hr' := hr (x / lastPlace p x)
    have hlt : ((|r (x / lastPlace p x)| : ℤ) : ℚ) < 2 ^ p + 1 := by
      rw [Int.cast_abs]
      linarith
    have hint : |r (x / lastPlace p x)| < 2 ^ p + 1 := by exact_mod_cast hlt
    omega

theorem float_eq_iff (hp : 0 < p) (x : ℚ) : float r p x = x ↔ Held p x :=
  ⟨fun h => h ▸ held_float hr x, float_of_held hr hp⟩

/-- Rounding keeps the sign. -/
theorem float_pos_iff (hp : 0 < p) (x : ℚ) : 0 < float r p x ↔ 0 < x := by
  have herr := abs_le.mp (abs_float_sub_le hr (p := p) x)
  have hpow : (2 : ℚ) ≤ 2 ^ p := by
    calc (2 : ℚ) = 2 ^ 1 := (pow_one 2).symm
      _ ≤ 2 ^ p := pow_le_pow_right₀ (by norm_num) hp
  have hhalf : |x| / 2 ^ p ≤ |x| / 2 := by gcongr
  constructor
  · intro h
    by_contra hx
    rw [abs_of_nonpos (not_lt.mp hx)] at herr hhalf
    linarith [herr.2]
  · intro h
    rw [abs_of_pos h] at herr hhalf
    linarith [herr.1]

end

/-- Add figures up, each sum rounded. -/
def floatSum (r : ℚ → ℤ) (p : ℕ) (start : ℚ) (l : List ℚ) : ℚ :=
  l.foldl (fun sum x => float r p (sum + x)) start

/-- Whether every sum on the way can be held. -/
def SumsHeld (p : ℕ) : ℚ → List ℚ → Prop
  | _, [] => True
  | start, x :: l => Held p (start + x) ∧ SumsHeld p (start + x) l

theorem floatSum_append (r : ℚ → ℤ) (p : ℕ) (start : ℚ) (l l' : List ℚ) :
    floatSum r p start (l ++ l') = floatSum r p (floatSum r p start l) l' := List.foldl_append

/-- Where every sum can be held, adding up is exact. -/
theorem floatSum_of_held {r : ℚ → ℤ} (hr : Nearest r) {p : ℕ} (hp : 0 < p) {start : ℚ}
    {l : List ℚ} (h : SumsHeld p start l) : floatSum r p start l = start + l.sum := by
  induction l generalizing start with
  | nil => simp [floatSum]
  | cons x l ih =>
    rw [floatSum, List.foldl_cons, float_of_held hr hp h.1, ← floatSum, ih h.2, List.sum_cons,
      add_assoc]

/-- How far apart two figures can be after one rounding. -/
def slack (p : ℕ) : ℚ := 1 + 2 / 2 ^ p

/-- Whether two figures are so many roundings apart, or fewer. -/
def Near (p m : ℕ) (x y : ℚ) : Prop := y ≤ x * slack p ^ m ∧ x ≤ y * slack p ^ m

theorem one_le_slack (p : ℕ) : 1 ≤ slack p := by
  rw [slack]
  have : (0 : ℚ) ≤ 2 / 2 ^ p := by positivity
  linarith

/-- Fewer roundings than a quarter of the largest integer do not double a figure. -/
theorem slack_pow_le_two {p k : ℕ} (h : 4 * k ≤ 2 ^ p) : slack p ^ k ≤ 2 := by
  have hslack := zero_lt_one.trans_le (one_le_slack p)
  have hpow : (0 : ℚ) < 2 ^ p := by positivity
  have hk : 4 * (k : ℚ) ≤ 2 ^ p := by exact_mod_cast h
  have hpart : -2 ≤ (slack p)⁻¹ - 1 := by linarith [inv_pos.mpr hslack]
  have hbernoulli := one_add_mul_le_pow hpart k
  have hinv : (slack p)⁻¹ - 1 = -(2 / (2 ^ p + 2)) := by
    rw [slack]
    field_simp
    ring
  have hsmall : (k : ℚ) * (2 / (2 ^ p + 2)) ≤ 1 / 2 := by
    rw [← mul_div_assoc, div_le_iff₀ (by linarith)]
    linarith
  rw [add_sub_cancel, inv_pow, hinv] at hbernoulli
  have hhalf : (1 / 2 : ℚ) ≤ (slack p ^ k)⁻¹ := by linarith
  have hresult := inv_anti₀ (by norm_num) hhalf
  rw [inv_inv] at hresult
  linarith

theorem slack_pow_pos (p m : ℕ) : 0 < slack p ^ m :=
  pow_pos (zero_lt_one.trans_le (one_le_slack p)) m

/-- One rounding to fewer bits is no more than many to more bits. -/
theorem slack_le (p k : ℕ) : slack p ≤ slack (p + k) ^ 2 ^ k := by
  have hsplit : slack p = 1 + (2 ^ k : ℕ) * (2 / 2 ^ (p + k)) := by
    rw [slack, pow_add]
    push_cast
    field_simp
  have hpos : (0 : ℚ) ≤ 2 / 2 ^ (p + k) := by positivity
  have hsmall : (-2 : ℚ) ≤ 2 / 2 ^ (p + k) := by linarith
  rw [hsplit]
  exact one_add_mul_le_pow hsmall _

section

variable {p m k : ℕ} {x y z x' y' : ℚ}

theorem Near.refl (p : ℕ) (x : ℚ) : Near p 0 x x := by simp [Near]

theorem Near.mono (h : Near p m x y) (hx : 0 ≤ x) (hy : 0 ≤ y) (hmk : m ≤ k) : Near p k x y := by
  have hpow : slack p ^ m ≤ slack p ^ k := pow_le_pow_right₀ (one_le_slack p) hmk
  exact ⟨h.1.trans (mul_le_mul_of_nonneg_left hpow hx), h.2.trans (mul_le_mul_of_nonneg_left hpow hy)⟩

theorem Near.refine (h : Near p m x y) (hx : 0 ≤ x) (hy : 0 ≤ y) (k : ℕ) :
    Near (p + k) (2 ^ k * m) x y := by
  have hpow : slack p ^ m ≤ slack (p + k) ^ (2 ^ k * m) := by
    rw [pow_mul]
    exact pow_le_pow_left₀ (zero_le_one.trans (one_le_slack p)) (slack_le p k) m
  exact ⟨h.1.trans (mul_le_mul_of_nonneg_left hpow hx), h.2.trans (mul_le_mul_of_nonneg_left hpow hy)⟩

theorem Near.trans (hxy : Near p m x y) (hyz : Near p k y z) : Near p (m + k) x z := by
  have hm := (slack_pow_pos p m).le
  have hk := (slack_pow_pos p k).le
  constructor
  · calc z ≤ y * slack p ^ k := hyz.1
      _ ≤ x * slack p ^ m * slack p ^ k := by gcongr; exact hxy.1
      _ = x * slack p ^ (m + k) := by rw [pow_add, mul_assoc]
  · calc x ≤ y * slack p ^ m := hxy.2
      _ ≤ z * slack p ^ k * slack p ^ m := by gcongr; exact hyz.2
      _ = z * slack p ^ (m + k) := by rw [pow_add, mul_assoc, mul_comm (slack p ^ k)]

theorem Near.add (h : Near p m x y) (h' : Near p m x' y') : Near p m (x + x') (y + y') := by
  constructor
  · rw [add_mul]
    exact add_le_add h.1 h'.1
  · rw [add_mul]
    exact add_le_add h.2 h'.2

theorem Near.mul_right (h : Near p m x y) (hz : 0 ≤ z) : Near p m (x * z) (y * z) := by
  constructor
  · calc y * z ≤ x * slack p ^ m * z := by gcongr; exact h.1
      _ = x * z * slack p ^ m := by ring
  · calc x * z ≤ y * slack p ^ m * z := by gcongr; exact h.2
      _ = y * z * slack p ^ m := by ring

theorem Near.div (h : Near p m x y) (h' : Near p k x' y') (hx' : 0 < x') (hy' : 0 < y') (hx : 0 ≤ x)
    (hy : 0 ≤ y) : Near p (m + k) (x / x') (y / y') := by
  have hm := slack_pow_pos p m
  have hk := slack_pow_pos p k
  constructor
  · rw [div_le_iff₀ hy', pow_add]
    calc y ≤ x * slack p ^ m := h.1
      _ = x / x' * slack p ^ m * x' := by field_simp
      _ ≤ x / x' * slack p ^ m * (y' * slack p ^ k) := by gcongr; exact h'.2
      _ = x / x' * (slack p ^ m * slack p ^ k) * y' := by ring
  · rw [div_le_iff₀ hx', pow_add]
    calc x ≤ y * slack p ^ m := h.2
      _ = y / y' * slack p ^ m * y' := by field_simp
      _ ≤ y / y' * slack p ^ m * (x' * slack p ^ k) := by gcongr; exact h'.1
      _ = y / y' * (slack p ^ m * slack p ^ k) * x' := by ring

/-- A bound with room to spare holds of what is near. -/
theorem Near.lt (h : Near p m x y) (hz : y * slack p ^ m < z) : x < z := h.2.trans_lt hz

theorem Near.gt (h : Near p m x y) (hz : z * slack p ^ m < y) : z < x :=
  lt_of_mul_lt_mul_right (hz.trans_le h.1) (slack_pow_pos p m).le

/-- What is off by a part in the largest integer is near. -/
theorem near_of_abs_sub_le (hp : 0 < p) (hy : 0 ≤ y) (h : |x - y| ≤ y / 2 ^ p) : Near p 1 x y := by
  obtain ⟨hlo, hhi⟩ := abs_le.mp h
  have hpow : (2 : ℚ) ≤ 2 ^ p := by
    calc (2 : ℚ) = 2 ^ 1 := (pow_one 2).symm
      _ ≤ 2 ^ p := pow_le_pow_right₀ (by norm_num) hp
  have hu : (0 : ℚ) < 1 / 2 ^ p := by positivity
  have hu' : (1 : ℚ) / 2 ^ p ≤ 1 / 2 := one_div_le_one_div_of_le (by norm_num) hpow
  rw [div_eq_mul_one_div] at hlo hhi
  rw [Near, pow_one, slack, div_eq_mul_one_div (2 : ℚ)]
  generalize (1 : ℚ) / 2 ^ p = u at *
  constructor
  · nlinarith [mul_nonneg hy hu.le, mul_nonneg (mul_nonneg hy hu.le) (sub_nonneg.mpr hu')]
  · nlinarith [mul_nonneg hy hu.le]

theorem near_float {r : ℚ → ℤ} (hr : Nearest r) (hp : 0 < p) (hx : 0 ≤ x) :
    Near p 1 (float r p x) x := by
  have h := abs_float_sub_le hr (p := p) x
  rw [abs_of_nonneg hx] at h
  exact near_of_abs_sub_le hp hx h

end

theorem float_nonneg {r : ℚ → ℤ} (hr : Nearest r) {p : ℕ} (hp : 0 < p) {x : ℚ} (h : 0 ≤ x) :
    0 ≤ float r p x := by
  rcases h.eq_or_lt with rfl | hpos
  · exact (float_zero hr).ge
  · exact ((float_pos_iff hr hp x).mpr hpos).le

/-- Figures that are rounded and then added up are as far off as there are
roundings one after the other. -/
theorem near_floatSum {r : ℚ → ℤ} (hr : Nearest r) {p : ℕ} (hp : 0 < p) {l : List ℚ}
    (hl : ∀ x ∈ l, 0 ≤ x) {m : ℕ} {s t : ℚ} (hm : 1 ≤ m) (hs : 0 ≤ s) (ht : 0 ≤ t)
    (h : Near p m s t) :
    0 ≤ floatSum r p s (l.map (float r p)) ∧
      Near p (m + l.length) (floatSum r p s (l.map (float r p))) (t + l.sum) := by
  induction l generalizing m s t with
  | nil => simpa [floatSum] using ⟨hs, h⟩
  | cons x l ih =>
    have hx := hl x List.mem_cons_self
    have hx' := float_nonneg hr hp hx
    have hadd : Near p m (s + float r p x) (t + x) :=
      h.add ((near_float hr hp hx).mono hx' hx hm)
    have hnext := (near_float hr hp (add_nonneg hs hx')).trans hadd
    have hrest := ih (fun y hy => hl y (List.mem_cons_of_mem _ hy)) (Nat.le_add_right 1 m)
      (float_nonneg hr hp (add_nonneg hs hx')) (add_nonneg ht hx) hnext
    rw [List.map_cons, floatSum, List.foldl_cons, ← floatSum, List.sum_cons, ← add_assoc,
      List.length_cons]
    have hcount : m + (l.length + 1) = 1 + m + l.length := by omega
    rw [hcount]
    exact hrest

/-- Whether a figure that is made of parts of a size is so many roundings off, or
fewer. Unlike what is near, it may be made of differences. -/
structure Within (p m : ℕ) (size x y : ℚ) : Prop where
  /-- The exact figure is no larger than its parts. -/
  size_le : |y| ≤ size
  /-- What was rounded is off by a part of them. -/
  off_le : |x - y| ≤ (slack p ^ m - 1) * size

section

variable {p m k : ℕ} {a b x y x' y' : ℚ}

theorem Within.size_nonneg (h : Within p m a x y) : 0 ≤ a := (abs_nonneg y).trans h.size_le

theorem within_refl (p : ℕ) (x : ℚ) : Within p 0 |x| x x := ⟨le_rfl, by simp⟩

theorem Within.mono (h : Within p m a x y) (hmk : m ≤ k) : Within p k a x y := by
  have hpow : slack p ^ m ≤ slack p ^ k := pow_le_pow_right₀ (one_le_slack p) hmk
  refine ⟨h.size_le, h.off_le.trans (mul_le_mul_of_nonneg_right ?_ h.size_nonneg)⟩
  exact sub_le_sub_right hpow 1

theorem Within.add (h : Within p m a x y) (h' : Within p m b x' y') :
    Within p m (a + b) (x + x') (y + y') := by
  refine ⟨(abs_add_le y y').trans (add_le_add h.size_le h'.size_le), ?_⟩
  calc |x + x' - (y + y')| = |(x - y) + (x' - y')| := by rw [add_sub_add_comm]
    _ ≤ |x - y| + |x' - y'| := abs_add_le _ _
    _ ≤ (slack p ^ m - 1) * a + (slack p ^ m - 1) * b := add_le_add h.off_le h'.off_le
    _ = (slack p ^ m - 1) * (a + b) := (mul_add _ a b).symm

theorem Within.neg (h : Within p m a x y) : Within p m a (-x) (-y) := by
  refine ⟨(abs_neg y).trans_le h.size_le, ?_⟩
  rw [neg_sub_neg, abs_sub_comm]
  exact h.off_le

theorem Within.sub (h : Within p m a x y) (h' : Within p m b x' y') :
    Within p m (a + b) (x - x') (y - y') := by
  rw [sub_eq_add_neg, sub_eq_add_neg]
  exact h.add h'.neg

/-- One more rounding. -/
theorem Within.rounded {r : ℚ → ℤ} (hr : Nearest r) (h : Within p m a x y) :
    Within p (m + 1) a (float r p x) y := by
  have hpow := slack_pow_pos p m
  have hpart : (0 : ℚ) ≤ 1 / 2 ^ p := by positivity
  have hsize : |x| ≤ slack p ^ m * a := by
    calc |x| = |(x - y) + y| := by rw [sub_add_cancel]
      _ ≤ |x - y| + |y| := abs_add_le _ _
      _ ≤ (slack p ^ m - 1) * a + a := add_le_add h.off_le h.size_le
      _ = slack p ^ m * a := by ring
  refine ⟨h.size_le, ?_⟩
  calc |float r p x - y| = |(float r p x - x) + (x - y)| := by rw [sub_add_sub_cancel]
    _ ≤ |float r p x - x| + |x - y| := abs_add_le _ _
    _ ≤ slack p ^ m * a * (2 / 2 ^ p) + (slack p ^ m - 1) * a := by
      refine add_le_add ((abs_float_sub_le hr x).trans ?_) h.off_le
      have hroom : |x| * (1 / 2 ^ p) ≤ slack p ^ m * a * (1 / 2 ^ p) :=
        mul_le_mul_of_nonneg_right hsize hpart
      have hrest : 0 ≤ slack p ^ m * a * (1 / 2 ^ p) :=
        mul_nonneg (mul_nonneg hpow.le h.size_nonneg) hpart
      have htwo : slack p ^ m * a * (2 / 2 ^ p) =
          slack p ^ m * a * (1 / 2 ^ p) + slack p ^ m * a * (1 / 2 ^ p) := by ring
      rw [htwo, div_eq_mul_one_div]
      linarith
    _ = (slack p ^ m * (1 + 2 / 2 ^ p) - 1) * a := by ring
    _ = (slack p ^ (m + 1) - 1) * a := by rw [pow_succ, slack]

/-- A figure that is far enough from zero keeps its sign. -/
theorem Within.nonpos_iff (h : Within p m a x y) (hfar : (slack p ^ m - 1) * a < |y|) :
    x ≤ 0 ↔ y ≤ 0 := by
  obtain ⟨hlo, hhi⟩ := abs_lt.mp (h.off_le.trans_lt hfar)
  rcases le_or_gt y 0 with hy | hy
  · rw [abs_of_nonpos hy] at hhi
    exact iff_of_true (by linarith) hy
  · rw [abs_of_pos hy] at hlo
    exact iff_of_false (by linarith) hy.not_ge

/-- Figures that are rounded and then added up. -/
theorem within_floatSum {r : ℚ → ℤ} (hr : Nearest r) {l : List ℚ} (hm : 1 ≤ m)
    (h : Within p m a x y) :
    Within p (m + l.length) (a + (l.map abs).sum) (floatSum r p x (l.map (float r p)))
      (y + l.sum) := by
  induction l generalizing m a x y with
  | nil => simpa [floatSum] using h
  | cons z l ih =>
    have hpart : Within p m |z| (float r p z) z := ((within_refl p z).rounded hr).mono hm
    have hrest := ih (Nat.le_add_right_of_le hm) ((h.add hpart).rounded hr)
    rw [List.map_cons, List.map_cons, floatSum, List.foldl_cons, ← floatSum, List.sum_cons,
      List.sum_cons, ← add_assoc, ← add_assoc, List.length_cons]
    have hcount : m + (l.length + 1) = m + 1 + l.length := by omega
    rw [hcount]
    exact hrest

end

end Kitaza.FloatRounding
