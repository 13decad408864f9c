import Mathlib.Algebra.BigOperators.Ring.List
import Kitaza.PhoneDatabase
import Kitaza.RowEffects

/-!
# The money of a sale on the phone and on the server

The phone adds up a cart exactly and rounds each stored figure to centavos
with halves away from zero. The server rounds every line to centavos first,
halves to the even neighbour, and adds up what is left; costs alone it adds
up exactly. The two keep the same figures exactly when no line is a half
that the server rounds down, the rounding errors of the lines stay within
half a centavo together, and a discount that takes the whole sale does not
round another way than the sale.
-/

namespace Kitaza.SaleMoney

open KeyedTable Primitives Access Schema Payloads SaleRepository SaleService SaleEffects RowEffects
open Rounding PhoneDatabase

/-- A cart line as the till makes it: a positive quantity of at most three
decimals, price and cost in whole centavos. -/
structure Priced (line : CartLine) : Prop where
  /-- Something is sold. -/
  pos : 0 < line.quantity
  /-- The quantity has at most three decimals. -/
  quantity : ∃ n : ℕ, line.quantity = n / 1000
  /-- The price is in whole centavos. -/
  unitPrice : ∃ n : ℕ, line.unitPrice = n / 100
  /-- So is the cost. -/
  unitCost : ∃ n : ℕ, line.unitCost = n / 100

/-- The phone and the server keep the same figures for a sale: total,
discount, cost, and the total of every line. -/
def SameMoney (saleId : Uuid) (phone : PhoneDb) (db : Db) : Prop :=
  ∃ row s, phone.sales.find? saleId = some row ∧ db.sales.find? saleId = some s ∧
    (row.totalAmount : ℚ) = s.totalAmount * 100 ∧
    (row.discountAmount : ℚ) = s.discountAmount * 100 ∧
    (row.costAmount : ℚ) = s.costAmount * 100 ∧
    ∀ k item, phone.saleItems.find? k = some item → item.saleId = saleId →
      ∃ item', db.saleItems.find? k = some item' ∧ (item.lineTotal : ℚ) = item'.lineTotal * 100

/-- Figures the server's decimals hold, where they count. -/
structure Fits (cart : List CartLine) (discount : ℚ) : Prop where
  /-- The prices. -/
  unitPrice : ∀ line ∈ cart, line.unitPrice < 2 ^ 96
  /-- The costs. -/
  unitCost : ∀ line ∈ cart, line.unitCost < 2 ^ 96
  /-- The quantities of what is not free. -/
  quantity : ∀ line ∈ cart, line.quantity < 2 ^ 96 ∨ line.unitPrice = 0 ∧ line.unitCost = 0
  /-- The discount taken. -/
  discount : min discount (gross cart) < 2 ^ 96

/-- When a cart comes to the same money on both sides. -/
structure MoneyAgrees (cart : List CartLine) (discount : ℚ) : Prop where
  /-- The server reads every figure. -/
  fits : Fits cart discount
  /-- No line is a half whose even neighbour is below it. -/
  lines : ∀ line ∈ cart, ¬ EvenHalf (line.total * 100)
  /-- The lines' rounding errors stay within half a centavo together. -/
  errors : -(1 / 2) ≤ (cart.map fun line => error (line.total * 100)).sum ∧
    (cart.map fun line => error (line.total * 100)).sum < 1 / 2
  /-- Nor is a sale that the discount takes whole. -/
  discount : gross cart < discount → ¬ EvenHalf (gross cart * 100)

/-- A figure as the server's decimals hold it. -/
def kept (value : ℚ) : ℚ := (fromF64 value).getD 0

theorem kept_of_lt {x : ℚ} (h : 0 ≤ x) (hx : x < 2 ^ 96) : kept x = x := by
  rw [kept, fromF64, abs_of_nonneg h, if_pos hx, Option.getD_some]

theorem kept_of_le {x : ℚ} (hx : 2 ^ 96 ≤ x) : kept x = 0 := by
  have h : 0 ≤ x := le_trans (by positivity) hx
  rw [kept, fromF64, abs_of_nonneg h, if_neg (not_lt.mpr hx), Option.getD_none]

theorem kept_nonneg {x : ℚ} (h : 0 ≤ x) : 0 ≤ kept x := by
  rcases lt_or_ge x (2 ^ 96) with hx | hx
  · rwa [kept_of_lt h hx]
  · rw [kept_of_le hx]

theorem kept_le {x : ℚ} (h : 0 ≤ x) : kept x ≤ x := by
  rcases lt_or_ge x (2 ^ 96) with hx | hx
  · rw [kept_of_lt h hx]
  · rwa [kept_of_le hx]

theorem moneyFromF64_centavos {x : ℚ} {n : ℕ} (h : x = n / 100) : moneyFromF64 x = kept x := by
  have hx : 0 ≤ x := by rw [h]; positivity
  change roundDp 2 (kept x) = kept x
  rcases lt_or_ge x (2 ^ 96) with hlt | hge
  · rw [kept_of_lt hx hlt]
    refine @roundDp_of_scaled 2 x n ?_
    rw [h]
    push_cast
    ring
  · rw [kept_of_le hge]
    exact @roundDp_of_scaled 2 0 0 (by norm_num)

theorem quantityFromF64_decimals {x : ℚ} {n : ℕ} (h : x = n / 1000) :
    quantityFromF64 x = kept x := by
  have hx : 0 ≤ x := by rw [h]; positivity
  change roundDp 3 (kept x) = kept x
  rcases lt_or_ge x (2 ^ 96) with hlt | hge
  · rw [kept_of_lt hx hlt]
    refine @roundDp_of_scaled 3 x n ?_
    rw [h]
    push_cast
    ring
  · rw [kept_of_le hge]
    exact @roundDp_of_scaled 3 0 0 (by norm_num)

theorem roundMoney_mul_hundred (x : ℚ) : roundMoney x * 100 = roundHalfEven (x * 100) := by
  have h : roundMoney x = roundHalfEven (x * 10 ^ 2) / 10 ^ 2 := rfl
  rw [h]
  norm_num

theorem numericMoney_mul_hundred {x : ℚ} (h : 0 ≤ x) :
    numericMoney x * 100 = roundHalfAway (x * 100) := by
  rw [numericMoney, if_pos h, roundHalfAway_of_nonneg (by positivity)]
  change ((⌊x * 100 + 1 / 2⌋ : ℤ) : ℚ) / 100 * 100 = _
  norm_num

section Line

variable {line : CartLine}

theorem Priced.unitPrice_nonneg (h : Priced line) : 0 ≤ line.unitPrice := by
  obtain ⟨n, hn⟩ := h.unitPrice
  rw [hn]
  positivity

theorem Priced.unitCost_nonneg (h : Priced line) : 0 ≤ line.unitCost := by
  obtain ⟨n, hn⟩ := h.unitCost
  rw [hn]
  positivity

theorem Priced.total_nonneg (h : Priced line) : 0 ≤ line.total :=
  mul_nonneg h.unitPrice_nonneg h.pos.le

/-- What the server makes of the line's price and quantity. -/
def readTotal (line : CartLine) : ℚ := kept line.unitPrice * kept line.quantity

/-- What the server makes of the line's cost and quantity. -/
def readCost (line : CartLine) : ℚ := kept line.unitCost * kept line.quantity

theorem Priced.readTotal_eq_read (h : Priced line) :
    moneyFromF64 line.unitPrice * quantityFromF64 line.quantity = readTotal line := by
  obtain ⟨n, hn⟩ := h.unitPrice
  obtain ⟨m, hm⟩ := h.quantity
  rw [moneyFromF64_centavos hn, quantityFromF64_decimals hm, readTotal]

theorem Priced.readCost_eq_read (h : Priced line) :
    moneyFromF64 line.unitCost * quantityFromF64 line.quantity = readCost line := by
  obtain ⟨n, hn⟩ := h.unitCost
  obtain ⟨m, hm⟩ := h.quantity
  rw [moneyFromF64_centavos hn, quantityFromF64_decimals hm, readCost]

/-- A product the server cannot read one figure of is far from nothing, or
one figure is zero. -/
theorem kept_mul_cases {p q : ℚ} {n m : ℕ} (hp : p = n / 100) (hq : q = m / 1000) (hpos : 0 < q) :
    (p < 2 ^ 96 ∧ (q < 2 ^ 96 ∨ p = 0)) ∨ (kept p * kept q = 0 ∧ 1 ≤ p * q) := by
  have hp0 : 0 ≤ p := by rw [hp]; positivity
  have hm : (1 : ℚ) ≤ m := by
    have : m ≠ 0 := by
      rintro rfl
      rw [hq] at hpos
      norm_num at hpos
    exact_mod_cast Nat.one_le_iff_ne_zero.mpr this
  have hq1 : 1 / 1000 ≤ q := by rw [hq]; linarith
  rcases lt_or_ge p (2 ^ 96) with hlt | hge
  · rcases lt_or_ge q (2 ^ 96) with hqlt | hqge
    · exact Or.inl ⟨hlt, Or.inl hqlt⟩
    · by_cases hz : p = 0
      · exact Or.inl ⟨hlt, Or.inr hz⟩
      · right
        refine ⟨by rw [kept_of_le hqge, mul_zero], ?_⟩
        have hn : (1 : ℚ) ≤ n := by
          have : n ≠ 0 := by
            rintro rfl
            rw [hp] at hz
            norm_num at hz
          exact_mod_cast Nat.one_le_iff_ne_zero.mpr this
        have hp1 : 1 / 100 ≤ p := by rw [hp]; linarith
        calc (1 : ℚ) ≤ 1 / 100 * 2 ^ 96 := by norm_num
          _ ≤ p * q := mul_le_mul hp1 hqge (by positivity) hp0
  · right
    refine ⟨by rw [kept_of_le hge, zero_mul], ?_⟩
    calc (1 : ℚ) ≤ 2 ^ 96 * (1 / 1000) := by norm_num
      _ ≤ p * q := mul_le_mul hge hq1 (by positivity) hp0

theorem kept_mul_eq {p q : ℚ} (hp : 0 ≤ p) (hq : 0 ≤ q) (h : p < 2 ^ 96 ∧ (q < 2 ^ 96 ∨ p = 0)) :
    kept p * kept q = p * q := by
  rw [kept_of_lt hp h.1]
  rcases h.2 with hlt | hz
  · rw [kept_of_lt hq hlt]
  · rw [hz, zero_mul, zero_mul]

theorem readTotal_eq (h : Priced line) (hp : line.unitPrice < 2 ^ 96)
    (hq : line.quantity < 2 ^ 96 ∨ line.unitPrice = 0) : readTotal line = line.total :=
  kept_mul_eq h.unitPrice_nonneg h.pos.le ⟨hp, hq⟩

theorem readCost_eq (h : Priced line) (hc : line.unitCost < 2 ^ 96)
    (hq : line.quantity < 2 ^ 96 ∨ line.unitCost = 0) :
    readCost line = line.unitCost * line.quantity :=
  kept_mul_eq h.unitCost_nonneg h.pos.le ⟨hc, hq⟩

theorem readCost_nonneg (h : Priced line) : 0 ≤ readCost line :=
  mul_nonneg (kept_nonneg h.unitCost_nonneg) (kept_nonneg h.pos.le)

theorem readCost_le (h : Priced line) : readCost line ≤ line.unitCost * line.quantity :=
  mul_le_mul (kept_le h.unitCost_nonneg) (kept_le h.pos.le) (kept_nonneg h.pos.le)
    h.unitCost_nonneg

end Line

section Cart

variable {cart : List CartLine} {discount : ℚ}

/-- What the server's lines come to. -/
def readGross (cart : List CartLine) : ℚ := (cart.map fun line => roundMoney (readTotal line)).sum

/-- The discount the server takes. -/
def readDiscount (cart : List CartLine) (discount : ℚ) : ℚ :=
  min (moneyFromF64 (min discount (gross cart))) (readGross cart)

/-- The figures of the two sides agree. -/
structure FiguresAgree (cart : List CartLine) (discount : ℚ) : Prop where
  /-- The totals. -/
  total : (fromPesos (gross cart - min discount (gross cart)) : ℚ) =
    (readGross cart - readDiscount cart discount) * 100
  /-- The discounts. -/
  discount : (fromPesos (min discount (gross cart)) : ℚ) = readDiscount cart discount * 100
  /-- The costs. -/
  cost : (fromPesos (cost cart) : ℚ) = numericMoney (cart.map readCost).sum * 100
  /-- The lines. -/
  lines : ∀ line ∈ cart, (fromPesos line.total : ℚ) = roundMoney (readTotal line) * 100

theorem gross_nonneg (hcart : ∀ line ∈ cart, Priced line) : 0 ≤ gross cart := by
  apply List.sum_nonneg
  intro x hx
  obtain ⟨line, hline, rfl⟩ := List.mem_map.mp hx
  exact (hcart line hline).total_nonneg

theorem roundHalfEven_nonneg {x : ℚ} (h : 0 ≤ x) : 0 ≤ roundHalfEven x := by
  have hfloor : 0 ≤ x.floor := Int.floor_nonneg.mpr h
  rw [roundHalfEven]
  split_ifs <;> omega

theorem readTotal_nonneg {line : CartLine} (h : Priced line) : 0 ≤ readTotal line :=
  mul_nonneg (kept_nonneg h.unitPrice_nonneg) (kept_nonneg h.pos.le)

theorem readGross_mul_hundred (cart : List CartLine) : readGross cart * 100 =
    ((cart.map fun line => roundHalfEven (readTotal line * 100)).sum : ℤ) := by
  unfold readGross
  induction cart with
  | nil => simp
  | cons line rest ih =>
    simp only [List.map_cons, List.sum_cons, Int.cast_add]
    rw [add_mul, ih, roundMoney_mul_hundred]

theorem readGross_nonneg (hcart : ∀ line ∈ cart, Priced line) : 0 ≤ readGross cart := by
  have h : 0 ≤ (cart.map fun line => roundHalfEven (readTotal line * 100)).sum := by
    apply List.sum_nonneg
    intro x hx
    obtain ⟨line, hline, rfl⟩ := List.mem_map.mp hx
    exact roundHalfEven_nonneg (mul_nonneg (readTotal_nonneg (hcart line hline)) (by norm_num))
  have hcast : (0 : ℚ) ≤ readGross cart * 100 := by
    rw [readGross_mul_hundred]
    exact_mod_cast h
  linarith

/-- A line the server cannot read is not one it agrees on. -/
theorem fits_of_line {line : CartLine} (h : Priced line)
    (he : (fromPesos line.total : ℚ) = roundMoney (readTotal line) * 100) :
    line.unitPrice < 2 ^ 96 ∧ (line.quantity < 2 ^ 96 ∨ line.unitPrice = 0) := by
  obtain ⟨n, hn⟩ := h.unitPrice
  obtain ⟨m, hm⟩ := h.quantity
  rcases kept_mul_cases hn hm h.pos with hfits | ⟨hzero, hone⟩
  · exact hfits
  · exfalso
    have hread : readTotal line = 0 := hzero
    have hpos : 0 < fromPesos line.total :=
      roundHalfAway_pos (by
        have : 1 ≤ line.total := hone
        linarith)
    rw [roundMoney_mul_hundred, hread, zero_mul] at he
    have hz : fromPesos line.total = roundHalfEven 0 := by exact_mod_cast he
    have h0 : roundHalfEven 0 = 0 := roundHalfEven_intCast 0
    omega

/-- Nor is a cart with a cost the server cannot read. -/
theorem fits_of_cost (hcart : ∀ line ∈ cart, Priced line)
    (he : (fromPesos (cost cart) : ℚ) = numericMoney (cart.map readCost).sum * 100) :
    ∀ line ∈ cart, line.unitCost < 2 ^ 96 ∧ (line.quantity < 2 ^ 96 ∨ line.unitCost = 0) := by
  intro line hline
  have h := hcart line hline
  obtain ⟨n, hn⟩ := h.unitCost
  obtain ⟨m, hm⟩ := h.quantity
  rcases kept_mul_cases hn hm h.pos with hfits | ⟨hzero, hone⟩
  · exact hfits
  · exfalso
    have hread : readCost line = 0 := hzero
    have hnonneg : 0 ≤ (cart.map readCost).sum := by
      apply List.sum_nonneg
      intro x hx
      obtain ⟨l, hl, rfl⟩ := List.mem_map.mp hx
      exact readCost_nonneg (hcart l hl)
    -- the cost that was not read is missing from the server's sum
    have hgap : (cart.map readCost).sum + 1 ≤ cost cart := by
      have hsplit : cost cart = (cart.map readCost).sum +
          (cart.map fun l => l.unitCost * l.quantity - readCost l).sum := by
        rw [← List.sum_map_add, cost]
        simp only [add_sub_cancel]
      have hterm := @List.single_le_sum ℚ _ _ _ (cart.map fun l => l.unitCost * l.quantity -
          readCost l) (by
        intro x hx
        obtain ⟨l, hl, rfl⟩ := List.mem_map.mp hx
        exact sub_nonneg.mpr (readCost_le (hcart l hl))) _ (List.mem_map_of_mem hline)
      rw [hread, sub_zero] at hterm
      linarith
    rw [numericMoney_mul_hundred hnonneg] at he
    have he' : fromPesos (cost cart) = roundHalfAway ((cart.map readCost).sum * 100) := by
      exact_mod_cast he
    have hmono := roundHalfAway_mono
      (show (0 : ℚ) ≤ (cart.map readCost).sum * 100 + 100 by positivity)
      (show (cart.map readCost).sum * 100 + 100 ≤ cost cart * 100 by linarith)
    have hshift := @roundHalfAway_sub_intCast ((cart.map readCost).sum * 100 + 100) 100
      (by positivity) (by push_cast; linarith [mul_nonneg hnonneg (by norm_num : (0 : ℚ) ≤ 100)])
    push_cast at hshift
    rw [add_sub_cancel_right] at hshift
    rw [fromPesos] at he'
    omega

/-- Nor one with a discount it cannot read. -/
theorem fits_of_discount (hcart : ∀ line ∈ cart, Priced line)
    (he : (fromPesos (min discount (gross cart)) : ℚ) = readDiscount cart discount * 100) :
    min discount (gross cart) < 2 ^ 96 := by
  by_contra hge
  rw [not_lt] at hge
  have hzero : moneyFromF64 (min discount (gross cart)) = 0 := by
    change roundDp 2 (kept _) = 0
    rw [kept_of_le hge]
    exact @roundDp_of_scaled 2 0 0 (by norm_num)
  rw [readDiscount, hzero, min_eq_left (readGross_nonneg hcart), zero_mul] at he
  have hpos : 0 < fromPesos (min discount (gross cart)) :=
    roundHalfAway_pos (by
      have : (1 : ℚ) ≤ 2 ^ 96 := by norm_num
      linarith)
  have hz : fromPesos (min discount (gross cart)) = 0 := by exact_mod_cast he
  omega

theorem gross_mul_hundred (cart : List CartLine) :
    gross cart * 100 = (cart.map fun line => line.total * 100).sum := by
  rw [gross, List.sum_map_mul_right]

/-- Total and discount agree exactly when the rounded lines add up to the
rounded sale, and a discount that takes the sale whole rounds as the sale. -/
theorem amounts_iff (hcart : ∀ line ∈ cart, Priced line) (hd : ∃ n : ℕ, discount = n / 100)
    (hfits : min discount (gross cart) < 2 ^ 96) {total : ℤ}
    (htotal : readGross cart * 100 = total) :
    ((fromPesos (gross cart - min discount (gross cart)) : ℚ) =
        (readGross cart - readDiscount cart discount) * 100 ∧
      (fromPesos (min discount (gross cart)) : ℚ) = readDiscount cart discount * 100) ↔
    total = roundHalfAway (gross cart * 100) ∧
      (gross cart < discount → roundHalfEven (gross cart * 100) =
        roundHalfAway (gross cart * 100)) := by
  have hg : 0 ≤ gross cart * 100 := mul_nonneg (gross_nonneg hcart) (by norm_num)
  have hmin : readDiscount cart discount * 100 =
      min (moneyFromF64 (min discount (gross cart)) * 100) (readGross cart * 100) := by
    rw [readDiscount, min_mul_of_nonneg _ _ (by norm_num : (0 : ℚ) ≤ 100)]
  rw [sub_mul, hmin, htotal, fromPesos, fromPesos, sub_mul]
  rcases le_or_gt discount (gross cart) with hle | hlt
  · -- the discount is a whole number of centavos
    obtain ⟨n, hn⟩ := hd
    have hn100 : discount * 100 = (n : ℤ) := by
      rw [hn]
      push_cast
      ring
    have hn0 : 0 ≤ discount := by rw [hn]; positivity
    rw [min_eq_left hle] at hfits ⊢
    rw [moneyFromF64_centavos hn, kept_of_lt hn0 hfits, hn100,
      roundHalfAway_sub_intCast hg (by rw [← hn100]; linarith),
      roundHalfAway_intCast (Int.natCast_nonneg n)]
    have hnle : (n : ℤ) ≤ roundHalfAway (gross cart * 100) := by
      rw [← roundHalfAway_intCast (Int.natCast_nonneg n), ← hn100]
      exact roundHalfAway_mono (by positivity) (by linarith)
    have hnot : ¬ gross cart < discount := not_lt.mpr hle
    norm_cast
    simp only [hnot, false_implies, and_true]
    omega
  · -- the discount takes the sale whole
    rw [min_eq_right hlt.le] at hfits ⊢
    have hread : moneyFromF64 (gross cart) * 100 = roundHalfEven (gross cart * 100) := by
      have hk : moneyFromF64 (gross cart) = roundMoney (kept (gross cart)) := rfl
      rw [hk, roundMoney_mul_hundred, kept_of_lt (gross_nonneg hcart) hfits]
    have hz : roundHalfAway 0 = 0 := by
      have h := @roundHalfAway_intCast 0 le_rfl
      exact_mod_cast h
    have hle := roundHalfEven_le_away hg
    rw [hread, sub_self, hz]
    norm_cast
    simp only [hlt, true_implies]
    omega

/-- The figures agree exactly when the conditions on the cart hold. -/
theorem figures_iff (hcart : ∀ line ∈ cart, Priced line) (hd : ∃ n : ℕ, discount = n / 100) :
    FiguresAgree cart discount ↔ MoneyAgrees cart discount := by
  have hg : 0 ≤ gross cart * 100 := mul_nonneg (gross_nonneg hcart) (by norm_num)
  -- what holds once the server reads every figure
  have hread : (∀ line ∈ cart, readTotal line = line.total) → readGross cart * 100 =
      ((cart.map fun line => line.total * 100).map roundHalfEven).sum := by
    intro h
    rw [readGross_mul_hundred, List.map_map]
    congr 2
    apply List.map_congr_left
    intro line hline
    rw [h line hline]
    rfl
  have herrors := @sum_rounded_iff (cart.map fun line => line.total * 100)
    (by rw [← gross_mul_hundred]; exact hg)
  have hmap : (cart.map fun line => line.total * 100).map error =
      cart.map fun line => error (line.total * 100) := List.map_map
  rw [← gross_mul_hundred, hmap] at herrors
  have hlines : (∀ line ∈ cart, readTotal line = line.total) →
      ((∀ line ∈ cart, (fromPesos line.total : ℚ) = roundMoney (readTotal line) * 100) ↔
        ∀ line ∈ cart, ¬ EvenHalf (line.total * 100)) := by
    intro h
    refine forall₂_congr fun line hline => ?_
    have hx : 0 ≤ line.total * 100 := mul_nonneg (hcart line hline).total_nonneg (by norm_num)
    rw [h line hline, roundMoney_mul_hundred, ← roundHalfEven_eq_away_iff hx, eq_comm, fromPesos]
    norm_cast
  constructor
  · intro h
    have hline := fun line hl => fits_of_line (hcart line hl) (h.lines line hl)
    have hcost := fits_of_cost hcart h.cost
    have htotal : ∀ line ∈ cart, readTotal line = line.total := fun line hl =>
      readTotal_eq (hcart line hl) (hline line hl).1 (hline line hl).2
    have hdisc := fits_of_discount hcart h.discount
    obtain ⟨hsum, hwhole⟩ := (amounts_iff hcart hd hdisc (hread htotal)).mp ⟨h.total, h.discount⟩
    refine ⟨⟨fun l hl => (hline l hl).1, fun l hl => (hcost l hl).1, ?_, hdisc⟩,
      (hlines htotal).mp h.lines, herrors.mp hsum, ?_⟩
    · intro l hl
      rcases (hline l hl).2 with hq | hp
      · exact Or.inl hq
      · exact (hcost l hl).2.imp id fun hc => ⟨hp, hc⟩
    · intro hlt
      exact (roundHalfEven_eq_away_iff hg).mp (hwhole hlt)
  · intro h
    have htotal : ∀ line ∈ cart, readTotal line = line.total := fun line hl =>
      readTotal_eq (hcart line hl) (h.fits.unitPrice line hl)
        ((h.fits.quantity line hl).imp id And.left)
    obtain ⟨hamount, hdiscount⟩ := (amounts_iff hcart hd h.fits.discount (hread htotal)).mpr
      ⟨herrors.mpr h.errors, fun hlt => (roundHalfEven_eq_away_iff hg).mpr (h.discount hlt)⟩
    refine ⟨hamount, hdiscount, ?_, (hlines htotal).mpr h.lines⟩
    have hcosts : cart.map readCost = cart.map fun line => line.unitCost * line.quantity := by
      apply List.map_congr_left
      intro line hl
      exact readCost_eq (hcart line hl) (h.fits.unitCost line hl)
        ((h.fits.quantity line hl).imp id And.right)
    have hnonneg : 0 ≤ cost cart := by
      apply List.sum_nonneg
      intro x hx
      obtain ⟨line, hl, rfl⟩ := List.mem_map.mp hx
      exact mul_nonneg (hcart line hl).unitCost_nonneg (hcart line hl).pos.le
    rw [hcosts, ← cost, numericMoney_mul_hundred hnonneg, fromPesos]

end Cart

/-- A line of the phone as the server prepares it. -/
structure ReadAs (l : SaleLine) (line : PreparedLine) : Prop where
  /-- The identifier is the phone's. -/
  id : line.id = l.id
  /-- Price and quantity are read, and the total is rounded. -/
  lineTotal : line.lineTotal = roundMoney (moneyFromF64 l.unitPrice * quantityFromF64 l.quantity)
  /-- Cost and quantity are read. -/
  cost : line.unitCost * line.quantity = moneyFromF64 l.unitCost * quantityFromF64 l.quantity

/-- A phone names price and cost of every line, so the catalogue is not
asked for them. -/
theorem resolveLine_readAs {storeId lineId : Uuid} {db : Db} {l : SaleLine} {line : PreparedLine}
    (h : resolveLine storeId lineId l.toPushJson db = .ok line) (hid : lineId = l.id) :
    ReadAs l line := by
  subst hid
  obtain ⟨_, _, _, _, rfl⟩ | ⟨unitPrice, _, hprice, rfl⟩ := resolveLine_iff.mp h
  · exact ⟨rfl, rfl, rfl⟩
  · cases hprice
    exact ⟨rfl, rfl, rfl⟩

theorem resolveLines_readAs {storeId : Uuid} {db : Db} {ls : List SaleLine} {i : ℕ}
    {lines : List PreparedLine}
    (h : resolveLines storeId db (ls.map SaleLine.toPushJson) i = .ok lines) :
    List.Forall₂ ReadAs ls lines := by
  induction ls generalizing i lines with
  | nil =>
    cases h
    exact List.Forall₂.nil
  | cons l rest ih =>
    obtain ⟨line, hline, h⟩ := bind_eq_ok.mp h
    obtain ⟨others, hothers, h⟩ := bind_eq_ok.mp h
    cases h
    exact List.Forall₂.cons (resolveLine_readAs hline rfl) (ih hothers)

theorem readAs_of_mem {ls : List SaleLine} {lines : List PreparedLine}
    (h : List.Forall₂ ReadAs ls lines) {l : SaleLine} (hl : l ∈ ls) :
    ∃ line ∈ lines, ReadAs l line := by
  induction h with
  | nil => cases hl
  | cons hread _ ih =>
    rcases List.mem_cons.mp hl with rfl | hl
    · exact ⟨_, List.mem_cons_self, hread⟩
    · obtain ⟨line, hline, hr⟩ := ih hl
      exact ⟨line, List.mem_cons_of_mem _ hline, hr⟩

/-- Figures of prepared lines add up as those of the phone's lines. -/
theorem sum_of_readAs {ls : List SaleLine} {lines : List PreparedLine}
    (h : List.Forall₂ ReadAs ls lines) :
    (lines.map PreparedLine.lineTotal).sum = (ls.map fun l =>
        roundMoney (moneyFromF64 l.unitPrice * quantityFromF64 l.quantity)).sum ∧
      (lines.map fun line => line.unitCost * line.quantity).sum = (ls.map fun l =>
        moneyFromF64 l.unitCost * quantityFromF64 l.quantity).sum := by
  induction h with
  | nil => exact ⟨rfl, rfl⟩
  | cons hl _ ih =>
    simp only [List.map_cons, List.sum_cons]
    rw [ih.1, ih.2, hl.lineTotal, hl.cost]
    exact ⟨rfl, rfl⟩

/-- What only price, cost and quantity of a line decide is the cart's. -/
theorem map_saleLines {β : Type*} (f : ℚ → ℚ → ℚ → β) (saleId : Uuid) (drawn : ℕ → Uuid)
    (cart : List CartLine) :
    ((saleLines saleId drawn cart).map fun l => f l.unitPrice l.unitCost l.quantity) =
      cart.map fun line => f line.unitPrice line.unitCost line.quantity := by
  apply List.ext_getElem?
  intro i
  rw [saleLines, List.getElem?_map, List.getElem?_mapIdx, List.getElem?_map, Option.map_map]
  rfl

/-- The server's sums for the lines of a cart are those read from the cart. -/
theorem sums_of_cart {cart : List CartLine} (hcart : ∀ line ∈ cart, Priced line) {saleId : Uuid}
    {drawn : ℕ → Uuid} {lines : List PreparedLine}
    (h : List.Forall₂ ReadAs (saleLines saleId drawn cart) lines) :
    (lines.map PreparedLine.lineTotal).sum = readGross cart ∧
      (lines.map fun line => line.unitCost * line.quantity).sum = (cart.map readCost).sum := by
  obtain ⟨hgross, hcosts⟩ := sum_of_readAs h
  constructor
  · rw [hgross, map_saleLines fun p _ q => roundMoney (moneyFromF64 p * quantityFromF64 q),
      readGross]
    refine congrArg List.sum (List.map_congr_left fun line hline => ?_)
    rw [(hcart line hline).readTotal_eq_read]
  · rw [hcosts, map_saleLines fun _ c q => moneyFromF64 c * quantityFromF64 q]
    refine congrArg List.sum (List.map_congr_left fun line hline => ?_)
    rw [(hcart line hline).readCost_eq_read]

/-- What a recording by the owner's phone leaves in the server's tables. -/
structure Stored (sale : PhoneDatabase.Sale) (lines : List PreparedLine) (db' : Db) : Prop where
  /-- The lines are the phone's. -/
  readAs : List.Forall₂ ReadAs sale.lines lines
  /-- The sale carries their figures. -/
  row : ∃ s, db'.sales.find? sale.id = some s ∧
    s.discountAmount =
      min (moneyFromF64 sale.discountAmount) (lines.map PreparedLine.lineTotal).sum ∧
    s.totalAmount = (lines.map PreparedLine.lineTotal).sum - s.discountAmount ∧
    s.costAmount = numericMoney (lines.map fun line => line.unitCost * line.quantity).sum
  /-- Each line is stored. -/
  items : ∀ line ∈ lines, db'.saleItems.find? line.id = some (storedLine sale.id line)

/-- Each line of the cart has its row on the server, rounded from what is read. -/
theorem Stored.row_of_line {cart : List CartLine} (hcart : ∀ line ∈ cart, Priced line)
    {sale : PhoneDatabase.Sale} {drawn : ℕ → Uuid} {lines : List PreparedLine} {db' : Db}
    (h : Stored sale lines db') (hlines : sale.lines = saleLines sale.id drawn cart) {i : ℕ}
    (hi : i < cart.length) :
    ∃ item, db'.saleItems.find? (drawn i) = some item ∧
      item.lineTotal = roundMoney (readTotal cart[i]) := by
  have hl : (⟨drawn i, sale.id, cart[i].productId, cart[i].productName, cart[i].quantity,
      cart[i].unitPrice, cart[i].unitCost⟩ : SaleLine) ∈ sale.lines := by
    rw [hlines]
    exact List.mem_mapIdx.mpr ⟨i, hi, rfl⟩
  obtain ⟨prepared, hprepared, hread⟩ := readAs_of_mem h.readAs hl
  refine ⟨storedLine sale.id prepared, ?_, ?_⟩
  · have hid : prepared.id = drawn i := hread.id
    rw [← hid]
    exact h.items prepared hprepared
  · change prepared.lineTotal = _
    rw [hread.lineTotal, (hcart _ (List.getElem_mem hi)).readTotal_eq_read]

theorem stored_of_record {storeId : Uuid} {now : Timestamp} {actor : Actor}
    {sale : PhoneDatabase.Sale} {db db' : Db} {detail : SaleDetail} (howner : actor.isOwner = true)
    (hlive : ∀ s, db.sales.find? sale.id = some s → s.deletedAt = none)
    (h : SaleService.record now storeId actor sale.toPushJson db = .ok (detail, db')) :
    ∃ lines, Stored sale lines db' := by
  obtain ⟨method, hmethod, h⟩ := bind_eq_ok.mp h
  obtain ⟨lines, hlines, h⟩ := bind_eq_ok.mp h
  obtain ⟨⟨recorded, db₁⟩, hrecord, h⟩ := bind_eq_ok.mp h
  have hvisible : visibleItems actor sale.toPushJson.items = sale.lines.map SaleLine.toPushJson :=
    if_pos (Actor.can_of_isOwner howner .viewProfit)
  rw [hvisible] at hlines
  have hsame : db'.sales = db₁.sales ∧ db'.saleItems = db₁.saleItems := by
    cases h
    split_ifs <;> exact ⟨rfl, rfl⟩
  -- whether new or known, the sale is written from these lines
  have hwritten : ∀ db₀ staffId, LinesWritten now (Uuid.newV4 db.stockMovements)
      (prepareSale now storeId sale.id method sale.toPushJson lines) lines 0
      (readied now (prepareSale now storeId sale.id method sale.toPushJson lines) staffId db₀)
      db₁ → Stored sale lines db' := by
    intro db₀ staffId hw
    refine ⟨resolveLines_readAs hlines, ?_, ?_⟩
    · refine ⟨upsertedSale now (prepareSale now storeId sale.id method sale.toPushJson lines)
        staffId (db₀.sales.find? sale.id), ?_, ?_⟩
      · rw [hsame.1, hw.sales]
        exact Table.find?_put_self _ _ _
      · cases db₀.sales.find? sale.id <;> exact ⟨rfl, rfl, rfl⟩
    · intro line hline
      rw [hsame.2, hw.saleItems]
      exact Or.inl ⟨line, hline, rfl, rfl⟩
  have hrecorded := saleRecorded_of_ok (Uuid.newV4_injective _) (Uuid.find?_newV4 _) hrecord
  cases hrecorded with
  | voided existing stored own gone same => exact absurd (hlive existing stored) gone
  | new unknown writable written => exact ⟨lines, hwritten _ _ written⟩
  | again existing stored own live may writable written => exact ⟨lines, hwritten _ _ written⟩

/-- What recording a sale leaves in the phone's tables. -/
theorem phone_of_record {storeId : Uuid} {t : Timestamp} {sale : PhoneDatabase.Sale}
    {phone phone' : PhoneDb} (hids : ∀ l ∈ sale.lines, l.saleId = sale.id)
    (h : recordSale storeId t sale phone = some phone') :
    phone'.sales.find? sale.id = some (sale.toRow storeId t) ∧
      ∀ k item, (phone'.saleItems.find? k = some item ∧ item.saleId = sale.id) ↔
        ∃ l ∈ sale.lines, l.id = k ∧ item = l.toRow := by
  rw [recordSale, Option.map_eq_some_iff] at h
  obtain ⟨mid, hmid, rfl⟩ := h
  have hins := insertLines_inserted hmid
  refine ⟨?_, ?_⟩
  · change mid.sales.find? sale.id = _
    rw [hins.sales]
    exact Table.find?_put_self _ _ _
  · intro k item
    change mid.saleItems.find? k = some item ∧ _ ↔ _
    rw [hins.saleItems, Table.find?_filter_eq_some]
    constructor
    · rintro ⟨hline | ⟨_, hother⟩, hsale⟩
      · exact hline
      · simp [hsale] at hother
    · rintro ⟨l, hl, hk, rfl⟩
      exact ⟨Or.inl ⟨l, hl, hk, rfl⟩, hids l hl⟩

/-- For every cart of whole centavos and every discount, what the phone
stores with the sale and what the server stores when the owner's phone
pushes it are the same money exactly when the cart allows it. -/
theorem same_money_iff {cart : List CartLine} {discount : ℚ}
    (hcart : ∀ line ∈ cart, Priced line) (hd : ∃ n : ℕ, discount = n / 100)
    {saleId phoneStore storeId : Uuid} {drawn : ℕ → Uuid} {method : PaymentMethod}
    {note : Option String} {occurredAt t now : Timestamp} {sale : PhoneDatabase.Sale}
    {phone phone' : PhoneDb} {actor : Actor} {db db' : Db} {detail : SaleDetail}
    (hbuild : buildSale saleId drawn cart method discount note occurredAt = some sale)
    (hphone : recordSale phoneStore t sale phone = some phone') (howner : actor.isOwner = true)
    (hlive : ∀ s, db.sales.find? saleId = some s → s.deletedAt = none)
    (hserver : SaleService.record now storeId actor sale.toPushJson db = .ok (detail, db')) :
    SameMoney saleId phone' db' ↔ MoneyAgrees cart discount := by
  have hd0 : 0 ≤ discount := by
    obtain ⟨n, hn⟩ := hd
    rw [hn]
    positivity
  -- the phone's sale
  have hg := gross_nonneg hcart
  rw [buildSale, clamp, if_neg (not_lt.mpr hg), Option.map_some, Option.some.injEq,
    max_eq_right (le_min hd0 hg)] at hbuild
  subst hbuild
  have hids : ∀ l ∈ saleLines saleId drawn cart, l.saleId = saleId := by
    intro l hl
    obtain ⟨i, hi, rfl⟩ := List.mem_mapIdx.mp hl
    rfl
  obtain ⟨hrow, hitems⟩ := phone_of_record hids hphone
  obtain ⟨lines, hstored⟩ := stored_of_record howner hlive hserver
  obtain ⟨s, hs, hdisc, htotal, hcost⟩ := hstored.row
  obtain ⟨hreadGross, hreadCost⟩ := sums_of_cart hcart hstored.readAs
  rw [hreadGross] at hdisc htotal
  rw [hreadCost] at hcost
  have hdisc' : s.discountAmount = readDiscount cart discount := hdisc
  rw [hdisc'] at htotal
  rw [← figures_iff hcart hd]
  constructor
  · rintro ⟨row, s', hrow', hs', h₁, h₂, h₃, h₄⟩
    rw [hrow] at hrow'
    rw [hs] at hs'
    cases hrow'
    cases hs'
    rw [htotal] at h₁
    rw [hdisc'] at h₂
    rw [hcost] at h₃
    refine ⟨h₁, h₂, h₃, fun line hmem => ?_⟩
    obtain ⟨i, hi, rfl⟩ := List.getElem_of_mem hmem
    have hl : (⟨drawn i, saleId, cart[i].productId, cart[i].productName, cart[i].quantity,
        cart[i].unitPrice, cart[i].unitCost⟩ : SaleLine) ∈ saleLines saleId drawn cart :=
      List.mem_mapIdx.mpr ⟨i, hi, rfl⟩
    obtain ⟨hfound, hsale⟩ := (hitems _ _).mpr ⟨_, hl, rfl, rfl⟩
    obtain ⟨item', hitem', heq⟩ := h₄ _ _ hfound hsale
    obtain ⟨item, hitem, htot⟩ := hstored.row_of_line hcart rfl hi
    have hsame : some item' = some item := hitem'.symm.trans hitem
    cases hsame
    rw [← htot]
    exact heq
  · intro h
    refine ⟨_, s, hrow, hs, ?_, ?_, ?_, ?_⟩
    · rw [htotal]
      exact h.total
    · rw [hdisc']
      exact h.discount
    · rw [hcost]
      exact h.cost
    · intro k item hk hsale
      obtain ⟨l, hl, rfl, rfl⟩ := (hitems k item).mp ⟨hk, hsale⟩
      obtain ⟨i, hi, rfl⟩ := List.mem_mapIdx.mp hl
      obtain ⟨item', hitem', htot⟩ := hstored.row_of_line hcart rfl hi
      refine ⟨item', hitem', ?_⟩
      rw [htot]
      exact h.lines cart[i] (List.getElem_mem hi)

/-- An eighth of a kilo at one peso, twelve and a half centavos. -/
def pinch : List CartLine := [⟨none, "Salt", 1 / 8, 1, 0⟩]

/-- Its sale. -/
def pinchSale : PhoneDatabase.Sale :=
  ⟨⟨20⟩, .cash, 1 / 8, 0, 0, none, 5, [⟨⟨21⟩, ⟨20⟩, none, "Salt", 1 / 8, 1, 0⟩]⟩

/-- The owner's phone after it. -/
def pinchPhone : PhoneDb := (recordSale ⟨1⟩ 5 pinchSale PhoneDb.empty).getD PhoneDb.empty

/-- The owner. -/
def stallOwner : Actor := ⟨⟨2⟩, "Ana", "Phone", none⟩

/-- The server after it. -/
def pinchDb : Db :=
  match SaleService.record 6 ⟨1⟩ stallOwner pinchSale.toPushJson Db.empty with
  | .ok (_, db) => db
  | .error _ => Db.empty

theorem pinch_priced : ∀ line ∈ pinch, Priced line := by
  intro line hline
  rw [pinch, List.mem_singleton] at hline
  subst hline
  exact ⟨by norm_num, ⟨125, by norm_num⟩, ⟨100, by norm_num⟩, ⟨0, by norm_num⟩⟩

theorem pinchSale_built :
    buildSale ⟨20⟩ (fun i => ⟨21 + i⟩) pinch .cash 0 none 5 = some pinchSale := by
  decide +kernel

theorem pinchPhone_recorded : recordSale ⟨1⟩ 5 pinchSale PhoneDb.empty = some pinchPhone := by
  have h : (recordSale ⟨1⟩ 5 pinchSale PhoneDb.empty).isSome = true := by decide +kernel
  obtain ⟨phone, hphone⟩ := Option.isSome_iff_exists.mp h
  rw [pinchPhone, hphone, Option.getD_some]

theorem pinchDb_recorded : ∃ detail,
    SaleService.record 6 ⟨1⟩ stallOwner pinchSale.toPushJson Db.empty = .ok (detail, pinchDb) := by
  have h : (SaleService.record 6 ⟨1⟩ stallOwner pinchSale.toPushJson Db.empty).isOk = true := by
    decide +kernel
  rw [pinchDb]
  cases hr : SaleService.record 6 ⟨1⟩ stallOwner pinchSale.toPushJson Db.empty with
  | error e =>
    rw [hr] at h
    cases h
  | ok result => exact ⟨result.1, rfl⟩

/-- The pinch of salt is the kind of cart that differs. -/
theorem same_money_iff_pinch : ¬ SameMoney ⟨20⟩ pinchPhone pinchDb := by
  obtain ⟨detail, hserver⟩ := pinchDb_recorded
  rw [same_money_iff pinch_priced ⟨0, by norm_num⟩ pinchSale_built pinchPhone_recorded rfl
    (fun s hs => by cases hs) hserver]
  intro h
  refine h.lines ⟨none, "Salt", 1 / 8, 1, 0⟩ List.mem_cons_self ?_
  decide +kernel

/-- The phone keeps thirteen centavos for it and the server twelve. -/
theorem pinch_differs :
    buildSale ⟨20⟩ (fun i => ⟨21 + i⟩) pinch .cash 0 none 5 = some pinchSale ∧
      recordSale ⟨1⟩ 5 pinchSale PhoneDb.empty = some pinchPhone ∧
      (∃ detail, SaleService.record 6 ⟨1⟩ stallOwner pinchSale.toPushJson Db.empty =
        .ok (detail, pinchDb)) ∧
      (pinchPhone.sales.find? ⟨20⟩).map SaleRow.totalAmount = some 13 ∧
      (pinchDb.sales.find? ⟨20⟩).map Schema.Sale.totalAmount = some (12 / 100) ∧
      ¬ SameMoney ⟨20⟩ pinchPhone pinchDb := by
  have hphone : (pinchPhone.sales.find? ⟨20⟩).map SaleRow.totalAmount = some 13 := by
    decide +kernel
  have hserver : (pinchDb.sales.find? ⟨20⟩).map Schema.Sale.totalAmount = some (12 / 100) := by
    decide +kernel
  refine ⟨pinchSale_built, pinchPhone_recorded, pinchDb_recorded, hphone, hserver, ?_⟩
  rintro ⟨row, s, hrow, hs, htotal, _⟩
  rw [hrow] at hphone
  rw [hs] at hserver
  have h₁ : row.totalAmount = 13 := Option.some.inj hphone
  have h₂ : s.totalAmount = 12 / 100 := Option.some.inj hserver
  rw [h₁, h₂] at htotal
  norm_num at htotal

end Kitaza.SaleMoney
