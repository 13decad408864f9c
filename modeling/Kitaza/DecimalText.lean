import Mathlib.Data.Char
import Mathlib.Data.List.Lex
import Mathlib.Tactic.Linarith
import Mathlib.Tactic.IntervalCases

/-!
# Decimal texts in dictionary order

Numbers written with a fixed number of digits stand in dictionary order as
they stand by size. Fractions that are cut short, after their last digit or
after one that is not nought, are ordered by what follows the cut: a mark
below every digit keeps their order, and a mark above every digit sends a
short fraction past the longer ones that start like it.
-/

namespace Kitaza.DecimalText

/-- Beginnings of one length decide, and what follows only where they agree. -/
theorem append_lt_append_iff {α : Type} [LinearOrder α] {p q : List α} (h : p.length = q.length)
    (s t : List α) : p ++ s < q ++ t ↔ p < q ∨ p = q ∧ s < t := by
  induction p generalizing q with
  | nil =>
    rw [List.eq_nil_of_length_eq_zero h.symm, List.nil_append, List.nil_append]
    exact ⟨fun hlt => Or.inr ⟨rfl, hlt⟩, fun hor => hor.elim (fun hlt => absurd hlt (List.not_lt_nil _))
      And.right⟩
  | cons a p ih =>
    cases q with
    | nil => cases h
    | cons b q =>
      have hlength : p.length = q.length := Nat.succ.inj h
      rw [List.cons_append, List.cons_append, List.cons_lt_cons_iff, List.cons_lt_cons_iff, ih hlength,
        List.cons.injEq]
      tauto

/-- The sign of a digit. -/
def digit (d : ℕ) : Char := Char.ofNat (48 + d)

/-- The last digits of a number, as many as asked for. -/
def digits : ℕ → ℕ → List Char
  | 0, _ => []
  | w + 1, n => digit (n / 10 ^ w % 10) :: digits w n

/-- A character that stands for a digit. -/
def IsDigit (c : Char) : Prop := '0' ≤ c ∧ c ≤ '9'

@[simp] theorem length_digits (w n : ℕ) : (digits w n).length = w := by
  induction w with
  | zero => rfl
  | succ w ih => rw [digits, List.length_cons, ih]

theorem digit_lt_digit : ∀ a < 10, ∀ b < 10, (digit a < digit b ↔ a < b) := by decide

theorem digit_inj : ∀ a < 10, ∀ b < 10, (digit a = digit b ↔ a = b) := by decide

theorem isDigit_digit : ∀ d < 10, IsDigit (digit d) := by
  unfold IsDigit
  decide

theorem isDigit_of_mem_digits {w n : ℕ} {c : Char} (h : c ∈ digits w n) : IsDigit c := by
  induction w with
  | zero => cases h
  | succ w ih =>
    rcases List.mem_cons.mp h with rfl | h
    · exact isDigit_digit _ (Nat.mod_lt _ (by decide))
    · exact ih h

/-- The last digits are those of the remainder. -/
theorem digits_mod (w n : ℕ) : digits w (n % 10 ^ w) = digits w n := by
  have hlast : ∀ v w, v ≤ w → digits v (n % 10 ^ w) = digits v n := by
    intro v
    induction v with
    | zero => exact fun _ _ => rfl
    | succ v ih =>
      intro w hv
      have hpow : 10 ^ w = 10 ^ v * 10 * 10 ^ (w - (v + 1)) := by
        rw [← pow_succ, ← pow_add]
        congr 1
        omega
      have hdigit : n % 10 ^ w / 10 ^ v % 10 = n / 10 ^ v % 10 := by
        rw [hpow, mul_assoc, Nat.mod_mul_right_div_self, Nat.mod_mul_right_mod]
      rw [digits, digits, ih w (by omega), hdigit]
  exact hlast w w le_rfl

/-- The digits in front and those behind. -/
theorem digits_add (v w n : ℕ) : digits (v + w) n = digits v (n / 10 ^ w) ++ digits w n := by
  induction v with
  | zero => rw [Nat.zero_add, digits, List.nil_append]
  | succ v ih =>
    rw [Nat.succ_add, digits, digits, ih, List.cons_append, Nat.div_div_eq_div_mul, ← pow_add,
      Nat.add_comm w v]

/-- Numbers with as many digits stand in order of size. -/
theorem digits_lt_digits {w m n : ℕ} (hm : m < 10 ^ w) (hn : n < 10 ^ w) :
    digits w m < digits w n ↔ m < n := by
  induction w generalizing m n with
  | zero =>
    rw [pow_zero, Nat.lt_one_iff] at hm hn
    subst hm hn
    exact iff_of_false (List.not_lt_nil _) (lt_irrefl 0)
  | succ w ih =>
    have hpos : 0 < 10 ^ w := by positivity
    have hma : m / 10 ^ w < 10 := by rwa [Nat.div_lt_iff_lt_mul hpos, ← pow_succ']
    have hna : n / 10 ^ w < 10 := by rwa [Nat.div_lt_iff_lt_mul hpos, ← pow_succ']
    have hmsplit := Nat.div_add_mod m (10 ^ w)
    have hnsplit := Nat.div_add_mod n (10 ^ w)
    have hmrest := Nat.mod_lt m hpos
    have hnrest := Nat.mod_lt n hpos
    rw [digits, digits, List.cons_lt_cons_iff, Nat.mod_eq_of_lt hma, Nat.mod_eq_of_lt hna,
      digit_lt_digit _ hma _ hna, digit_inj _ hma _ hna, ← digits_mod w m, ← digits_mod w n,
      ih hmrest hnrest]
    constructor
    · rintro (hlt | ⟨heq, hlt⟩)
      · exact Nat.lt_of_div_lt_div hlt
      · rw [heq] at hmsplit
        omega
    · intro hlt
      rcases (Nat.div_le_div_right hlt.le).lt_or_eq with h | h
      · exact Or.inl h
      · rw [h] at hmsplit
        exact Or.inr ⟨h, by omega⟩

/-- Different numbers have different digits. -/
theorem digits_inj {w m n : ℕ} (hm : m < 10 ^ w) (hn : n < 10 ^ w) :
    digits w m = digits w n ↔ m = n := by
  refine ⟨fun heq => ?_, fun heq => by rw [heq]⟩
  have hnot : ¬digits w m < digits w n := heq ▸ List.lt_irrefl _
  have hnot' : ¬digits w n < digits w m := heq ▸ List.lt_irrefl _
  rw [digits_lt_digits hm hn] at hnot
  rw [digits_lt_digits hn hm] at hnot'
  omega

/-- A fraction without the noughts at its end. -/
def dropNoughts : List Char → List Char
  | [] => []
  | c :: cs => if c = '0' ∧ dropNoughts cs = [] then [] else c :: dropNoughts cs

/-- Nothing is added by cutting. -/
theorem mem_of_mem_dropNoughts {a : List Char} {c : Char} (h : c ∈ dropNoughts a) : c ∈ a := by
  induction a with
  | nil => exact h
  | cons d a ih =>
    rw [dropNoughts] at h
    split_ifs at h
    · cases h
    · rcases List.mem_cons.mp h with rfl | h
      · exact List.mem_cons_self
      · exact List.mem_cons_of_mem _ (ih h)

/-- What follows a fraction starts with a mark below every digit. -/
theorem dropNoughts_lt {a : List Char} {mark : Char} {c : Char} (ha : ∀ d ∈ a, IsDigit d)
    (hmark : mark < c) (hc : '9' < c) (s r : List Char) : dropNoughts a ++ mark :: s < c :: r := by
  cases a with
  | nil => exact List.cons_lt_cons_iff.mpr (Or.inl hmark)
  | cons d a =>
    rw [dropNoughts]
    split_ifs
    · exact List.cons_lt_cons_iff.mpr (Or.inl hmark)
    · exact List.cons_lt_cons_iff.mpr (Or.inl ((ha d List.mem_cons_self).2.trans_lt hc))

/-- Fractions cut short stand in order of size before a mark below every
digit. -/
theorem dropNoughts_lt_dropNoughts {a b : List Char} {mark : Char} (hlength : a.length = b.length)
    (ha : ∀ d ∈ a, IsDigit d) (hb : ∀ d ∈ b, IsDigit d) (hmark : mark < '0') (s : List Char) :
    dropNoughts a ++ mark :: s < dropNoughts b ++ mark :: s ↔ a < b := by
  induction a generalizing b with
  | nil =>
    rw [List.eq_nil_of_length_eq_zero hlength.symm]
    exact iff_of_false (List.lt_irrefl _) (List.lt_irrefl _)
  | cons c a ih =>
    cases b with
    | nil => cases hlength
    | cons d b =>
      have ih := ih (Nat.succ.inj hlength) (fun x hx => ha x (List.mem_cons_of_mem _ hx))
        (fun x hx => hb x (List.mem_cons_of_mem _ hx))
      have hmarkc : mark < c := hmark.trans_le (ha c List.mem_cons_self).1
      have hmarkd : mark < d := hmark.trans_le (hb d List.mem_cons_self).1
      rw [dropNoughts, dropNoughts, List.cons_lt_cons_iff]
      split_ifs with hc hd hd
      · rw [hc.2, hd.2] at ih
        rw [hc.1, hd.1, ← ih]
        exact iff_of_false (List.lt_irrefl _) fun h => h.elim (lt_irrefl _) fun h =>
          List.lt_irrefl _ h.2
      · -- The first is all noughts, the second is not.
        refine iff_of_true (List.cons_lt_cons_iff.mpr (Or.inl hmarkd)) ?_
        rw [hc.1]
        rcases (hb d List.mem_cons_self).1.lt_or_eq with hlt | heq
        · exact Or.inl hlt
        · refine Or.inr ⟨heq, ih.mp ?_⟩
          rw [hc.2]
          obtain ⟨x, xs, hx⟩ := List.exists_cons_of_ne_nil fun hnil => hd ⟨heq.symm, hnil⟩
          have hmem : x ∈ dropNoughts b := hx ▸ List.mem_cons_self
          rw [hx]
          exact List.cons_lt_cons_iff.mpr (Or.inl (hmark.trans_le
            (hb x (List.mem_cons_of_mem _ (mem_of_mem_dropNoughts hmem))).1))
      · refine iff_of_false (fun h => ?_) fun h => ?_
        · rcases List.cons_lt_cons_iff.mp h with hlt | ⟨heq, -⟩
          · exact lt_asymm hlt hmarkc
          · exact hmarkc.ne' heq
        · rw [hd.1] at h
          rcases h with hlt | ⟨heq, hlt⟩
          · exact absurd (ha c List.mem_cons_self).1 (not_le.mpr hlt)
          · rw [← ih, hd.2] at hlt
            obtain ⟨x, xs, hx⟩ := List.exists_cons_of_ne_nil fun hnil => hc ⟨heq, hnil⟩
            have hmem : x ∈ dropNoughts a := hx ▸ List.mem_cons_self
            have hmarkx : mark < x := hmark.trans_le
              (ha x (List.mem_cons_of_mem _ (mem_of_mem_dropNoughts hmem))).1
            rw [hx] at hlt
            rcases List.cons_lt_cons_iff.mp hlt with hlt | ⟨heq, -⟩
            · exact lt_asymm hlt hmarkx
            · exact hmarkx.ne' heq
      · rw [List.cons_append, List.cons_append, List.cons_lt_cons_iff, ih]

/-- A fraction cut short stands before one of fewer digits with a mark above
every digit, unless its first digits are greater. -/
theorem dropNoughts_lt_append {a a' b : List Char} {low high : Char} (hlength : a.length = b.length)
    (ha : ∀ d ∈ a, IsDigit d) (ha' : ∀ d ∈ a', IsDigit d) (hb : ∀ d ∈ b, IsDigit d)
    (hlow : low < '0') (hhigh : '9' < high) (s r : List Char) :
    dropNoughts (a ++ a') ++ low :: s < b ++ high :: r ↔ a < b ∨ a = b := by
  have hmarks : low < high := hlow.trans ((by decide : '0' < '9').trans hhigh)
  induction a generalizing b with
  | nil =>
    rw [List.eq_nil_of_length_eq_zero hlength.symm, List.nil_append, List.nil_append]
    exact iff_of_true (dropNoughts_lt ha' hmarks hhigh s r) (Or.inr rfl)
  | cons c a ih =>
    cases b with
    | nil => cases hlength
    | cons d b =>
      have ih := ih (Nat.succ.inj hlength) (fun x hx => ha x (List.mem_cons_of_mem _ hx))
        (fun x hx => hb x (List.mem_cons_of_mem _ hx))
      have hlowd : low < d := hlow.trans_le (hb d List.mem_cons_self).1
      rw [List.cons_append, dropNoughts, List.cons_lt_cons_iff, List.cons.injEq]
      split_ifs with hc
      · refine iff_of_true (List.cons_lt_cons_iff.mpr (Or.inl hlowd)) ?_
        rw [hc.2] at ih
        rw [hc.1]
        rcases (hb d List.mem_cons_self).1.lt_or_eq with hlt | heq
        · exact Or.inl (Or.inl hlt)
        · have hrest : a < b ∨ a = b := by
            refine ih.mp ?_
            cases b with
            | nil => exact List.cons_lt_cons_iff.mpr (Or.inl hmarks)
            | cons x b =>
              exact List.cons_lt_cons_iff.mpr (Or.inl (hlow.trans_le
                (hb x (List.mem_cons_of_mem _ List.mem_cons_self)).1))
          exact hrest.imp (fun hlt => Or.inr ⟨heq, hlt⟩) fun hsame => ⟨heq, hsame⟩
      · rw [List.cons_append, List.cons_append, List.cons_lt_cons_iff]
        tauto

end Kitaza.DecimalText
