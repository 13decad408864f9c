import Kitaza.DecimalText
import Kitaza.ReportWindows

/-!
# Timestamps as the phone stores them

A row that was pulled keeps the text of the server's JSON: the fraction of a
second without noughts at its end, and the offset `+00:00`. A row the app
wrote itself has the text of `toIso8601String`: milliseconds, microseconds
only if there are any, and `Z`. The phone compares them as texts.
-/

namespace Kitaza.TimestampText

open Primitives Calendar BillingPlan ReportWindows DecimalText

/-- The day of the calendar of an instant, by the clock in UTC. -/
def dayOf (t : Timestamp) : ℤ := t / DAY + EPOCH_DAY

/-- The year of a day. -/
def yearOf (day : ℤ) : ℤ := monthOf day / 12

/-- The month of a day in its year, from 1. -/
def monthNumber (day : ℤ) : ℤ := monthOf day % 12 + 1

/-- The day in its month, from 1. -/
def dayOfMonth (day : ℤ) : ℤ := day - monthStart (monthOf day) + 1

/-- The second of the day of an instant. -/
def secondOfDay (t : Timestamp) : ℤ := t % DAY / SECOND

/-- The second of an instant, counted from the Unix epoch. -/
def secondOf (t : Timestamp) : ℤ := t / SECOND

/-- The microseconds of an instant in its second. -/
def microseconds (t : Timestamp) : ℕ := (t % SECOND).toNat

/-- A number with noughts in front, at least so many digits. -/
def padded (w n : ℕ) : List Char := if n < 10 ^ w then digits w n else Nat.toDigits 10 n

/-- A date without its year, and the time to the second. -/
def dateAndTime (t : Timestamp) : List Char :=
  '-' :: digits 2 (monthNumber (dayOf t)).toNat ++ '-' :: digits 2 (dayOfMonth (dayOf t)).toNat ++
    'T' :: digits 2 (secondOfDay t / 3600).toNat ++
    ':' :: digits 2 (secondOfDay t / 60 % 60).toNat ++ ':' :: digits 2 (secondOfDay t % 60).toNat

/-- A timestamp in the JSON the database makes of a row. -/
def toJsonb (t : Timestamp) : List Char :=
  let year := yearOf (dayOf t)
  padded 4 (if 0 < year then year else 1 - year).toNat ++ dateAndTime t ++
    (if microseconds t = 0 then [] else '.' :: dropNoughts (digits 6 (microseconds t))) ++
    ['+', '0', '0', ':', '0', '0'] ++ if 0 < year then [] else [' ', 'B', 'C']

/-- The text the app makes of an instant in UTC. -/
def toIso8601String (t : Timestamp) : List Char :=
  let year := yearOf (dayOf t)
  (if -9999 ≤ year ∧ year ≤ 9999 then
      (if year < 0 then ['-'] else []) ++ padded 4 year.natAbs
    else (if year < 0 then '-' else '+') :: padded 6 year.natAbs) ++ dateAndTime t ++
    '.' :: digits 3 (microseconds t / 1000) ++
    (if microseconds t % 1000 = 0 then [] else digits 3 (microseconds t % 1000)) ++ ['Z']

/-- The formats of a stored timestamp. -/
inductive Format where
  /-- Of a row that was pulled. -/
  | server
  /-- Of a row the app wrote. -/
  | phone
  deriving DecidableEq, Repr

/-- A stored timestamp. -/
structure Stamp where
  /-- The instant. -/
  instant : Timestamp
  /-- How it is written. -/
  format : Format
  deriving DecidableEq, Repr

/-- What is stored. -/
def Stamp.text (stamp : Stamp) : String :=
  String.ofList (match stamp.format with
    | .server => toJsonb stamp.instant
    | .phone => toIso8601String stamp.instant)

/-- 10:00 on 22 September 2026 in both formats. -/
example : (⟨1790042400 * SECOND, .server⟩ : Stamp).text = "2026-09-22T02:00:00+00:00" ∧
    (⟨1790042400 * SECOND, .phone⟩ : Stamp).text = "2026-09-22T02:00:00.000Z" := by
  decide +kernel

/-- The year of an instant has four digits. -/
def FourDigitYear (t : Timestamp) : Prop := 1 ≤ yearOf (dayOf t) ∧ yearOf (dayOf t) ≤ 9999

instance (t : Timestamp) : Decidable (FourDigitYear t) := inferInstanceAs (Decidable (_ ∧ _))

/-- Where a stamp stands among texts, in thirds of a microsecond: the server's
stand at their instant, the phone's just after it, but whole milliseconds of
the phone's at the end of the millisecond. -/
def Stamp.place (stamp : Stamp) : ℤ :=
  match stamp.format with
  | .server => 3 * stamp.instant
  | .phone => if 1000 ∣ stamp.instant then 3 * stamp.instant + 2999 else 3 * stamp.instant + 1

/-- Days stand as their months and their places there do. -/
theorem day_lt_iff {a b : ℤ} : (monthOf a < monthOf b ∨ monthOf a = monthOf b ∧ dayOfMonth a < dayOfMonth b) ↔
    a < b := by
  have ha := monthOf_spec a
  have hb := monthOf_spec b
  have hnext : ∀ {j k : ℤ}, j < k → monthStart (j + 1) ≤ monthStart k := fun hjk =>
    monthStart_strictMono.monotone (by omega)
  simp only [dayOfMonth]
  constructor
  · rintro (hlt | ⟨heq, hlt⟩)
    · have := hnext hlt
      omega
    · rw [heq] at hlt
      omega
  · intro hlt
    rcases lt_trichotomy (monthOf a) (monthOf b) with h | h | h
    · exact Or.inl h
    · refine Or.inr ⟨h, ?_⟩
      rw [h]
      omega
    · have := hnext h
      omega

/-- A field of fixed width before others. -/
theorem field_lt_iff {w m n : ℕ} (hm : m < 10 ^ w) (hn : n < 10 ^ w) (s t : List Char) :
    digits w m ++ s < digits w n ++ t ↔ m < n ∨ m = n ∧ s < t := by
  rw [append_lt_append_iff (by rw [length_digits, length_digits]), digits_lt_digits hm hn,
    digits_inj hm hn]

/-- A separator before others. -/
theorem separator_lt_iff {c : Char} (s t : List Char) : c :: s < c :: t ↔ s < t := by
  rw [List.cons_lt_cons_iff]
  exact ⟨fun h => h.elim (fun hc => absurd hc (lt_irrefl c)) And.right, fun h => Or.inr ⟨rfl, h⟩⟩

/-- A timestamp to the second, its year of four digits. -/
def toSecond (t : Timestamp) : List Char := digits 4 (yearOf (dayOf t)).toNat ++ dateAndTime t

theorem length_toSecond (t : Timestamp) : (toSecond t).length = 19 := by
  simp [toSecond, dateAndTime]

/-- The ranges of the fields. -/
theorem field_bounds (t : Timestamp) :
    (1 ≤ monthNumber (dayOf t) ∧ monthNumber (dayOf t) ≤ 12) ∧
      (1 ≤ dayOfMonth (dayOf t) ∧ dayOfMonth (dayOf t) ≤ 31) ∧
        0 ≤ secondOfDay t ∧ secondOfDay t < 86400 := by
  have hmonth := monthOf_spec (dayOf t)
  have hdays := (daysIn_bounds (monthOf (dayOf t))).2
  simp only [daysIn] at hdays
  have hticks := Int.emod_nonneg t (show DAY ≠ 0 by decide)
  have hticks' := Int.emod_lt_of_pos t (show 0 < DAY by decide)
  simp only [monthNumber, dayOfMonth, secondOfDay]
  simp only [DAY, SECOND] at hticks hticks' ⊢
  omega

/-- The second an instant lies in, from its day and time. -/
theorem secondOf_eq (t : Timestamp) :
    secondOf t = (dayOf t - EPOCH_DAY) * 86400 + secondOfDay t := by
  have hsplit : ∀ ticks : ℤ, ticks / 1000000 =
      ticks / 86400000000 * 86400 + ticks % 86400000000 / 1000000 := by
    intro ticks
    omega
  rw [dayOf, add_sub_cancel_right]
  exact hsplit t

/-- Years and months in order, then the rest. -/
theorem month_fields_iff {j k : ℤ} (hj : 0 ≤ j / 12) (hk : 0 ≤ k / 12) {P : Prop} :
    ((j / 12).toNat < (k / 12).toNat ∨ (j / 12).toNat = (k / 12).toNat ∧
      ((j % 12 + 1).toNat < (k % 12 + 1).toNat ∨ (j % 12 + 1).toNat = (k % 12 + 1).toNat ∧ P)) ↔
      j < k ∨ j = k ∧ P := by
  have hlt : (j / 12).toNat < (k / 12).toNat ∨ (j / 12).toNat = (k / 12).toNat ∧
      (j % 12 + 1).toNat < (k % 12 + 1).toNat ↔ j < k := by omega
  have heq : (j / 12).toNat = (k / 12).toNat ∧ (j % 12 + 1).toNat = (k % 12 + 1).toNat ↔ j = k := by
    omega
  rw [← hlt, ← heq]
  tauto

/-- Days of the month in order, then the rest. -/
theorem day_fields_iff {a b : ℤ} (ha : 1 ≤ dayOfMonth a) (hb : 1 ≤ dayOfMonth b) {P : Prop} :
    (monthOf a < monthOf b ∨ monthOf a = monthOf b ∧ ((dayOfMonth a).toNat < (dayOfMonth b).toNat ∨
      (dayOfMonth a).toNat = (dayOfMonth b).toNat ∧ P)) ↔ a < b ∨ a = b ∧ P := by
  have hlt : (dayOfMonth a).toNat < (dayOfMonth b).toNat ↔ dayOfMonth a < dayOfMonth b := by omega
  have heq : monthOf a = monthOf b ∧ (dayOfMonth a).toNat = (dayOfMonth b).toNat ↔ a = b := by
    refine ⟨fun h => ?_, fun h => by rw [h]; exact ⟨rfl, rfl⟩⟩
    have hday := h.2
    simp only [dayOfMonth] at ha hb hday
    rw [h.1] at ha hday
    omega
  rw [← @day_lt_iff a b, ← heq, hlt]
  tauto

/-- Hours, minutes and seconds in order. -/
theorem clock_fields_iff {i j : ℤ} (hi : 0 ≤ i) (hj : 0 ≤ j) :
    ((i / 3600).toNat < (j / 3600).toNat ∨ (i / 3600).toNat = (j / 3600).toNat ∧
      ((i / 60 % 60).toNat < (j / 60 % 60).toNat ∨ (i / 60 % 60).toNat = (j / 60 % 60).toNat ∧
        (i % 60).toNat < (j % 60).toNat)) ↔ i < j := by
  omega

/-- Timestamps to the second stand in order of time. -/
theorem toSecond_lt_toSecond {s t : Timestamp} (hs : FourDigitYear s) (ht : FourDigitYear t) :
    toSecond s < toSecond t ↔ secondOf s < secondOf t := by
  obtain ⟨⟨hsm, hsm'⟩, ⟨hsd, hsd'⟩, hsc, hsc'⟩ := field_bounds s
  obtain ⟨⟨htm, htm'⟩, ⟨htd, htd'⟩, htc, htc'⟩ := field_bounds t
  obtain ⟨hsy, hsy'⟩ := hs
  obtain ⟨hty, hty'⟩ := ht
  simp only [toSecond, dateAndTime, List.append_assoc, List.cons_append]
  rw [field_lt_iff (by omega) (by omega), separator_lt_iff, field_lt_iff (by omega) (by omega),
    separator_lt_iff, field_lt_iff (by omega) (by omega), separator_lt_iff,
    field_lt_iff (by omega) (by omega), separator_lt_iff, field_lt_iff (by omega) (by omega),
    separator_lt_iff, digits_lt_digits (by omega) (by omega), clock_fields_iff hsc htc]
  simp only [yearOf, monthNumber] at *
  rw [month_fields_iff (by omega) (by omega), day_fields_iff hsd htd, secondOf_eq, secondOf_eq]
  omega

/-- What follows the second, by the microseconds. -/
def fraction (format : Format) (us : ℕ) : List Char :=
  match format with
  | .server => (if us = 0 then [] else '.' :: dropNoughts (digits 6 us)) ++ ['+', '0', '0', ':', '0', '0']
  | .phone => '.' :: digits 3 (us / 1000) ++ (if us % 1000 = 0 then [] else digits 3 (us % 1000)) ++ ['Z']

/-- Where a fraction stands in its second, in thirds of a microsecond. -/
def placeIn (format : Format) (us : ℕ) : ℕ :=
  match format with
  | .server => 3 * us
  | .phone => if us % 1000 = 0 then 3 * us + 2999 else 3 * us + 1

theorem isDigit_digits {w n : ℕ} : ∀ c ∈ digits w n, IsDigit c := fun _ h => isDigit_of_mem_digits h

/-- Six digits are three and three. -/
theorem digits_six (us : ℕ) : digits 6 us = digits 3 (us / 1000) ++ digits 3 (us % 1000) := by
  rw [show us % 1000 = us % 10 ^ 3 by norm_num, digits_mod]
  exact digits_add 3 3 us

/-- The app writes three digits or six. -/
theorem fraction_phone (us : ℕ) : fraction .phone us =
    if us % 1000 = 0 then '.' :: (digits 3 (us / 1000) ++ ['Z']) else '.' :: (digits 6 us ++ ['Z']) := by
  rw [fraction, digits_six]
  split_ifs <;> simp

/-- Two fractions of the server's. -/
theorem fraction_server_server {m n : ℕ} (hm : m < 10 ^ 6) (hn : n < 10 ^ 6) :
    fraction .server m < fraction .server n ↔ m < n := by
  rw [fraction, fraction]
  split_ifs with hm0 hn0 hn0
  · exact iff_of_false (List.lt_irrefl _) (by omega)
  · exact iff_of_true (List.cons_lt_cons_iff.mpr (Or.inl (by decide))) (by omega)
  · exact iff_of_false (fun h => (List.cons_lt_cons_iff.mp h).elim (by decide)
      fun h => absurd h.1 (by decide)) (by omega)
  · rw [List.cons_append, List.cons_append, separator_lt_iff,
      dropNoughts_lt_dropNoughts (by rw [length_digits, length_digits]) isDigit_digits isDigit_digits
        (by decide), digits_lt_digits hm hn]

/-- One of the server's before one of the app's: unless a later millisecond, or
where the app wrote microseconds a later instant. -/
theorem fraction_server_phone {m n : ℕ} (hm : m < 10 ^ 6) (hn : n < 10 ^ 6) :
    fraction .server m < fraction .phone n ↔
      if n % 1000 = 0 then m / 1000 ≤ n / 1000 else m ≤ n := by
  have hms : m / 1000 < 10 ^ 3 := by omega
  have hns : n / 1000 < 10 ^ 3 := by omega
  have hlength : ∀ w j k, (digits w j).length = (digits w k).length := fun w j k => by
    rw [length_digits, length_digits]
  rw [fraction, fraction_phone]
  split_ifs with hm0 hn0 hn0
  · exact iff_of_true (List.cons_lt_cons_iff.mpr (Or.inl (by decide))) (by omega)
  · exact iff_of_true (List.cons_lt_cons_iff.mpr (Or.inl (by decide))) (by omega)
  · rw [List.cons_append, separator_lt_iff, digits_six, dropNoughts_lt_append (hlength 3 _ _)
      isDigit_digits isDigit_digits isDigit_digits (by decide) (by decide),
      digits_lt_digits hms hns, digits_inj hms hns]
    exact le_iff_lt_or_eq.symm
  · have hwhole : digits 6 m = digits 6 m ++ [] := (List.append_nil _).symm
    rw [List.cons_append, separator_lt_iff, hwhole, dropNoughts_lt_append (hlength 6 _ _)
      isDigit_digits (fun _ h => by cases h) isDigit_digits (by decide) (by decide),
      digits_lt_digits hm hn, digits_inj hm hn]
    exact le_iff_lt_or_eq.symm

/-- The two formats never agree. -/
theorem fraction_ne (m n : ℕ) : fraction .server m ≠ fraction .phone n := by
  intro h
  have hserver : fraction .server m = ((if m = 0 then [] else '.' :: dropNoughts (digits 6 m)) ++
      ['+', '0', '0', ':', '0']) ++ ['0'] := by
    rw [List.append_assoc]
    rfl
  have hends := List.append_inj_right' (hserver.symm.trans h) rfl
  exact absurd hends (by decide)

/-- Two fractions of the app's. -/
theorem fraction_phone_phone {m n : ℕ} (hm : m < 10 ^ 6) (hn : n < 10 ^ 6) :
    fraction .phone m < fraction .phone n ↔ placeIn .phone m < placeIn .phone n := by
  have hms : m / 1000 < 10 ^ 3 := by omega
  have hns : n / 1000 < 10 ^ 3 := by omega
  have hlength : ∀ w j k, (digits w j).length = (digits w k).length := fun w j k => by
    rw [length_digits, length_digits]
  -- Microseconds stand before the `Z` of a whole millisecond.
  have hrest : ∀ k, digits 3 (k % 1000) ++ ['Z'] < ['Z'] := fun k =>
    List.cons_lt_cons_iff.mpr (Or.inl ((isDigit_digit _ (Nat.mod_lt _ (by decide))).2.trans_lt
      (by decide)))
  rw [fraction_phone, fraction_phone]
  simp only [placeIn]
  split_ifs with hm0 hn0 hn0
  · rw [separator_lt_iff, append_lt_append_iff (hlength 3 _ _), digits_lt_digits hms hns]
    rw [iff_false_intro (List.lt_irrefl ['Z']), and_false, or_false]
    omega
  · rw [separator_lt_iff, digits_six, List.append_assoc, append_lt_append_iff (hlength 3 _ _),
      digits_lt_digits hms hns]
    rw [iff_false_intro (lt_asymm (hrest n)), and_false, or_false]
    omega
  · rw [separator_lt_iff, digits_six, List.append_assoc, append_lt_append_iff (hlength 3 _ _),
      digits_lt_digits hms hns, digits_inj hms hns]
    rw [and_iff_left (hrest m)]
    omega
  · rw [separator_lt_iff, append_lt_append_iff (hlength 6 _ _), digits_lt_digits hm hn]
    rw [iff_false_intro (List.lt_irrefl ['Z']), and_false, or_false]
    omega

/-- Fractions stand at their places. -/
theorem fraction_lt_fraction {m n : ℕ} (hm : m < 10 ^ 6) (hn : n < 10 ^ 6) (f g : Format) :
    fraction f m < fraction g n ↔ placeIn f m < placeIn g n := by
  cases f with
  | server =>
    cases g with
    | server =>
      rw [fraction_server_server hm hn]
      simp only [placeIn]
      omega
    | phone =>
      rw [fraction_server_phone hm hn]
      simp only [placeIn]
      split_ifs <;> omega
  | phone =>
    cases g with
    | server =>
      have hcompare := fraction_server_phone hn hm
      have hne := fraction_ne n m
      have hnot : fraction .phone m < fraction .server n ↔ ¬fraction .server n < fraction .phone m :=
        ⟨lt_asymm, fun h => lt_of_le_of_ne (not_lt.mp h) hne.symm⟩
      rw [hnot, hcompare]
      simp only [placeIn]
      split_ifs <;> omega
    | phone => exact fraction_phone_phone hm hn

/-- The text of a stamp of a year of four digits. -/
theorem text_eq {stamp : Stamp} (h : FourDigitYear stamp.instant) :
    stamp.text.toList = toSecond stamp.instant ++ fraction stamp.format (microseconds stamp.instant) := by
  obtain ⟨t, format⟩ := stamp
  obtain ⟨hy, hy'⟩ := h
  dsimp only at hy hy' ⊢
  rw [Stamp.text, String.toList_ofList]
  cases format with
  | server =>
    have hpos : 0 < yearOf (dayOf t) := by omega
    simp only [toJsonb, toSecond, fraction, if_pos hpos, List.append_nil, List.append_assoc]
    rw [padded, if_pos (by omega)]
  | phone =>
    have hneg : ¬yearOf (dayOf t) < 0 := by omega
    have habs : (yearOf (dayOf t)).natAbs = (yearOf (dayOf t)).toNat := by omega
    simp only [toIso8601String, toSecond, fraction, if_pos (show -9999 ≤ yearOf (dayOf t) ∧
      yearOf (dayOf t) ≤ 9999 by omega), if_neg hneg, List.nil_append, List.append_assoc, habs]
    rw [padded, if_pos (by omega)]

/-- The place of a stamp is that of its second and its fraction. -/
theorem place_eq (stamp : Stamp) : stamp.place =
    3000000 * secondOf stamp.instant + placeIn stamp.format (microseconds stamp.instant) := by
  obtain ⟨t, format⟩ := stamp
  have hplace : ∀ ticks : ℤ,
      3 * ticks = 3000000 * (ticks / 1000000) + (3 * (ticks % 1000000).toNat : ℕ) ∧
        (1000 ∣ ticks ↔ (ticks % 1000000).toNat % 1000 = 0) := by
    intro ticks
    omega
  have hticks : 3 * t = 3000000 * secondOf t + (3 * microseconds t : ℕ) := (hplace t).1
  have hwhole : 1000 ∣ t ↔ microseconds t % 1000 = 0 := (hplace t).2
  cases format with
  | server => exact hticks
  | phone =>
    simp only [Stamp.place, placeIn]
    by_cases h : (1000 : ℤ) ∣ t
    · rw [if_pos h, if_pos (hwhole.mp h), Nat.cast_add, ← add_assoc]
      exact congrArg (· + 2999) hticks
    · rw [if_neg h, if_neg (mt hwhole.mpr h), Nat.cast_add, ← add_assoc]
      exact congrArg (· + 1) hticks

theorem microseconds_lt (t : Timestamp) : microseconds t < 10 ^ 6 := by
  have hticks := Int.emod_lt_of_pos t (show 0 < SECOND by decide)
  have hnat : ∀ ticks : ℤ, ticks < 1000000 → ticks.toNat < 10 ^ 6 := by
    intro ticks hlt
    omega
  exact hnat _ hticks

theorem placeIn_lt {us : ℕ} (h : us < 10 ^ 6) (format : Format) : placeIn format us < 3000000 := by
  cases format with
  | server =>
    simp only [placeIn]
    omega
  | phone =>
    simp only [placeIn]
    split_ifs <;> omega

/-- Stamps of years of four digits stand among texts at their places. -/
theorem text_lt_text {x y : Stamp} (hx : FourDigitYear x.instant) (hy : FourDigitYear y.instant) :
    x.text < y.text ↔ x.place < y.place := by
  have hlt := toSecond_lt_toSecond hx hy
  have hgt := toSecond_lt_toSecond hy hx
  have heq : toSecond x.instant = toSecond y.instant ↔ secondOf x.instant = secondOf y.instant := by
    rw [eq_iff_le_not_lt, eq_iff_le_not_lt, ← not_lt, ← not_lt, hlt, hgt]
  have hxp := placeIn_lt (microseconds_lt x.instant) x.format
  have hyp := placeIn_lt (microseconds_lt y.instant) y.format
  change x.text.toList < y.text.toList ↔ _
  rw [text_eq hx, text_eq hy, append_lt_append_iff (by rw [length_toSecond, length_toSecond]), hlt,
    heq, fraction_lt_fraction (microseconds_lt _) (microseconds_lt _), place_eq, place_eq]
  omega

/-- Whether a stamp sorts before another: by their places, if their years have
four digits, and else as the texts happen to. -/
def SortsBefore (x y : Stamp) : Prop :=
  if FourDigitYear x.instant ∧ FourDigitYear y.instant then x.place < y.place else x.text < y.text

instance (x y : Stamp) : Decidable (SortsBefore x y) := by
  unfold SortsBefore
  infer_instance

/-- Texts stand in that order. -/
theorem text_lt_iff (x y : Stamp) : x.text < y.text ↔ SortsBefore x y := by
  unfold SortsBefore
  split_ifs with h
  · exact text_lt_text h.1 h.2
  · exact Iff.rfl

/-- Stamps a millisecond apart sort as they happened. -/
theorem sortsBefore_of_apart {x y : Stamp} (hx : FourDigitYear x.instant)
    (hy : FourDigitYear y.instant) (h : x.instant + 1000 ≤ y.instant ∨ y.instant + 1000 ≤ x.instant) :
    SortsBefore x y ↔ x.instant < y.instant := by
  have hnear : ∀ z : Stamp, 3 * z.instant ≤ z.place ∧ z.place < 3 * z.instant + 3000 := by
    intro z
    unfold Stamp.place
    split
    · exact ⟨le_rfl, by linarith⟩
    · split_ifs
      · exact ⟨by linarith, by linarith⟩
      · exact ⟨by linarith, by linarith⟩
  obtain ⟨hx1, hx2⟩ := hnear x
  obtain ⟨hy1, hy2⟩ := hnear y
  rw [SortsBefore, if_pos ⟨hx, hy⟩]
  constructor
  · intro hplace
    rcases h with h | h
    · linarith
    · exact absurd hplace (not_lt.mpr (by linarith))
  · intro hlt
    rcases h with h | h
    · linarith
    · exact absurd hlt (not_lt.mpr (by linarith))

end Kitaza.TimestampText
