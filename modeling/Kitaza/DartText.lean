import Kitaza.SeparatedWords

/-!
# The phone's strings

A string of the phone is a list of UTF-16 code units, and its length is their
number. A rune takes one unit or two; a unit of a broken pair is a rune of its
own.
-/

namespace Kitaza.DartText

open SeparatedWords

/-- A string: its UTF-16 code units. -/
abbrev Text := List UInt16

/-- The units of one rune. -/
def fromCharCode (rune : ℕ) : Text :=
  if rune < 0x10000 then [rune.toUInt16]
  else [(0xD800 + (rune - 0x10000) / 0x400).toUInt16, (0xDC00 + (rune - 0x10000) % 0x400).toUInt16]

/-- The units of a literal. -/
def units (literal : String) : Text :=
  literal.toList.flatMap fun c => fromCharCode c.toNat

/-- The first unit of a pair. -/
def isLead (unit : UInt16) : Bool := decide (0xD800 ≤ unit ∧ unit < 0xDC00)

/-- The second unit of a pair. -/
def isTrail (unit : UInt16) : Bool := decide (0xDC00 ≤ unit ∧ unit < 0xE000)

/-- The runes of a string. -/
def runes : Text → List ℕ
  | [] => []
  | [unit] => [unit.toNat]
  | lead :: trail :: rest =>
    if isLead lead && isTrail trail then
      (0x10000 + (lead.toNat - 0xD800) * 0x400 + (trail.toNat - 0xDC00)) :: runes rest
    else lead.toNat :: runes (trail :: rest)

/-- A space. -/
def space : UInt16 := 0x20

/-- What `\s` matches in a pattern. -/
def isSpace (unit : UInt16) : Bool :=
  decide (0x09 ≤ unit ∧ unit ≤ 0x0D) || unit == space || unit == 0xA0 || unit == 0x1680 ||
    decide (0x2000 ≤ unit ∧ unit ≤ 0x200A) || unit == 0x2028 || unit == 0x2029 ||
    unit == 0x202F || unit == 0x205F || unit == 0x3000 || unit == 0xFEFF

@[simp]
theorem isSpace_space : isSpace space = true := rfl

/-- `text.split(RegExp(r'\s+'))`. -/
def splitSpaces (text : Text) : List Text := splitRuns isSpace text

/-- The words of a text. -/
abbrev wordsOf (text : Text) : List Text := words isSpace text

/-- There are at most as many runes as units. -/
theorem length_runes_le (text : Text) : (runes text).length ≤ text.length := by
  induction text using runes.induct with
  | case1 => exact Nat.le_refl 0
  | case2 unit => exact Nat.le_refl 1
  | case3 lead trail rest hpair ih =>
    rw [runes, if_pos hpair, List.length_cons, List.length_cons, List.length_cons]
    omega
  | case4 lead trail rest hpair ih =>
    rw [runes, if_neg hpair, List.length_cons, List.length_cons]
    omega

/-- A text may be cut before a unit that is not the second of a pair. -/
theorem runes_append {rest : Text} (hrest : ∀ unit, rest.head? = some unit → isTrail unit = false)
    (text : Text) : runes (text ++ rest) = runes text ++ runes rest := by
  induction text using runes.induct with
  | case1 => rfl
  | case2 lead =>
    cases rest with
    | nil => rfl
    | cons unit rest =>
      have hpair : ¬(isLead lead && isTrail unit) = true := by
        rw [hrest unit rfl, Bool.and_false]
        exact Bool.false_ne_true
      have hcut : runes (lead :: unit :: rest) = lead.toNat :: runes (unit :: rest) := by
        rw [runes, if_neg hpair]
      exact hcut
  | case3 lead trail _ hpair ih =>
    rw [List.cons_append, List.cons_append, runes, if_pos hpair, ih, runes, if_pos hpair,
      List.cons_append]
  | case4 lead trail _ hpair ih =>
    rw [List.cons_append, List.cons_append, runes, if_neg hpair, runes, if_neg hpair,
      ← List.cons_append, ih, List.cons_append]

/-- Without the first unit of a pair every unit is a rune. -/
theorem runes_of_noLead {text : Text} (h : ∀ unit ∈ text, isLead unit = false) :
    runes text = text.map UInt16.toNat := by
  induction text with
  | nil => rfl
  | cons unit rest ih =>
    have hsplit : runes (unit :: rest) = unit.toNat :: runes rest := by
      cases rest with
      | nil => rfl
      | cons next rest =>
        have hpair : ¬(isLead unit && isTrail next) = true := by
          rw [h unit List.mem_cons_self, Bool.false_and]
          exact Bool.false_ne_true
        rw [runes, if_neg hpair]
    rw [hsplit, ih fun u hu => h u (List.mem_cons_of_mem _ hu), List.map_cons]

example : runes (units "P20 😀") = [0x50, 0x32, 0x30, 0x20, 0x1F600] := by decide

end Kitaza.DartText
