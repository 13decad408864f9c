import Mathlib.Data.Rat.Floor
import Mathlib.Order.Defs.LinearOrder
import Mathlib.Order.Basic
import Mathlib.Data.Finset.Lattice.Fold
import Mathlib.Order.Lattice.Nat
import Kitaza.KeyedTable

/-!
# Identifiers, instants, exact amounts, text and request errors

The shared vocabulary of the back office: record identifiers, database
timestamps, decimal amounts with the rounding the service applies to
incoming figures, the two string operations applied to every free-text
field, and the errors a request can end in.
-/

namespace Kitaza.Primitives

open KeyedTable

/-- A record identifier, ordered as the database orders it. -/
structure Uuid where
  /-- The identifier's bits read as a number. -/
  bits : ℕ
  deriving DecidableEq, Repr

namespace Uuid

/-- Random identifiers drawn by the server and by devices never meet; the
lowest bit stands for the side that drew the identifier. -/
def drawnByServer (id : Uuid) : Bool := id.bits % 2 == 1

theorem bits_injective : Function.Injective bits := by
  rintro ⟨a⟩ ⟨b⟩ h
  exact congrArg mk h

instance : LinearOrder Uuid := LinearOrder.lift' bits bits_injective

theorem lt_iff {a b : Uuid} : a < b ↔ a.bits < b.bits := Iff.rfl

/-- The all-zero identifier, below every other. -/
def nil : Uuid := ⟨0⟩

/-- The printed identifier. -/
def text (id : Uuid) : String := toString id.bits

theorem text_injective : Function.Injective text := by
  intro a b h
  have hd : Nat.toDigits 10 a.bits = Nat.toDigits 10 b.bits := by
    simpa [text, ← String.toList_inj] using h
  apply bits_injective
  rw [← @Nat.ofDigitChars_toDigits 10 a.bits (by decide) (by decide), hd,
    Nat.ofDigitChars_toDigits (by decide) (by decide)]

/-- The `i`-th identifier the server draws while it writes to a table:
above every identifier the table holds, and on the server's side. -/
def newV4 {ρ : Type*} (t : Table Uuid ρ) (i : ℕ) : Uuid :=
  ⟨2 * (t.ids.sup bits + i) + 3⟩

theorem newV4_drawnByServer {ρ : Type*} (t : Table Uuid ρ) (i : ℕ) :
    (newV4 t i).drawnByServer = true := by
  simp only [drawnByServer, newV4, beq_iff_eq]
  omega

theorem find?_newV4 {ρ : Type*} (t : Table Uuid ρ) (i : ℕ) : t.find? (newV4 t i) = none := by
  rw [← Table.notMem_ids]
  intro h
  have hle : (newV4 t i).bits ≤ t.ids.sup bits := Finset.le_sup h
  simp only [newV4] at hle
  omega

theorem newV4_injective {ρ : Type*} (t : Table Uuid ρ) : Function.Injective (newV4 t) := by
  intro i j h
  have hb : (newV4 t i).bits = (newV4 t j).bits := congrArg bits h
  simp only [newV4] at hb
  omega

end Uuid

/-- Microseconds since the Unix epoch. -/
abbrev Timestamp := ℤ

/-- Peso amounts, exact. -/
abbrev Money := ℚ

/-- Product quantities, exact. -/
abbrev Quantity := ℚ

/-- Round to the nearest integer, ties to the even neighbour. -/
def roundHalfEven (x : ℚ) : ℤ :=
  let f := x.floor
  if x - f < 1 / 2 then f
  else if 1 / 2 < x - f then f + 1
  else if f % 2 = 0 then f
  else f + 1

/-- Round to `dp` decimal places, ties to even. -/
def roundDp (dp : ℕ) (x : ℚ) : ℚ := roundHalfEven (x * 10 ^ dp) / 10 ^ dp

theorem roundHalfEven_intCast (n : ℤ) : roundHalfEven n = n := by
  simp [roundHalfEven]

/-- A figure that already has at most `dp` decimals keeps its value. -/
theorem roundDp_of_scaled {dp : ℕ} {x : ℚ} {n : ℤ} (h : x * 10 ^ dp = n) : roundDp dp x = x := by
  rw [roundDp, h, roundHalfEven_intCast, ← h]
  exact mul_div_cancel_right₀ x (by positivity)

/-- Decimals of a peso amount. -/
def MONEY_SCALE : ℕ := 2

/-- Decimals of a quantity. -/
def QUANTITY_SCALE : ℕ := 3

/-- Read a JSON number as a decimal; figures beyond 96 bits do not fit. A number
stands for what is spelled; the program reads its double, which is another
decimal for numbers of seventeen digits. -/
def fromF64 (value : ℚ) : Option ℚ := if |value| < 2 ^ 96 then some value else none

/-- A JSON figure as a peso amount, the figure as it is spelled: one of seventeen
digits can come out a centavo away in the program. -/
def moneyFromF64 (value : ℚ) : Money := roundDp MONEY_SCALE ((fromF64 value).getD 0)

/-- A JSON figure as a quantity. -/
def quantityFromF64 (value : ℚ) : Quantity := roundDp QUANTITY_SCALE ((fromF64 value).getD 0)

/-- What a `NUMERIC(14,2)` column stores: ties round away from zero. -/
def numericMoney (x : ℚ) : Money :=
  if 0 ≤ x then ((x * 100 + 1 / 2).floor : ℚ) / 100 else -(((-x * 100 + 1 / 2).floor : ℚ) / 100)

/-- Unicode white space, the characters trimming removes. -/
def isWhiteSpace (c : Char) : Bool :=
  let n := c.toNat
  (9 ≤ n && n ≤ 13) || n == 0x20 || n == 0x85 || n == 0xA0 || n == 0x1680 ||
    (0x2000 ≤ n && n ≤ 0x200A) || n == 0x2028 || n == 0x2029 || n == 0x202F || n == 0x205F ||
    n == 0x3000

/-- Remove white space at both ends. -/
def trim (s : String) : String :=
  String.ofList ((s.toList.dropWhile isWhiteSpace).reverse.dropWhile isWhiteSpace).reverse

/-- The lower case of one character, where it is a letter of ASCII or of Latin-1,
or the sign of the kelvin. The keywords compared against hold ASCII letters only;
other letters, which the program lowers too, would show only in the text of a
refusal that quotes them. -/
def lowerChar (c : Char) : Char :=
  if c == Char.ofNat 0x212A then 'k'
  else if 0xC0 ≤ c.toNat && c.toNat ≤ 0xDE && c.toNat != 0xD7 then Char.ofNat (c.toNat + 0x20)
  else c.toLower

/-- Lower-case a keyword. -/
def toLowercase (s : String) : String := String.ofList (s.toList.map lowerChar)

/-- A trimmed text, unless nothing is left of it. -/
def trimmed (s : Option String) : Option String := (s.map trim).filter (· ≠ "")

/-- The note the ledger rows of a sale carry. -/
def saleNote (saleId : Uuid) : String := "sale " ++ saleId.text

theorem saleNote_injective : Function.Injective saleNote := by
  intro a b h
  apply Uuid.text_injective
  simpa [saleNote, String.append_right_inj] using h

/-- Failures a request can end in. -/
inductive ApiError where
  | badRequest (message : String)
  | forbidden (message : String)
  | notFound (what : String)
  | conflict (message : String)
  /-- Anything unexpected, such as a violated database constraint. -/
  | internal (cause : String)
  deriving DecidableEq, Repr

/-- The text of an error that may be shown to the caller. -/
def ApiError.message : ApiError → String
  | .badRequest m => m
  | .forbidden m => m
  | .notFound what => what ++ " not found"
  | .conflict m => m
  | .internal cause => cause

/-- A result read from a computation comes from its success. -/
theorem map_eq_ok {α β : Type} {x : Except ApiError α} {f : α → β} {b : β} :
    x.map f = .ok b ↔ ∃ a, x = .ok a ∧ f a = b := by
  cases x with
  | error e =>
    constructor
    · intro h
      cases h
    · rintro ⟨a, h, _⟩
      cases h
  | ok a =>
    constructor
    · intro h
      exact ⟨a, rfl, Except.ok.inj h⟩
    · rintro ⟨a', h, rfl⟩
      cases h
      rfl

theorem map_eq_error {α β : Type} {x : Except ApiError α} {f : α → β} {e : ApiError} :
    x.map f = .error e ↔ x = .error e := by
  cases x with
  | error e' =>
    constructor <;> intro h <;> cases h <;> rfl
  | ok a =>
    constructor <;> intro h <;> cases h

/-- A computation that succeeds has succeeded in its first half. -/
theorem bind_eq_ok {α β : Type} {x : Except ApiError α} {f : α → Except ApiError β} {b : β} :
    (x >>= f) = .ok b ↔ ∃ a, x = .ok a ∧ f a = .ok b := by
  cases x with
  | error e =>
    constructor
    · intro h
      cases h
    · rintro ⟨a, h, _⟩
      cases h
  | ok a =>
    constructor
    · intro h
      exact ⟨a, rfl, h⟩
    · rintro ⟨a', h, hf⟩
      cases h
      exact hf

/-- An identifier that already names a row of another store. -/
def foreignId : ApiError := .conflict "this record belongs to another store"

end Kitaza.Primitives
