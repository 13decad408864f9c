import Mathlib.Algebra.Order.Group.Abs
import Mathlib.Data.List.DropRight
import Mathlib.Data.List.Forall2
import Kitaza.EscPosEncoder
import Kitaza.PhoneDatabase
import Kitaza.ReceiptWrap

/-!
# The lines of a receipt

A sale is laid out as lines of the paper's columns: the store's name as it is,
the names of what was sold wrapped, amounts flush right. In print a line may
take more characters than it has, since an ellipsis is spelled out.
-/

namespace Kitaza.ReceiptLines

open Primitives DartText EscPosPrinter EscPosEncoder GreedyPacking ReceiptWrap
open PhoneDatabase (PaymentMethod)

/-- Paper widths in characters for the two common thermal rolls. -/
inductive PaperWidth where
  | mm58
  | mm80
  deriving DecidableEq, Repr

/-- The columns of a roll. -/
def PaperWidth.columns : PaperWidth → ℕ
  | .mm58 => 32
  | .mm80 => 48

/-- The languages of the app. -/
inductive AppLocalizations where
  | en
  | fil
  deriving DecidableEq, Repr

namespace AppLocalizations

def receiptSubtotal : AppLocalizations → Text
  | _ => units "Subtotal"

def receiptDiscount : AppLocalizations → Text
  | .en => units "Discount"
  | .fil => units "Diskwento"

def receiptTotal : AppLocalizations → Text
  | .en => units "TOTAL"
  | .fil => units "KABUUAN"

def receiptPaidBy : AppLocalizations → Text
  | .en => units "Paid by"
  | .fil => units "Bayad sa"

def receiptReference (_ : AppLocalizations) (code : Text) : Text := units "Ref " ++ code

def receiptThanks : AppLocalizations → Text
  | .en => units "Thank you!"
  | .fil => units "Salamat po!"

def saleQuickSale : AppLocalizations → Text
  | .en => units "Quick sale"
  | .fil => units "Mabilisang benta"

def paymentMethod : AppLocalizations → PaymentMethod → Text
  | _, .cash => units "Cash"
  | _, .gcash => units "GCash"
  | _, .maya => units "Maya"
  | _, .bankTransfer => units "Bank transfer"
  | .en, .utang => units "Utang (credit)"
  | .fil, .utang => units "Utang"

/-- Lines recorded from the keypad carry a fixed internal name. -/
def displayProductName (l10n : AppLocalizations) (stored : Text) : Text :=
  if stored = units "Quick sale" then l10n.saleQuickSale else stored

end AppLocalizations

/-- Whether a unit stands in an identifier. -/
def isIdUnit (unit : UInt16) : Bool :=
  decide (0x30 ≤ unit ∧ unit ≤ 0x39) || decide (0x61 ≤ unit ∧ unit ≤ 0x66) ||
    decide (0x41 ≤ unit ∧ unit ≤ 0x46) || unit == 0x2D

/-- The text of a sale's identifier. -/
structure SaleId where
  text : Text
  /-- It is that of a UUID. -/
  length_eq : text.length = 36
  isIdUnit : ∀ unit ∈ text, isIdUnit unit = true

/-- A line of a sale. -/
structure SaleLine where
  productName : Text
  quantity : ℚ
  unitPrice : ℚ
  deriving DecidableEq, Repr

/-- What a line comes to. -/
def SaleLine.lineTotal (line : SaleLine) : ℚ := line.unitPrice * line.quantity

/-- A sale. -/
structure Sale where
  id : SaleId
  paymentMethod : PaymentMethod
  totalAmount : ℚ
  discountAmount : ℚ
  occurredAt : Timestamp
  lines : List SaleLine

/-- The amounts are within the server's columns. -/
structure Sale.InColumns (sale : Sale) : Prop where
  total : |sale.totalAmount| < 10 ^ 12
  discount : |sale.discountAmount| < 10 ^ 12
  lines : ∀ line ∈ sale.lines, |line.unitPrice| < 10 ^ 12 ∧ |line.lineTotal| < 10 ^ 12

/-- What the formatting packages make of numbers and instants. -/
structure Formats where
  /-- `NumberFormat('#,##0.00', 'en_PH')`. -/
  plain : ℚ → Text
  /-- `DateFormat('d MMM')`, in local time. -/
  dayMonth : Timestamp → Text
  /-- The year in local time. -/
  year : Timestamp → Text
  /-- `DateFormat('h:mm a')`, in local time. -/
  timeOfDay : Timestamp → Text

/-- Plain ASCII. -/
def Plain (text : Text) : Prop := ∀ unit ∈ text, 0x20 ≤ unit ∧ unit < 0x7F

instance (text : Text) : Decidable (Plain text) :=
  List.decidableBAll (fun unit => 0x20 ≤ unit ∧ unit < 0x7F) text

/-- What is known of them: they write plain ASCII, amounts below two million
million with two decimals take at most twenty-one characters, and dates are
short. -/
structure Formats.Documented (formats : Formats) : Prop where
  plain : ∀ amount, Plain (formats.plain amount)
  plain_length : ∀ amount, |amount| < 2 * 10 ^ 12 → (formats.plain amount).length ≤ 21
  dayMonth : ∀ at_, Plain (formats.dayMonth at_) ∧ (formats.dayMonth at_).length ≤ 8
  year : ∀ at_, Plain (formats.year at_) ∧ (formats.year at_).length ≤ 7
  timeOfDay : ∀ at_, Plain (formats.timeOfDay at_) ∧ (formats.timeOfDay at_).length ≤ 10

/-- A whole number in digits. -/
def intText (n : ℤ) : Text :=
  (if n < 0 then units "-" else []) ++ (Nat.toDigits 10 n.natAbs).flatMap fun c =>
    fromCharCode c.toNat

/-- `toStringAsFixed(3)`. -/
def toStringAsFixed3 (value : ℚ) : Text :=
  let thousandths := (|value| * 1000 + 1 / 2).floor.toNat
  (if value < 0 then units "-" else []) ++ intText (thousandths / 1000) ++ units "." ++
    intText (thousandths / 100 % 10) ++ intText (thousandths / 10 % 10) ++ intText (thousandths % 10)

/-- `QuantityFormatter.exact`. -/
def exact (value : ℚ) : Text :=
  if value.den = 1 then intText value.num
  else ((toStringAsFixed3 value).rdropWhile fun unit => unit == 0x30).rdropWhile
    fun unit => unit == 0x2E

/-- `ReceiptLayout`: the peso sign, or a letter for printers without it. -/
structure ReceiptLayout where
  l10n : AppLocalizations
  width : PaperWidth
  currencySymbol : Text
  currencySymbol_eq : currencySymbol = units "₱" ∨ currencySymbol = units "P"

theorem PaperWidth.columns_pos (width : PaperWidth) : 1 ≤ width.columns := by
  cases width <;> decide

theorem ReceiptLayout.columns_pos (layout : ReceiptLayout) : 1 ≤ layout.width.columns :=
  layout.width.columns_pos

theorem PaperWidth.le_columns (width : PaperWidth) : 32 ≤ width.columns := by
  cases width <;> decide

/-- Label on the left, value flush right; a label too long is shortened. -/
def pair (columns : ℕ) (left right : Text) : Text :=
  let blank : ℤ := columns - left.length - right.length
  if 1 ≤ blank then left ++ List.replicate blank.toNat space ++ right
  else
    let room : ℤ := columns - right.length - 1
    left.take (min (max room 0) left.length).toNat ++ space :: right

/-- `ReceiptLayout._center`. -/
def center (columns : ℕ) (text : Text) : Text :=
  if columns ≤ text.length then text
  else List.replicate ((columns - text.length) / 2) space ++ text

/-- A letter in upper case. -/
def toUpper (unit : UInt16) : UInt16 := if 0x61 ≤ unit ∧ unit ≤ 0x7A then unit - 0x20 else unit

/-- A text on the left, in no style. -/
def plainLine (text : Text) : ReceiptLine := { text := text }

/-- What is wrapped of a line of the sale. -/
def labelOf (l10n : AppLocalizations) (line : SaleLine) : Text :=
  if line.quantity = 1 then l10n.displayProductName line.productName
  else exact line.quantity ++ units " x " ++ l10n.displayProductName line.productName

/-- `ReceiptLayout._item`. -/
def item (formats : Formats) (layout : ReceiptLayout) (line : SaleLine) : List ReceiptLine :=
  let columns := layout.width.columns
  let amount := formats.plain line.lineTotal
  let wrapped := wrap columns layout.columns_pos (labelOf layout.l10n line)
  if line.quantity = 1 then
    let last := wrapped.getLast (wrap_ne_nil _)
    if last.length + 1 + amount.length ≤ columns then
      wrapped.dropLast.map plainLine ++ [plainLine (pair columns last amount)]
    else
      wrapped.dropLast.map plainLine ++ [plainLine last, plainLine (pair columns [] amount)]
  else
    wrapped.map plainLine ++
      [plainLine (pair columns (units "   @ " ++ formats.plain line.unitPrice) amount)]

/-- The rule across the paper. -/
def rule (columns : ℕ) : ReceiptLine := plainLine (List.replicate columns 0x2D)

/-- The lines above the items. -/
def heading (formats : Formats) (layout : ReceiptLayout) (sale : Sale) (storeName : Text) :
    List ReceiptLine :=
  [{ text := storeName, align := .center, bold := true, large := true },
    { text := formats.dayMonth sale.occurredAt ++ space :: formats.year sale.occurredAt ++
        units ", " ++ formats.timeOfDay sale.occurredAt
      align := .center },
    { text := layout.l10n.receiptReference ((sale.id.text.take 6).map toUpper)
      align := .center },
    rule layout.width.columns]

/-- The subtotal and the discount, if there is one. -/
def discountLines (formats : Formats) (layout : ReceiptLayout) (sale : Sale) : List ReceiptLine :=
  let columns := layout.width.columns
  if 0 < sale.discountAmount then
    [plainLine (pair columns layout.l10n.receiptSubtotal
        (formats.plain (sale.totalAmount + sale.discountAmount))),
      plainLine (pair columns layout.l10n.receiptDiscount
        (units "-" ++ formats.plain sale.discountAmount))]
  else []

/-- The total paid. -/
def totalLine (formats : Formats) (layout : ReceiptLayout) (sale : Sale) : ReceiptLine :=
  { text := pair layout.width.columns layout.l10n.receiptTotal
      (layout.currencySymbol ++ space :: formats.plain sale.totalAmount)
    bold := true }

/-- The lines below it. -/
def ending (layout : ReceiptLayout) (sale : Sale) : List ReceiptLine :=
  [plainLine (pair layout.width.columns layout.l10n.receiptPaidBy
      (layout.l10n.paymentMethod sale.paymentMethod)),
    rule layout.width.columns,
    { text := layout.l10n.receiptThanks, align := .center }]

/-- `ReceiptLayout.build`. -/
def build (formats : Formats) (layout : ReceiptLayout) (sale : Sale) (storeName : Text) :
    List ReceiptLine :=
  heading formats layout sale storeName ++ sale.lines.flatMap (item formats layout) ++
    rule layout.width.columns :: discountLines formats layout sale ++
    totalLine formats layout sale :: ending layout sale

/-- A line of the shared text. -/
def sharedLine (columns : ℕ) (line : ReceiptLine) : Text :=
  if line.align = .center then center columns line.text else line.text

/-- What ends a line of a text. -/
def newline : UInt16 := 0x0A

/-- `ReceiptLayout.asText`. -/
def asText (formats : Formats) (layout : ReceiptLayout) (sale : Sale) (storeName : Text) : Text :=
  [newline].intercalate
    ((build formats layout sale storeName).map (sharedLine layout.width.columns))

/-- No pair of units, and nothing that is spelled out. -/
def Regular (text : Text) : Prop := ∀ unit ∈ text, isLead unit = false ∧ unit ≠ 0x2026

instance (text : Text) : Decidable (Regular text) :=
  List.decidableBAll (fun unit => isLead unit = false ∧ unit ≠ 0x2026) text

theorem Regular.append {left right : Text} (hleft : Regular left) (hright : Regular right) :
    Regular (left ++ right) := by
  intro unit hunit
  cases List.mem_append.mp hunit with
  | inl h => exact hleft unit h
  | inr h => exact hright unit h

theorem regular_space : Regular [space] := by
  intro unit hunit
  rw [List.mem_singleton.mp hunit]
  decide

theorem Regular.spaced {left right : Text} (hleft : Regular left) (hright : Regular right) :
    Regular (left ++ space :: right) :=
  hleft.append (regular_space.append hright)

theorem regular_replicate (n : ℕ) : Regular (List.replicate n space) := by
  intro unit hunit
  rw [List.eq_of_mem_replicate hunit]
  decide

/-- A unit of plain ASCII stands by itself. -/
theorem regular_unit {unit : UInt16} (h : unit.toNat < 0x7F) :
    isLead unit = false ∧ unit ≠ 0x2026 := by
  constructor
  · rw [isLead, decide_eq_false_iff_not, UInt16.le_iff_toNat_le]
    intro hlead
    have hlarge : 0xD800 ≤ unit.toNat := hlead.1
    omega
  · intro heq
    rw [heq] at h
    exact absurd h (by decide)

theorem Plain.regular {text : Text} (h : Plain text) : Regular text := fun unit hunit =>
  regular_unit (UInt16.lt_iff_toNat_lt.mp (h unit hunit).2)

/-- A regular text takes as many characters as it has. -/
theorem Regular.printedLength_eq {text : Text} (h : Regular text) :
    printedLength text = text.length := by
  rw [printedLength, runes_of_noLead fun unit hunit => (h unit hunit).1, List.length_map]
  have hnone : (text.map UInt16.toNat).count 0x2026 = 0 := by
    rw [List.count_eq_zero, List.mem_map]
    rintro ⟨unit, hunit, hvalue⟩
    exact (h unit hunit).2 (UInt16.toNat_inj.mp hvalue)
  rw [hnone, Nat.mul_zero, Nat.add_zero]

/-- What follows a space has runes of its own. -/
theorem runes_spaced (left right : Text) :
    runes (left ++ space :: right) = runes left ++ 0x20 :: runes right := by
  have hright : runes (space :: right) = 0x20 :: runes right := by
    cases right with
    | nil => rfl
    | cons next rest =>
      have hpair : ¬(isLead space && isTrail next) = true := Bool.false_ne_true
      rw [runes, if_neg hpair]
      rfl
  rw [← hright]
  apply runes_append
  intro unit hunit
  rw [← Option.some.inj hunit]
  decide

theorem printedLength_spaced (left right : Text) :
    printedLength (left ++ space :: right) = printedLength left + 1 + printedLength right := by
  rw [printedLength, runes_spaced, List.length_append, List.length_cons, List.count_append,
    List.count_cons_of_ne (by decide), printedLength, printedLength]
  omega

theorem ascii_spaced (left right : Text) :
    ascii (left ++ space :: right) = ascii left ++ space :: ascii right := by
  rw [ascii, runes_spaced, List.flatMap_append, List.flatMap_cons]
  rfl

/-- A text ends in an amount, after a space. -/
def Shows (text amount : Text) : Prop := ∃ left, text = left ++ space :: amount

section

variable {columns : ℕ} {left right : Text}

/-- A label with room for the value, filled up between them. -/
theorem pair_of_le (h : left.length + 1 + right.length ≤ columns) :
    pair columns left right = left ++ space ::
      (List.replicate (columns - left.length - right.length - 1) space ++ right) := by
  have hblank : (1 : ℤ) ≤ columns - left.length - right.length := by omega
  have hcount : ((columns : ℤ) - left.length - right.length).toNat =
      columns - left.length - right.length - 1 + 1 := by omega
  rw [pair]
  simp only [if_pos hblank]
  rw [hcount, List.replicate_succ, List.append_assoc, List.cons_append]

/-- A label without is cut. -/
theorem pair_of_gt (h : columns < left.length + 1 + right.length) :
    pair columns left right = left.take (columns - right.length - 1) ++ space :: right := by
  have hblank : ¬(1 : ℤ) ≤ columns - left.length - right.length := by omega
  have hroom : (min (max ((columns : ℤ) - right.length - 1) 0) left.length).toNat =
      min (columns - right.length - 1) left.length := by omega
  rw [pair]
  simp only [if_neg hblank]
  rw [hroom, ← List.take_eq_take_min]

/-- A pair is as long as the paper is wide. -/
theorem length_pair (h : right.length < columns) : (pair columns left right).length = columns := by
  by_cases hfit : left.length + 1 + right.length ≤ columns
  · rw [pair_of_le hfit, List.length_append, List.length_cons, List.length_append,
      List.length_replicate]
    omega
  · rw [pair_of_gt (by omega), List.length_append, List.length_cons, List.length_take]
    omega

/-- The value is never cut. -/
theorem shows_pair : Shows (pair columns left right) right := by
  by_cases hfit : left.length + 1 + right.length ≤ columns
  · rw [pair_of_le hfit]
    have hblank : ∀ n, space :: (List.replicate n space ++ right) =
        List.replicate n space ++ space :: right := by
      intro n
      rw [← List.cons_append, ← List.replicate_succ, List.replicate_succ', List.append_assoc,
        List.singleton_append]
    rw [hblank, ← List.append_assoc]
    exact ⟨_, rfl⟩
  · rw [pair_of_gt (by omega)]
    exact ⟨_, rfl⟩

theorem Shows.ascii {text amount : Text} (h : Shows text amount) :
    Shows (ascii text) (ascii amount) := by
  obtain ⟨left, hleft⟩ := h
  rw [hleft, ascii_spaced]
  exact ⟨_, rfl⟩

theorem Regular.pair (hleft : Regular left) (hright : Regular right) :
    Regular (pair columns left right) := by
  by_cases hfit : left.length + 1 + right.length ≤ columns
  · rw [pair_of_le hfit]
    exact hleft.spaced ((regular_replicate _).append hright)
  · rw [pair_of_gt (by omega)]
    apply Regular.spaced _ hright
    exact fun unit hunit => hleft unit (List.mem_of_mem_take hunit)

/-- A label with room for the value is as long in print as by itself, and
takes the rest of the line as it is. -/
theorem printedLength_pair (h : left.length + 1 + right.length ≤ columns)
    (hright : Regular right) :
    printedLength (ReceiptLines.pair columns left right) + left.length =
      columns + printedLength left := by
  rw [pair_of_le h, printedLength_spaced,
    ((regular_replicate _).append hright).printedLength_eq, List.length_append,
    List.length_replicate]
  omega

theorem length_center_le {text : Text} (h : text.length ≤ columns) :
    (center columns text).length ≤ columns := by
  rw [center]
  split
  · exact h
  · rw [List.length_append, List.length_replicate]
    omega

end

/-- A line fits the paper on the screen and in print. -/
def LineFits (columns : ℕ) (line : ReceiptLine) : Prop :=
  line.text.length ≤ columns ∧ printedLength line.text ≤ columns

theorem Regular.lineFits {columns : ℕ} {line : ReceiptLine} (h : Regular line.text)
    (hlength : line.text.length ≤ columns) : LineFits columns line :=
  ⟨hlength, by rw [h.printedLength_eq]; exact hlength⟩

end Kitaza.ReceiptLines
