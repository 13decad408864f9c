import Kitaza.DartText
import Kitaza.EscPosPrinter

/-!
# A receipt for the printer

Receipt lines become one stream of ESC/POS: a reset, then for each line its
alignment, weight and size, its text in plain ASCII and a line feed, and at
the end a feed and a cut. A printer that reads the stream prints those lines
and no other.
-/

namespace Kitaza.EscPosEncoder

open DartText EscPosPrinter

/-- Where a line stands on the paper. -/
inductive ReceiptAlign where
  | left
  | center
  deriving DecidableEq, Repr

/-- One printed line, with the little styling a thermal printer can do. -/
structure ReceiptLine where
  /-- The text. -/
  text : Text
  /-- The alignment. -/
  align : ReceiptAlign := .left
  /-- Bold. -/
  bold : Bool := false
  /-- Double height. -/
  large : Bool := false
  deriving DecidableEq, Repr

/-- What is spelled out or replaced. -/
def replacements : List (Text × Text) :=
  [(units "₱", units "P"), (units "ñ", units "n"), (units "Ñ", units "N"),
    (units "á", units "a"), (units "é", units "e"), (units "í", units "i"),
    (units "ó", units "o"), (units "ú", units "u"), (units "Á", units "A"),
    (units "É", units "E"), (units "Í", units "I"), (units "Ó", units "O"),
    (units "Ú", units "U"), (units "·", units "-"), (units "×", units "x"),
    (units "–", units "-"), (units "—", units "-"), (units "…", units "..."),
    (units "‘", units "'"), (units "’", units "'"), (units "“", units "\""),
    (units "”", units "\"")]

/-- What one rune is printed as. -/
def asciiRune (rune : ℕ) : Text :=
  let char := fromCharCode rune
  if 0x20 ≤ rune ∧ rune < 0x7F then char else (replacements.lookup char).getD (units "?")

/-- `EscPosEncoder.ascii`. -/
def ascii (text : Text) : Text := (runes text).flatMap asciiRune

def reset : List UInt16 := [0x1B, 0x40]
def alignLeft : List UInt16 := [0x1B, 0x61, 0x00]
def alignCenter : List UInt16 := [0x1B, 0x61, 0x01]
def boldOn : List UInt16 := [0x1B, 0x45, 0x01]
def boldOff : List UInt16 := [0x1B, 0x45, 0x00]
def doubleHeight : List UInt16 := [0x1D, 0x21, 0x01]
def normalSize : List UInt16 := [0x1D, 0x21, 0x00]
def feedAndCut : List UInt16 := [0x1B, 0x64, 0x04, 0x1D, 0x56, 0x42, 0x00]
def lineFeed : UInt16 := 0x0A

/-- One line of the stream. -/
def encodeLine (line : ReceiptLine) : List UInt16 :=
  (if line.align = .center then alignCenter else alignLeft) ++
    (if line.bold then boldOn else boldOff) ++
    (if line.large then doubleHeight else normalSize) ++ ascii line.text ++ [lineFeed]

/-- `EscPosEncoder.encode`. -/
def encode (lines : List ReceiptLine) : List UInt16 :=
  reset ++ lines.flatMap encodeLine ++ boldOff ++ normalSize ++ alignLeft ++ feedAndCut

/-- A line as it should come out of the printer. -/
def printed (line : ReceiptLine) : PrintedLine :=
  ⟨⟨decide (line.align = .center), line.bold, line.large⟩, ascii line.text⟩

/-- Every replacement can be printed. -/
theorem replacements_printable :
    ∀ pair ∈ replacements, ∀ unit ∈ pair.2, isPrintable unit = true := by
  have hall : (replacements.all fun pair => pair.2.all isPrintable) = true := by decide
  intro pair hpair
  exact List.all_eq_true.mp (List.all_eq_true.mp hall pair hpair)

/-- Every rune comes out as characters that can be printed. -/
theorem asciiRune_printable (rune : ℕ) : ∀ unit ∈ asciiRune rune, isPrintable unit = true := by
  intro unit hunit
  rw [asciiRune] at hunit
  split at hunit
  next hplain =>
    have hchar : fromCharCode rune = [rune.toUInt16] := by rw [fromCharCode, if_pos (by omega)]
    have hvalue : rune.toUInt16.toNat = rune := Nat.mod_eq_of_lt (by omega)
    rw [hchar, List.mem_singleton] at hunit
    rw [hunit, isPrintable, decide_eq_true_eq, UInt16.le_iff_toNat_le, UInt16.lt_iff_toNat_lt,
      hvalue]
    exact hplain
  next =>
    cases hfound : replacements.lookup (fromCharCode rune) with
    | none =>
      rw [hfound] at hunit
      have hall : (units "?").all isPrintable = true := by decide
      exact List.all_eq_true.mp hall unit hunit
    | some replacement =>
      rw [hfound] at hunit
      obtain ⟨before, after, hlist, _⟩ := List.lookup_eq_some_iff.mp hfound
      have hpair : (fromCharCode rune, replacement) ∈ replacements := by
        rw [hlist]
        exact List.mem_append_right _ List.mem_cons_self
      exact replacements_printable _ hpair unit hunit

/-- All of a text's ASCII can be printed. -/
theorem ascii_printable (text : Text) : ∀ unit ∈ ascii text, isPrintable unit = true := by
  intro unit hunit
  obtain ⟨rune, _, hrune⟩ := List.mem_flatMap.mp hunit
  exact asciiRune_printable rune unit hrune

/-- The characters a text takes in print: three for an ellipsis, one for any
other. -/
def printedLength (text : Text) : ℕ := (runes text).length + 2 * (runes text).count 0x2026

/-- Only the ellipsis is spelled out. -/
theorem length_replacements :
    ∀ pair ∈ replacements, pair.2.length = 1 ∨ pair.1 = units "…" := by
  decide

theorem length_asciiRune (rune : ℕ) :
    (asciiRune rune).length = 1 + 2 * if rune = 0x2026 then 1 else 0 := by
  by_cases hellipsis : rune = 0x2026
  · rw [hellipsis]
    decide
  rw [asciiRune, if_neg hellipsis]
  split
  next hplain => rw [fromCharCode, if_pos (by omega)]; rfl
  next =>
    cases hfound : replacements.lookup (fromCharCode rune) with
    | none => rfl
    | some replacement =>
      obtain ⟨before, after, hlist, _⟩ := List.lookup_eq_some_iff.mp hfound
      have hpair : (fromCharCode rune, replacement) ∈ replacements := by
        rw [hlist]
        exact List.mem_append_right _ List.mem_cons_self
      cases length_replacements _ hpair with
      | inl hone => exact hone
      | inr heq =>
        rw [fromCharCode] at heq
        split at heq
        next hsmall =>
          have hunit : rune.toUInt16 = 0x2026 := (List.cons.inj heq).1
          have hvalue : rune.toUInt16.toNat = rune := Nat.mod_eq_of_lt (by omega)
          rw [hunit] at hvalue
          exact absurd hvalue.symm hellipsis
        next =>
          have hlength : 2 = 1 := congrArg List.length heq
          omega

/-- The length of a text in print. -/
theorem length_ascii (text : Text) : (ascii text).length = printedLength text := by
  rw [ascii, printedLength]
  induction runes text with
  | nil => rfl
  | cons rune rest ih =>
    rw [List.flatMap_cons, List.length_append, ih, length_asciiRune, List.length_cons,
      List.count_cons]
    simp only [beq_iff_eq]
    omega

/-- The printer prints an encoded line as it should, in whatever style it was. -/
theorem feed_encodeLine (style : Style) (done : List PrintedLine) (line : ReceiptLine) :
    feed ⟨style, [], done, .any⟩ (encodeLine line) =
      some ⟨(printed line).style, [], done ++ [printed line], .any⟩ := by
  have halign : (if line.align = .center then alignCenter else alignLeft) =
      [0x1B, 0x61, if decide (line.align = .center) then 1 else 0] := by
    cases line.align <;> rfl
  have hbold : (if line.bold then boldOn else boldOff) =
      [0x1B, 0x45, if line.bold then 1 else 0] := by
    cases line.bold <;> rfl
  have hsize : (if line.large then doubleHeight else normalSize) =
      [0x1D, 0x21, if line.large then 1 else 0] := by
    cases line.large <;> rfl
  rw [encodeLine, halign, hbold, hsize, List.append_assoc, List.append_assoc, List.append_assoc,
    feed_after (feed_align _ _ _ _), feed_after (feed_bold _ _ _ _),
    feed_after (feed_size _ _ _ _), feed_after (feed_text _ _ _ (ascii_printable line.text)),
    List.nil_append]
  exact feed_lineFeed _ _ _

/-- And the lines after one another. -/
theorem feed_lines (style : Style) (done : List PrintedLine) (lines : List ReceiptLine) :
    ∃ last, feed ⟨style, [], done, .any⟩ (lines.flatMap encodeLine) =
      some ⟨last, [], done ++ lines.map printed, .any⟩ := by
  induction lines generalizing style done with
  | nil => exact ⟨style, by rw [List.map_nil, List.append_nil]; rfl⟩
  | cons line rest ih =>
    obtain ⟨last, hlast⟩ := ih (printed line).style (done ++ [printed line])
    refine ⟨last, ?_⟩
    rw [List.flatMap_cons, feed_after (feed_encodeLine style done line), hlast, List.map_cons,
      List.append_assoc, List.singleton_append]

/-- The end of the stream prints nothing. -/
theorem feed_end (style : Style) (done : List PrintedLine) :
    feed ⟨style, [], done, .any⟩ (boldOff ++ (normalSize ++ (alignLeft ++ feedAndCut))) =
      some ⟨.plain, [], done, .any⟩ := by
  have hbold : feed ⟨style, [], done, .any⟩ boldOff =
      some ⟨⟨style.center, false, style.large⟩, [], done, .any⟩ := feed_bold style [] done false
  have hsize : feed ⟨⟨style.center, false, style.large⟩, [], done, .any⟩ normalSize =
      some ⟨⟨style.center, false, false⟩, [], done, .any⟩ := feed_size _ [] done false
  have halign : feed ⟨⟨style.center, false, false⟩, [], done, .any⟩ alignLeft =
      some ⟨.plain, [], done, .any⟩ := feed_align _ [] done false
  rw [feed_after hbold, feed_after hsize, feed_after halign]
  exact feed_cut _ _ _ _

/-- The whole stream. -/
theorem decode_stream (lines : List ReceiptLine) :
    decode (encode lines) = some (lines.map printed) := by
  have hreset := feed_reset .plain [] []
  obtain ⟨last, hlines⟩ := feed_lines .plain [] lines
  rw [List.nil_append] at hlines
  have hend := feed_end last (lines.map printed)
  have hfeed : feed .fresh (encode lines) = some ⟨.plain, [], lines.map printed, .any⟩ := by
    rw [encode, List.append_assoc, List.append_assoc, List.append_assoc, List.append_assoc,
      Printer.fresh, reset, feed_after hreset, feed_after hlines]
    exact hend
  rw [decode, hfeed]
  rfl

/-- A line's stretch of the stream says no more than how it is printed. -/
theorem encodeLine_congr {line other : ReceiptLine} (h : printed line = printed other) :
    encodeLine line = encodeLine other := by
  simp only [printed, PrintedLine.mk.injEq, Style.mk.injEq, decide_eq_decide] at h
  obtain ⟨⟨halign, hbold, hlarge⟩, htext⟩ := h
  simp only [encodeLine, halign, hbold, hlarge, htext]

/-- Receipts that are printed alike have one stream. -/
theorem encode_congr {lines other : List ReceiptLine}
    (h : lines.map printed = other.map printed) : encode lines = encode other := by
  have hlines : lines.flatMap encodeLine = other.flatMap encodeLine := by
    induction lines generalizing other with
    | nil => rw [List.map_eq_nil_iff.mp h.symm]
    | cons line rest ih =>
      cases other with
      | nil => cases h
      | cons first others =>
        rw [List.map_cons, List.map_cons, List.cons.injEq] at h
        rw [List.flatMap_cons, List.flatMap_cons, encodeLine_congr h.1, ih h.2]
  rw [encode, encode, hlines]

/-- Whatever the texts hold, the printer prints exactly the lines of the
receipt, each with its alignment, weight and size and its text in ASCII; and
only receipts that are printed alike have one stream. -/
theorem decode_encode_lines (lines : List ReceiptLine) :
    decode (encode lines) = some (lines.map printed) ∧
      ∀ other, encode other = encode lines ↔ other.map printed = lines.map printed := by
  refine ⟨decode_stream lines, fun other => ⟨fun h => ?_, encode_congr⟩⟩
  have hother := decode_stream other
  rw [h, decode_stream lines, Option.some.injEq] at hother
  exact hother.symm

example : ascii (units "Niño · ₱20 × 2 – “sale”") = units "Nino - P20 x 2 - \"sale\"" := by
  decide

end Kitaza.EscPosEncoder
