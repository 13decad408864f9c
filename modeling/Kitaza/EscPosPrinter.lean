import Mathlib.Data.UInt
import Mathlib.Control.Basic

/-!
# A printer that reads ESC/POS

The printer takes its stream one number at a time. A command is an escape or
group byte, a letter and mostly one argument; a printable byte goes to the
line under way, and a line feed prints it in the style then set. Anything else
is refused.
-/

namespace Kitaza.EscPosPrinter

/-- How the next line is printed. -/
structure Style where
  /-- Centred rather than flush left. -/
  center : Bool
  /-- Printed twice over. -/
  bold : Bool
  /-- Of double height. -/
  large : Bool
  deriving DecidableEq, Repr

/-- The style after a reset. -/
def Style.plain : Style := ⟨false, false, false⟩

/-- A printed line. -/
structure PrintedLine where
  /-- The style it was printed in. -/
  style : Style
  /-- Its characters. -/
  text : List UInt16
  deriving DecidableEq, Repr

/-- What the printer expects next. -/
inductive Expecting where
  /-- Text, or the start of a command. -/
  | any
  /-- The letter after an escape byte. -/
  | escape
  /-- The argument of an escape command. -/
  | escapeArgument (letter : UInt16)
  /-- The letter after a group byte. -/
  | group
  /-- The argument of a group command. -/
  | groupArgument (letter : UInt16)
  /-- How far to feed before the cut. -/
  | cutFeed
  deriving DecidableEq, Repr

/-- The printer. -/
structure Printer where
  /-- The style set last. -/
  style : Style
  /-- The characters of the line under way. -/
  buffer : List UInt16
  /-- The lines printed so far. -/
  printed : List PrintedLine
  /-- What comes next. -/
  expecting : Expecting
  deriving DecidableEq, Repr

/-- A printer that is switched on. -/
def Printer.fresh : Printer := ⟨.plain, [], [], .any⟩

/-- A character it can print. -/
def isPrintable (byte : UInt16) : Bool := decide (0x20 ≤ byte ∧ byte < 0x7F)

/-- Text, a line feed or the start of a command. -/
def takeAny (p : Printer) (byte : UInt16) : Option Printer :=
  if byte = 0x1B then some { p with expecting := .escape }
  else if byte = 0x1D then some { p with expecting := .group }
  else if byte = 0x0A then
    some { p with buffer := [], printed := p.printed ++ [⟨p.style, p.buffer⟩] }
  else if isPrintable byte then some { p with buffer := p.buffer ++ [byte] }
  else none

/-- The letter after an escape byte: reset, or a command with an argument. -/
def takeEscape (p : Printer) (byte : UInt16) : Option Printer :=
  if byte = 0x40 then some { p with style := .plain, buffer := [], expecting := .any }
  else if byte = 0x61 ∨ byte = 0x45 ∨ byte = 0x64 then
    some { p with expecting := .escapeArgument byte }
  else none

/-- The argument of alignment, of bold, or of the feed of an empty line. -/
def takeEscapeArgument (p : Printer) (letter byte : UInt16) : Option Printer :=
  if letter = 0x64 then if p.buffer = [] then some { p with expecting := .any } else none
  else if byte = 0 ∨ byte = 1 then
    if letter = 0x61 then
      some { p with style := { p.style with center := decide (byte = 1) }, expecting := .any }
    else some { p with style := { p.style with bold := decide (byte = 1) }, expecting := .any }
  else none

/-- The letter after a group byte: size or cut. -/
def takeGroup (p : Printer) (byte : UInt16) : Option Printer :=
  if byte = 0x21 ∨ byte = 0x56 then some { p with expecting := .groupArgument byte } else none

/-- The argument of size, or the kind of cut. -/
def takeGroupArgument (p : Printer) (letter byte : UInt16) : Option Printer :=
  if letter = 0x56 then if byte = 0x42 then some { p with expecting := .cutFeed } else none
  else if byte = 0 ∨ byte = 1 then
    some { p with style := { p.style with large := decide (byte = 1) }, expecting := .any }
  else none

/-- One number of the stream. -/
def take (p : Printer) (byte : UInt16) : Option Printer :=
  match p.expecting with
  | .any => takeAny p byte
  | .escape => takeEscape p byte
  | .escapeArgument letter => takeEscapeArgument p letter byte
  | .group => takeGroup p byte
  | .groupArgument letter => takeGroupArgument p letter byte
  | .cutFeed => some { p with expecting := .any }

/-- A stretch of the stream. -/
def feed (p : Printer) (stream : List UInt16) : Option Printer := stream.foldlM take p

/-- The lines a stream prints, if it ends after a line and a command. -/
def decode (stream : List UInt16) : Option (List PrintedLine) :=
  (feed .fresh stream).bind fun p =>
    if p.expecting = .any ∧ p.buffer = [] then some p.printed else none

theorem feed_nil (p : Printer) : feed p [] = some p := rfl

theorem feed_append (p : Printer) (first rest : List UInt16) :
    feed p (first ++ rest) = (feed p first).bind fun q => feed q rest :=
  List.foldlM_append

/-- A stretch after one that is taken. -/
theorem feed_after {p q : Printer} {first : List UInt16} (h : feed p first = some q)
    (rest : List UInt16) : feed p (first ++ rest) = feed q rest := by
  rw [feed_append, h, Option.bind_some]

section

variable (style : Style) (buffer : List UInt16) (printed : List PrintedLine)

/-- A reset. -/
theorem feed_reset :
    feed ⟨style, buffer, printed, .any⟩ [0x1B, 0x40] = some ⟨.plain, [], printed, .any⟩ := rfl

/-- Alignment. -/
theorem feed_align (center : Bool) :
    feed ⟨style, buffer, printed, .any⟩ [0x1B, 0x61, if center then 1 else 0] =
      some ⟨{ style with center := center }, buffer, printed, .any⟩ := by
  cases center <;> rfl

/-- Bold. -/
theorem feed_bold (bold : Bool) :
    feed ⟨style, buffer, printed, .any⟩ [0x1B, 0x45, if bold then 1 else 0] =
      some ⟨{ style with bold := bold }, buffer, printed, .any⟩ := by
  cases bold <;> rfl

/-- Size. -/
theorem feed_size (large : Bool) :
    feed ⟨style, buffer, printed, .any⟩ [0x1D, 0x21, if large then 1 else 0] =
      some ⟨{ style with large := large }, buffer, printed, .any⟩ := by
  cases large <;> rfl

/-- A feed and a cut print nothing. -/
theorem feed_cut (lines rows : UInt16) :
    feed ⟨style, [], printed, .any⟩ [0x1B, 0x64, lines, 0x1D, 0x56, 0x42, rows] =
      some ⟨style, [], printed, .any⟩ := rfl

/-- A line feed prints the line under way. -/
theorem feed_lineFeed :
    feed ⟨style, buffer, printed, .any⟩ [0x0A] =
      some ⟨style, [], printed ++ [⟨style, buffer⟩], .any⟩ := rfl

/-- Printable bytes join the line under way, whatever they are. -/
theorem feed_text {text : List UInt16} (htext : ∀ byte ∈ text, isPrintable byte = true) :
    feed ⟨style, buffer, printed, .any⟩ text = some ⟨style, buffer ++ text, printed, .any⟩ := by
  induction text generalizing buffer with
  | nil => rw [List.append_nil, feed_nil]
  | cons byte rest ih =>
    have hbyte := htext byte List.mem_cons_self
    have hrest := ih (buffer ++ [byte]) fun b hb => htext b (List.mem_cons_of_mem _ hb)
    have hrange := decide_eq_true_eq.mp hbyte
    have hescape : byte ≠ 0x1B := by
      intro h
      rw [h] at hrange
      exact absurd hrange (by decide)
    have hgroup : byte ≠ 0x1D := by
      intro h
      rw [h] at hrange
      exact absurd hrange (by decide)
    have hfeed : byte ≠ 0x0A := by
      intro h
      rw [h] at hrange
      exact absurd hrange (by decide)
    have htake : take ⟨style, buffer, printed, .any⟩ byte =
        some ⟨style, buffer ++ [byte], printed, .any⟩ := by
      rw [take, takeAny, if_neg hescape, if_neg hgroup, if_neg hfeed, if_pos hbyte]
    rw [List.append_assoc, List.singleton_append] at hrest
    rw [← hrest, feed, List.foldlM_cons, htake]
    rfl

end

end Kitaza.EscPosPrinter
