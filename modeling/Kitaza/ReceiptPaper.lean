import Kitaza.ReceiptLines

/-!
# A receipt stays on the paper

Amounts are never cut short. A line runs past the paper where the store's name
is too long, or where the printer spells out an ellipsis on a line that has no
room for it, and nowhere else.
-/

namespace Kitaza.ReceiptPaper

open DartText EscPosPrinter EscPosEncoder GreedyPacking ReceiptWrap ReceiptLines
open PhoneDatabase (PaymentMethod)

/-- The amounts of a receipt: every line total, the discount if there is one,
and the total paid. -/
def amounts (formats : Formats) (layout : ReceiptLayout) (sale : Sale) : List Text :=
  sale.lines.map (fun line => formats.plain line.lineTotal) ++
    (if 0 < sale.discountAmount then [units "-" ++ formats.plain sale.discountAmount] else []) ++
    [layout.currencySymbol ++ space :: formats.plain sale.totalAmount]

/-- Every amount ends a line of its own, in the order of the receipt, on the
left and so as it is in the shared text, and in print too. -/
def AmountsShown (lines : List ReceiptLine) (amounts : List Text) : Prop :=
  ∃ shown : List ReceiptLine, shown.Sublist lines ∧
    List.Forall₂ (fun line amount => line.align = .left ∧ Shows line.text amount ∧
      Shows (ascii line.text) (ascii amount)) shown amounts

/-- No line runs past the paper: not as laid out, not in the shared text, not
in print; and the amounts are shown. -/
structure OnPaper (formats : Formats) (layout : ReceiptLayout) (sale : Sale) (storeName : Text) :
    Prop where
  laid : ∀ line ∈ build formats layout sale storeName, line.text.length ≤ layout.width.columns
  shared : ∀ text ∈ (asText formats layout sale storeName).splitOn newline,
    text.length ≤ layout.width.columns
  printed : ∃ out, decode (encode (build formats layout sale storeName)) = some out ∧
    ∀ line ∈ out, line.text.length ≤ layout.width.columns
  amounts : AmountsShown (build formats layout sale storeName) (amounts formats layout sale)

/-- The words of a label, filled into lines, do not take more characters in
print than there are columns. -/
def RowsFit (layout : ReceiptLayout) (label : Text) : Prop :=
  ∀ rows, Packed (fits layout.width.columns)
      (textPieces layout.width.columns layout.columns_pos label) rows →
    ∀ row ∈ rows, printedLength (lineOf row) ≤ layout.width.columns

/-- The last of these lines takes no more characters in print than on the
screen if an amount goes on it. -/
def LastFits (layout : ReceiptLayout) (label amount : Text) : Prop :=
  ∀ rows, Packed (fits layout.width.columns)
      (textPieces layout.width.columns layout.columns_pos label) rows →
    ∀ row, rows.getLast? = some row →
      (lineOf row).length + 1 + amount.length ≤ layout.width.columns →
        printedLength (lineOf row) ≤ (lineOf row).length

/-- The store's name fits on a line, on the screen and in print, and so does
what is spelled out in the names of what was sold. -/
structure NamesFit (formats : Formats) (layout : ReceiptLayout) (sale : Sale) (storeName : Text) :
    Prop where
  laid : storeName.length ≤ layout.width.columns
  printed : printedLength storeName ≤ layout.width.columns
  rows : ∀ line ∈ sale.lines, RowsFit layout (labelOf layout.l10n line)
  last : ∀ line ∈ sale.lines, line.quantity = 1 →
    LastFits layout (labelOf layout.l10n line) (formats.plain line.lineTotal)

section

variable {columns : ℕ} {hcolumns : 1 ≤ columns}

/-- The rows of a label are those it is packed into. -/
theorem packed_iff (label : Text) (rows : List (List Text)) :
    Packed (fits columns) (textPieces columns hcolumns label) rows ↔
      rows = pack (fits columns) (textPieces columns hcolumns label) := by
  constructor
  · intro h
    apply h.eq_pack
    intro init rest hfit
    have hle : (lineOf init).length ≤ (lineOf (init ++ rest)).length :=
      SeparatedWords.length_intercalate_append init rest
    rw [fits, decide_eq_true_eq] at hfit ⊢
    omega
  · intro h
    rw [h]
    exact rows_packed label

/-- What holds of the empty line holds of every wrapped line exactly when it
does of the rows. -/
theorem forall_mem_wrap {P : Text → Prop} (hnil : P []) (label : Text) :
    (∀ line ∈ wrap columns hcolumns label, P line) ↔
      ∀ rows, Packed (fits columns) (textPieces columns hcolumns label) rows →
        ∀ row ∈ rows, P (lineOf row) := by
  simp only [packed_iff, forall_eq]
  rw [wrap_eq]
  split
  next hnone =>
    rw [hnone]
    constructor
    · exact fun _ _ hrow => absurd hrow List.not_mem_nil
    · intro _ line hline
      rw [List.mem_singleton.mp hline]
      exact hnil
  next => exact List.forall_mem_map

/-- And of the last wrapped line when it does of the last row. -/
theorem getLast_wrap {P : Text → Prop} (hnil : P []) (label : Text) :
    P ((wrap columns hcolumns label).getLast (wrap_ne_nil label)) ↔
      ∀ rows, Packed (fits columns) (textPieces columns hcolumns label) rows →
        ∀ row, rows.getLast? = some row → P (lineOf row) := by
  have hlast : (wrap columns hcolumns label).getLast? =
      some ((wrap columns hcolumns label).getLast (wrap_ne_nil label)) :=
    List.getLast?_eq_some_getLast _
  generalize (wrap columns hcolumns label).getLast (wrap_ne_nil label) = last at hlast ⊢
  simp only [packed_iff, forall_eq]
  rw [wrap_eq] at hlast
  split at hlast
  next hnone =>
    rw [List.getLast?_singleton, Option.some.injEq] at hlast
    rw [← hlast, hnone]
    exact iff_of_true hnil fun _ hrow => (by cases hrow)
  next =>
    rw [List.getLast?_map, Option.map_eq_some_iff] at hlast
    obtain ⟨row, hrow, hline⟩ := hlast
    rw [← hline, hrow]
    constructor
    · intro h other hother
      rw [← Option.some.inj hother]
      exact h
    · exact fun h => h row rfl

end

section

variable {formats : Formats} {layout : ReceiptLayout} {line : SaleLine}

/-- The lines an item's label is wrapped into. -/
abbrev labelLines (layout : ReceiptLayout) (line : SaleLine) : List Text :=
  wrap layout.width.columns layout.columns_pos (labelOf layout.l10n line)

theorem labelLines_ne_nil (layout : ReceiptLayout) (line : SaleLine) :
    labelLines layout line ≠ [] := wrap_ne_nil _

/-- The last of them. -/
abbrev lastLabel (layout : ReceiptLayout) (line : SaleLine) : Text :=
  (labelLines layout line).getLast (labelLines_ne_nil layout line)

theorem dropLast_labelLines :
    (labelLines layout line).dropLast ++ [lastLabel layout line] = labelLines layout line :=
  List.dropLast_append_getLast _

/-- One of a thing, its total on the name's last line. -/
theorem item_shared (hone : line.quantity = 1)
    (hroom : (lastLabel layout line).length + 1 + (formats.plain line.lineTotal).length ≤
      layout.width.columns) :
    item formats layout line = (labelLines layout line).dropLast.map plainLine ++
      [plainLine (pair layout.width.columns (lastLabel layout line)
        (formats.plain line.lineTotal))] := by
  rw [item]
  simp only [if_pos hone]
  exact if_pos hroom

/-- One of a thing, its total on a line of its own. -/
theorem item_alone (hone : line.quantity = 1)
    (hroom : ¬(lastLabel layout line).length + 1 + (formats.plain line.lineTotal).length ≤
      layout.width.columns) :
    item formats layout line = (labelLines layout line).map plainLine ++
      [plainLine (pair layout.width.columns [] (formats.plain line.lineTotal))] := by
  rw [← dropLast_labelLines, List.map_append, List.append_assoc, item]
  simp only [if_pos hone]
  exact if_neg hroom

/-- Any other quantity, the price of one before the total. -/
theorem item_many (hmany : line.quantity ≠ 1) :
    item formats layout line = (labelLines layout line).map plainLine ++
      [plainLine (pair layout.width.columns (units "   @ " ++ formats.plain line.unitPrice)
        (formats.plain line.lineTotal))] := by
  rw [item]
  simp only [if_neg hmany]

theorem regular_at : Regular (units "   @ ") := by
  decide

/-- Wrapped lines and one more fit. -/
theorem forall_lineFits_iff {columns : ℕ} {texts : List Text}
    (hlengths : ∀ text ∈ texts, text.length ≤ columns) (last : ReceiptLine) :
    (∀ out ∈ texts.map plainLine ++ [last], LineFits columns out) ↔
      (∀ text ∈ texts, printedLength text ≤ columns) ∧ LineFits columns last := by
  rw [List.forall_mem_append, List.forall_mem_map, List.forall_mem_singleton]
  refine and_congr_left fun _ => forall₂_congr fun text htext => ?_
  exact and_iff_right (hlengths text htext)

theorem rowsFit_iff : RowsFit layout (labelOf layout.l10n line) ↔
    ∀ text ∈ labelLines layout line, printedLength text ≤ layout.width.columns :=
  (@forall_mem_wrap _ layout.columns_pos
    (fun text => printedLength text ≤ layout.width.columns) (Nat.zero_le _) _).symm

theorem lastFits_iff (amount : Text) : LastFits layout (labelOf layout.l10n line) amount ↔
    ((lastLabel layout line).length + 1 + amount.length ≤ layout.width.columns →
      printedLength (lastLabel layout line) ≤ (lastLabel layout line).length) := by
  have hblank : ([] : Text).length + 1 + amount.length ≤ layout.width.columns →
      printedLength [] ≤ ([] : Text).length := fun _ => le_rfl
  exact (@getLast_wrap _ layout.columns_pos
    (fun text => text.length + 1 + amount.length ≤ layout.width.columns →
      printedLength text ≤ text.length) hblank _).symm

/-- A pair of regular texts fits, whatever its style. -/
theorem lineFits_pair {columns : ℕ} {left right : Text} {line : ReceiptLine}
    (hline : line.text = pair columns left right) (hleft : Regular left) (hright : Regular right)
    (hlength : right.length < columns) : LineFits columns line := by
  apply Regular.lineFits
  · rw [hline]
    exact hleft.pair hright
  · rw [hline, length_pair hlength]

/-- An item's lines fit if those of its label do, and the last one in print
with its total on it. -/
theorem item_fits_iff (hformats : formats.Documented)
    (hshort : (formats.plain line.lineTotal).length < layout.width.columns) :
    (∀ out ∈ item formats layout line, LineFits layout.width.columns out) ↔
      RowsFit layout (labelOf layout.l10n line) ∧
        (line.quantity = 1 →
          LastFits layout (labelOf layout.l10n line) (formats.plain line.lineTotal)) := by
  have hamount : Regular (formats.plain line.lineTotal) := (hformats.plain _).regular
  have hlengths : ∀ text ∈ labelLines layout line, text.length ≤ layout.width.columns :=
    fun text => length_of_mem_wrap
  rw [rowsFit_iff, lastFits_iff]
  by_cases hone : line.quantity = 1
  · by_cases hroom : (lastLabel layout line).length + 1 +
        (formats.plain line.lineTotal).length ≤ layout.width.columns
    · have hpair := printedLength_pair hroom hamount
      have hlength := @length_pair _ (lastLabel layout line) _ hshort
      have hbefore : ∀ text ∈ (labelLines layout line).dropLast,
          text.length ≤ layout.width.columns :=
        fun text htext => hlengths text (List.mem_of_mem_dropLast htext)
      -- the line that is shared is full, so its label may not be longer in print
      have hshared : LineFits layout.width.columns (plainLine (pair layout.width.columns
          (lastLabel layout line) (formats.plain line.lineTotal))) ↔
          printedLength (lastLabel layout line) ≤ (lastLabel layout line).length := by
        rw [LineFits]
        simp only [plainLine]
        constructor
        · intro h
          omega
        · intro h
          exact ⟨hlength.le, by omega⟩
      have hlabel := hlengths _ (List.getLast_mem (wrap_ne_nil (labelOf layout.l10n line)))
      have hsplit : (∀ text ∈ labelLines layout line, printedLength text ≤ layout.width.columns) ↔
          (∀ text ∈ (labelLines layout line).dropLast,
            printedLength text ≤ layout.width.columns) ∧
          printedLength (lastLabel layout line) ≤ layout.width.columns := by
        conv_lhs => rw [← dropLast_labelLines]
        rw [List.forall_mem_append, List.forall_mem_singleton]
      rw [item_shared hone hroom, forall_lineFits_iff hbefore, hshared, hsplit]
      constructor
      · exact fun h => ⟨⟨h.1, by omega⟩, fun _ _ => h.2⟩
      · exact fun h => ⟨h.1.1, h.2 hone hroom⟩
    · have hblank : Regular [] := fun _ hunit => absurd hunit List.not_mem_nil
      rw [item_alone hone hroom, forall_lineFits_iff hlengths,
        and_iff_left (lineFits_pair rfl hblank hamount hshort)]
      exact (and_iff_left fun _ h => absurd h hroom).symm
  · have hprice : Regular (units "   @ " ++ formats.plain line.unitPrice) :=
      regular_at.append (hformats.plain _).regular
    rw [item_many hone, forall_lineFits_iff hlengths,
      and_iff_left (lineFits_pair rfl hprice hamount hshort)]
    exact (and_iff_left fun h => absurd h hone).symm

/-- The last line of an item shows its total. -/
theorem item_total : ∃ names left, item formats layout line = names ++
    [plainLine (pair layout.width.columns left (formats.plain line.lineTotal))] := by
  by_cases hone : line.quantity = 1
  · by_cases hroom : (lastLabel layout line).length + 1 +
        (formats.plain line.lineTotal).length ≤ layout.width.columns
    · exact ⟨_, _, item_shared hone hroom⟩
    · exact ⟨_, _, item_alone hone hroom⟩
  · exact ⟨_, _, item_many hone⟩

end

/-- The app's own words are regular and short. -/
theorem words_regular (l10n : AppLocalizations) :
    Regular l10n.receiptSubtotal ∧ Regular l10n.receiptDiscount ∧ Regular l10n.receiptTotal ∧
      Regular l10n.receiptPaidBy ∧ Regular l10n.receiptThanks ∧ l10n.receiptThanks.length ≤ 11 := by
  cases l10n <;> decide

theorem paymentMethod_regular (l10n : AppLocalizations) (method : PaymentMethod) :
    Regular (l10n.paymentMethod method) ∧ (l10n.paymentMethod method).length ≤ 14 := by
  cases l10n <;> cases method <;> decide

/-- The first letters of an identifier are regular in upper case. -/
theorem regular_code (id : SaleId) : Regular ((id.text.take 6).map toUpper) := by
  intro unit hunit
  obtain ⟨digit, hdigit, heq⟩ := List.mem_map.mp hunit
  have hid := id.isIdUnit digit (List.mem_of_mem_take hdigit)
  have hsmall : digit.toNat ≤ 0x66 := by
    simp only [ReceiptLines.isIdUnit, Bool.or_eq_true, decide_eq_true_eq, beq_iff_eq,
      UInt16.le_iff_toNat_le] at hid
    rcases hid with ((⟨-, hle⟩ | ⟨-, hle⟩) | ⟨-, hle⟩) | heq
    · exact hle.trans (by decide)
    · exact hle
    · exact hle.trans (by decide)
    · rw [heq]
      decide
  rw [← heq, toUpper]
  split
  next hlower =>
    apply regular_unit
    have hsub : (digit - 0x20).toNat = digit.toNat - 0x20 := by
      apply UInt16.toNat_sub_of_le
      exact UInt16.le_trans (by decide) hlower.1
    rw [hsub]
    omega
  next => exact regular_unit (by omega)

section

variable {formats : Formats} {layout : ReceiptLayout} {sale : Sale}

theorem regular_rule (columns : ℕ) : Regular (rule columns).text := by
  intro unit hunit
  rw [List.eq_of_mem_replicate hunit]
  decide

theorem lineFits_rule (columns : ℕ) : LineFits columns (rule columns) :=
  Regular.lineFits (regular_rule columns) (List.length_replicate).le

/-- Of the lines above the items, only the store's name may not fit. -/
theorem heading_fits_iff (hformats : formats.Documented) (storeName : Text) :
    (∀ line ∈ heading formats layout sale storeName, LineFits layout.width.columns line) ↔
      storeName.length ≤ layout.width.columns ∧
        printedLength storeName ≤ layout.width.columns := by
  have hcolumns := layout.width.le_columns
  obtain ⟨hday, hdayLength⟩ := hformats.dayMonth sale.occurredAt
  obtain ⟨hyear, hyearLength⟩ := hformats.year sale.occurredAt
  obtain ⟨htime, htimeLength⟩ := hformats.timeOfDay sale.occurredAt
  have hcomma : Regular (units ", ") := by decide
  have href : Regular (units "Ref ") := by decide
  rw [heading]
  simp only [List.forall_mem_cons, List.not_mem_nil, false_implies, implies_true, and_true]
  constructor
  · exact fun h => h.1
  · intro h
    refine ⟨h, ?_, ?_, lineFits_rule _⟩
    · apply Regular.lineFits
      · exact ((hday.regular.spaced hyear.regular).append hcomma).append htime.regular
      · have htwo : (units ", ").length = 2 := rfl
        simp only [List.length_append, List.length_cons, htwo]
        omega
    · apply Regular.lineFits
      · exact href.append (regular_code sale.id)
      · have hfour : (units "Ref ").length = 4 := rfl
        simp only [AppLocalizations.receiptReference, List.length_append, List.length_map,
          List.length_take, hfour]
        omega

/-- The lines of the discount fit. -/
theorem discountLines_fit (hformats : formats.Documented) (hsale : sale.InColumns) :
    ∀ line ∈ discountLines formats layout sale, LineFits layout.width.columns line := by
  have hcolumns := layout.width.le_columns
  have hwords := words_regular layout.l10n
  have hgross : |sale.totalAmount + sale.discountAmount| < 2 * 10 ^ 12 := by
    have hadd := abs_add_le sale.totalAmount sale.discountAmount
    have htotal := hsale.total
    have hdiscount := hsale.discount
    linarith
  have hminus : Regular (units "-") := by decide
  have hsub := hformats.plain_length _ hgross
  have hdiscount := hformats.plain_length sale.discountAmount (by linarith [hsale.discount])
  intro line hline
  rw [discountLines] at hline
  split at hline
  next =>
    cases List.mem_cons.mp hline with
    | inl heq =>
      rw [heq]
      exact lineFits_pair rfl hwords.1 (hformats.plain _).regular (by omega)
    | inr hrest =>
      rw [List.mem_singleton.mp hrest]
      apply lineFits_pair rfl hwords.2.1 (hminus.append (hformats.plain _).regular)
      have hone : (units "-").length = 1 := rfl
      rw [List.length_append, hone]
      omega
  next => exact absurd hline List.not_mem_nil

/-- The total. -/
theorem regular_total (hformats : formats.Documented) :
    Regular (layout.currencySymbol ++ space :: formats.plain sale.totalAmount) := by
  have hsymbol : Regular layout.currencySymbol := by
    cases layout.currencySymbol_eq with
    | inl h => rw [h]; decide
    | inr h => rw [h]; decide
  exact hsymbol.spaced (hformats.plain _).regular

theorem totalLine_fits (hformats : formats.Documented) (hsale : sale.InColumns) :
    LineFits layout.width.columns (totalLine formats layout sale) := by
  have hcolumns := layout.width.le_columns
  have hplain := hformats.plain_length sale.totalAmount (by linarith [hsale.total])
  have hsymbol : layout.currencySymbol.length = 1 := by
    cases layout.currencySymbol_eq with
    | inl h => rw [h]; rfl
    | inr h => rw [h]; rfl
  apply lineFits_pair rfl (words_regular layout.l10n).2.2.1 (regular_total hformats)
  rw [List.length_append, List.length_cons, hsymbol]
  omega

theorem ending_fits : ∀ line ∈ ending layout sale, LineFits layout.width.columns line := by
  have hcolumns := layout.width.le_columns
  have hwords := words_regular layout.l10n
  obtain ⟨hmethod, hmethodLength⟩ := paymentMethod_regular layout.l10n sale.paymentMethod
  rw [ending]
  simp only [List.forall_mem_cons, List.not_mem_nil, false_implies, implies_true, and_true]
  refine ⟨lineFits_pair rfl hwords.2.2.2.1 hmethod (by omega), lineFits_rule _, ?_⟩
  exact Regular.lineFits hwords.2.2.2.2.1 (hwords.2.2.2.2.2.trans (by omega))

/-- The lines of a receipt fit exactly when the names do. -/
theorem build_fits_iff (hformats : formats.Documented) (hsale : sale.InColumns)
    (storeName : Text) :
    (∀ line ∈ build formats layout sale storeName, LineFits layout.width.columns line) ↔
      NamesFit formats layout sale storeName := by
  have hcolumns := layout.width.le_columns
  have hitem : ∀ line ∈ sale.lines,
      ((∀ out ∈ item formats layout line, LineFits layout.width.columns out) ↔
        RowsFit layout (labelOf layout.l10n line) ∧ (line.quantity = 1 →
          LastFits layout (labelOf layout.l10n line) (formats.plain line.lineTotal))) := by
    intro line hline
    have hplain := hformats.plain_length line.lineTotal
      (by linarith [(hsale.lines line hline).2])
    exact item_fits_iff hformats (by omega)
  have hheading := @heading_fits_iff formats layout sale hformats storeName
  constructor
  · intro h
    have hstore := hheading.mp fun line hline => h line (by simp [build, hline])
    have hitems : ∀ line ∈ sale.lines, ∀ out ∈ item formats layout line,
        LineFits layout.width.columns out := by
      intro line hline out hout
      have hmem : out ∈ sale.lines.flatMap (item formats layout) :=
        List.mem_flatMap.mpr ⟨line, hline, hout⟩
      exact h out (by simp only [build, List.mem_append]; exact Or.inl (Or.inl (Or.inr hmem)))
    exact ⟨hstore.1, hstore.2, fun line hline => ((hitem line hline).mp (hitems line hline)).1,
      fun line hline => ((hitem line hline).mp (hitems line hline)).2⟩
  · intro h line hline
    rw [build] at hline
    rcases List.mem_append.mp hline with hline | hline
    · rcases List.mem_append.mp hline with hline | hline
      · rcases List.mem_append.mp hline with hline | hline
        · exact hheading.mpr ⟨h.laid, h.printed⟩ line hline
        · obtain ⟨sold, hsold, hout⟩ := List.mem_flatMap.mp hline
          exact (hitem sold hsold).mpr ⟨h.rows sold hsold, h.last sold hsold⟩ line hout
      · cases List.mem_cons.mp hline with
        | inl heq => rw [heq]; exact lineFits_rule _
        | inr hdiscount => exact discountLines_fit hformats hsale line hdiscount
    · cases List.mem_cons.mp hline with
      | inl heq => rw [heq]; exact totalLine_fits hformats hsale
      | inr hending => exact ending_fits line hending

end

/-- A piece of a text is no longer than the text. -/
theorem length_of_mem_splitOn {text line : Text} (h : line ∈ text.splitOn newline) :
    line.length ≤ text.length := by
  induction text generalizing line with
  | nil =>
    rw [List.splitOn_nil, List.mem_singleton] at h
    rw [h]
  | cons unit rest ih =>
    rw [List.splitOn_cons_eq_if_modifyHead] at h
    split at h
    · cases List.mem_cons.mp h with
      | inl heq => rw [heq]; exact Nat.zero_le _
      | inr hrest => exact (ih hrest).trans (Nat.le_succ _)
    · obtain ⟨first, others, hsplit⟩ := List.exists_cons_of_ne_nil (List.splitOn_ne_nil newline rest)
      rw [hsplit] at ih h
      rw [List.modifyHead_cons] at h
      cases List.mem_cons.mp h with
      | inl heq =>
        rw [heq, List.length_cons, List.length_cons]
        exact Nat.succ_le_succ (ih List.mem_cons_self)
      | inr hothers => exact (ih (List.mem_cons_of_mem _ hothers)).trans (Nat.le_succ _)

/-- The lines of texts put together are no longer than the texts. -/
theorem length_of_mem_lines {bound : ℕ} {texts : List Text} (h : ∀ text ∈ texts, text.length ≤ bound)
    {line : Text} (hline : line ∈ ([newline].intercalate texts).splitOn newline) :
    line.length ≤ bound := by
  induction texts generalizing line with
  | nil =>
    have hle := length_of_mem_splitOn hline
    exact hle.trans (Nat.zero_le _)
  | cons first rest ih =>
    have hfirst := h first List.mem_cons_self
    by_cases hrest : rest = []
    · rw [hrest, List.intercalate_singleton] at hline
      exact (length_of_mem_splitOn hline).trans hfirst
    · rw [List.intercalate_cons_of_ne_nil hrest, List.append_assoc, List.singleton_append,
        List.splitOn_append_cons_self] at hline
      cases List.mem_append.mp hline with
      | inl hleft => exact (length_of_mem_splitOn hleft).trans hfirst
      | inr hright => exact ih (fun text htext => h text (List.mem_cons_of_mem _ htext)) hright

theorem AmountsShown.nil (lines : List ReceiptLine) : AmountsShown lines [] :=
  ⟨[], List.nil_sublist lines, List.Forall₂.nil⟩

theorem AmountsShown.append {before after : List ReceiptLine} {first rest : List Text}
    (hfirst : AmountsShown before first) (hrest : AmountsShown after rest) :
    AmountsShown (before ++ after) (first ++ rest) := by
  obtain ⟨shown, hsub, hshown⟩ := hfirst
  obtain ⟨others, hothersSub, hothers⟩ := hrest
  exact ⟨shown ++ others, hsub.append hothersSub, List.rel_append hshown hothers⟩

/-- A pair on the left shows its value. -/
theorem AmountsShown.pair {columns : ℕ} {left right : Text} {line : ReceiptLine}
    (hline : line.text = pair columns left right) (halign : line.align = .left) :
    AmountsShown [line] [right] := by
  have hshows : Shows line.text right := by
    rw [hline]
    exact shows_pair
  exact ⟨[line], List.Sublist.refl _,
    List.Forall₂.cons ⟨halign, hshows, hshows.ascii⟩ List.Forall₂.nil⟩

section

variable {formats : Formats} {layout : ReceiptLayout}

theorem amountsShown_items (lines : List SaleLine) :
    AmountsShown (lines.flatMap (item formats layout))
      (lines.map fun line => formats.plain line.lineTotal) := by
  induction lines with
  | nil => exact AmountsShown.nil _
  | cons line rest ih =>
    obtain ⟨names, left, hitem⟩ := @item_total formats layout line
    have htotal : AmountsShown (item formats layout line) [formats.plain line.lineTotal] := by
      rw [hitem]
      exact (AmountsShown.nil names).append (AmountsShown.pair rfl rfl)
    rw [List.flatMap_cons, List.map_cons]
    exact htotal.append ih

/-- Whatever the names, the amounts are shown. -/
theorem amountsShown_build (sale : Sale) (storeName : Text) :
    AmountsShown (build formats layout sale storeName) (amounts formats layout sale) := by
  have hdiscount : AmountsShown (rule layout.width.columns :: discountLines formats layout sale)
      (if 0 < sale.discountAmount then [units "-" ++ formats.plain sale.discountAmount]
        else []) := by
    rw [discountLines]
    split
    · exact (AmountsShown.nil [rule _, plainLine _]).append (AmountsShown.pair rfl rfl)
    · exact AmountsShown.nil _
  have htotal : AmountsShown (totalLine formats layout sale :: ending layout sale)
      [layout.currencySymbol ++ space :: formats.plain sale.totalAmount] :=
    (AmountsShown.pair rfl rfl).append (AmountsShown.nil (ending layout sale))
  have hitems := (AmountsShown.nil (heading formats layout sale storeName)).append
    (@amountsShown_items formats layout sale.lines)
  exact (hitems.append hdiscount).append htotal

end

/-- A rune of one unit is one of the text's. -/
theorem mem_of_mem_runes {text : Text} {rune : ℕ} (h : rune ∈ runes text) (hsmall : rune < 0x10000) :
    ∃ unit ∈ text, unit.toNat = rune := by
  induction text using runes.induct with
  | case1 => cases h
  | case2 unit => exact ⟨unit, List.mem_singleton_self _, (List.mem_singleton.mp h).symm⟩
  | case3 lead trail rest hpair ih =>
    rw [runes, if_pos hpair] at h
    cases List.mem_cons.mp h with
    | inl heq => omega
    | inr hrest =>
      obtain ⟨unit, hunit, hvalue⟩ := ih hrest
      exact ⟨unit, List.mem_cons_of_mem _ (List.mem_cons_of_mem _ hunit), hvalue⟩
  | case4 lead trail rest hpair ih =>
    rw [runes, if_neg hpair] at h
    cases List.mem_cons.mp h with
    | inl heq => exact ⟨lead, List.mem_cons_self, heq.symm⟩
    | inr hrest =>
      obtain ⟨unit, hunit, hvalue⟩ := ih hrest
      exact ⟨unit, List.mem_cons_of_mem _ hunit, hvalue⟩

/-- A text without an ellipsis is no longer in print. -/
theorem printedLength_le {text : Text} (h : 0x2026 ∉ text) : printedLength text ≤ text.length := by
  have hnone : (runes text).count 0x2026 = 0 := by
    rw [List.count_eq_zero]
    intro hmem
    obtain ⟨unit, hunit, hvalue⟩ := mem_of_mem_runes hmem (by decide)
    have heq : unit = 0x2026 := UInt16.toNat_inj.mp hvalue
    exact h (by rw [← heq]; exact hunit)
  rw [printedLength, hnone]
  exact length_runes_le text

/-- Nor are the rows of one. -/
theorem notMem_lineOf {columns : ℕ} {hcolumns : 1 ≤ columns} {label : Text} (h : 0x2026 ∉ label)
    {rows : List (List Text)}
    (hrows : Packed (fits columns) (textPieces columns hcolumns label) rows)
    {row : List Text} (hrow : row ∈ rows) : 0x2026 ∉ lineOf row := by
  intro hmem
  have hline : ∀ pieces : List Text, 0x2026 ∈ lineOf pieces → ∃ piece ∈ pieces, 0x2026 ∈ piece := by
    intro pieces hpieces
    induction pieces with
    | nil => cases hpieces
    | cons first rest ih =>
      by_cases hrest : rest = []
      · rw [lineOf, hrest, List.intercalate_singleton] at hpieces
        exact ⟨first, List.mem_cons_self, hpieces⟩
      · rw [lineOf, List.intercalate_cons_of_ne_nil hrest, List.append_assoc,
          List.singleton_append, List.mem_append, List.mem_cons] at hpieces
        rcases hpieces with hfirst | hspace | hlater
        · exact ⟨first, List.mem_cons_self, hfirst⟩
        · exact absurd hspace (by decide)
        · obtain ⟨piece, hpiece, hin⟩ := ih hlater
          exact ⟨piece, List.mem_cons_of_mem _ hpiece, hin⟩
  obtain ⟨piece, hpiece, hin⟩ := hline row hmem
  have hpieces : piece ∈ textPieces columns hcolumns label := by
    rw [← hrows.holds]
    exact List.mem_flatten.mpr ⟨row, hrow, hpiece⟩
  have hflat : 0x2026 ∈ (textPieces columns hcolumns label).flatten :=
    List.mem_flatten.mpr ⟨piece, hpieces, hin⟩
  rw [flatten_textPieces] at hflat
  exact h (List.mem_filter.mp hflat).1

/-- A store's name no longer than a line fits, and so do all names, as long as
there is no ellipsis in them. -/
theorem namesFit_of_notMem {formats : Formats} {layout : ReceiptLayout} {sale : Sale}
    {storeName : Text} (hlength : storeName.length ≤ layout.width.columns)
    (hstore : 0x2026 ∉ storeName)
    (hlines : ∀ line ∈ sale.lines, 0x2026 ∉ labelOf layout.l10n line) :
    NamesFit formats layout sale storeName := by
  refine ⟨hlength, (printedLength_le hstore).trans hlength, ?_, ?_⟩
  · intro line hline rows hrows row hrow
    have hfit : fits layout.width.columns row = true := hrows.fit row hrow
    rw [fits, decide_eq_true_eq] at hfit
    exact (printedLength_le (notMem_lineOf (hlines line hline) hrows hrow)).trans hfit
  · intro line hline _ rows hrows row hrow _
    exact printedLength_le
      (notMem_lineOf (hlines line hline) hrows (List.mem_of_getLast? hrow))

/-- A receipt stays on the paper, on the screen and in print, exactly when its
names fit; its amounts are shown in full either way. -/
theorem receipt_on_paper_iff (formats : Formats) (hformats : formats.Documented)
    (layout : ReceiptLayout) (sale : Sale) (hsale : sale.InColumns) (storeName : Text) :
    (OnPaper formats layout sale storeName ↔ NamesFit formats layout sale storeName) ∧
      AmountsShown (build formats layout sale storeName) (amounts formats layout sale) := by
  have hamounts := @amountsShown_build formats layout sale storeName
  have hstream := decode_stream (build formats layout sale storeName)
  refine ⟨?_, hamounts⟩
  rw [← build_fits_iff hformats hsale]
  constructor
  · intro h line hline
    obtain ⟨out, hout, hlengths⟩ := h.printed
    rw [hstream, Option.some.injEq] at hout
    have hprinted := hlengths (printed line) (by rw [← hout]; exact List.mem_map_of_mem hline)
    have htext : (printed line).text = ascii line.text := rfl
    rw [htext, length_ascii] at hprinted
    exact ⟨h.laid line hline, hprinted⟩
  · intro h
    refine ⟨fun line hline => (h line hline).1, ?_, ⟨_, hstream, ?_⟩, hamounts⟩
    · intro text htext
      apply length_of_mem_lines _ htext
      intro shared hshared
      obtain ⟨line, hline, heq⟩ := List.mem_map.mp hshared
      rw [← heq, sharedLine]
      split
      · exact length_center_le (h line hline).1
      · exact (h line hline).1
    · intro out hout
      obtain ⟨line, hline, heq⟩ := List.mem_map.mp hout
      have htext : (printed line).text = ascii line.text := rfl
      rw [← heq, htext, length_ascii]
      exact (h line hline).2

/-- A sale's identifier. -/
def saleId : SaleId :=
  ⟨units "3f9a1c7e-0000-0000-0000-000000000000", by decide, List.all_eq_true.mp (by decide)⟩

/-- What the packages write of two sales. -/
def written : Formats where
  plain amount :=
    ([(58.5, units "58.50"), (146.25, units "146.25"), (8, units "8.00"), (134.25, units "134.25"),
      (20, units "20.00"), (154.25, units "154.25")].lookup amount).getD []
  dayMonth _ := units "22 Sep"
  year _ := units "2026"
  timeOfDay _ := units "9:41 AM"

theorem written_documented : written.Documented := by
  have hplain : ∀ amount, Plain (written.plain amount) ∧ (written.plain amount).length ≤ 21 := by
    intro amount
    simp only [written, List.lookup_cons, List.lookup_nil]
    repeat' split
    all_goals decide
  have hday : Plain (units "22 Sep") ∧ (units "22 Sep").length ≤ 8 := by decide
  have hyear : Plain (units "2026") ∧ (units "2026").length ≤ 7 := by decide
  have htime : Plain (units "9:41 AM") ∧ (units "9:41 AM").length ≤ 10 := by decide
  exact ⟨fun amount => (hplain amount).1, fun amount _ => (hplain amount).2, fun _ => hday,
    fun _ => hyear, fun _ => htime⟩

/-- Rice by weight and a sachet, with a discount. -/
def busySale : Sale where
  id := saleId
  paymentMethod := .gcash
  totalAmount := 134.25
  discountAmount := 20
  occurredAt := 0
  lines := [⟨units "Premium Dinorado Rice, 25 kilogram sack", 2.5, 58.5⟩,
    ⟨units "Supercalifragilisticexpialidocious-sachet-pack", 1, 8⟩]

theorem busySale_inColumns : busySale.InColumns := by
  refine ⟨?_, ?_, ?_⟩
  · norm_num [busySale]
  · norm_num [busySale]
  · simp only [busySale, List.forall_mem_cons, SaleLine.lineTotal]
    norm_num

/-- The rice and the sachet stay on the paper. -/
theorem receipt_on_paper_iff_busy : OnPaper written ⟨.en, .mm58, units "₱", Or.inl rfl⟩ busySale
    (units "Aling Nena Sari-Sari Store") :=
  (receipt_on_paper_iff written written_documented ⟨.en, .mm58, units "₱", Or.inl rfl⟩ busySale
    busySale_inColumns (units "Aling Nena Sari-Sari Store")).1.mpr
      (namesFit_of_notMem (by decide) (by decide) (by decide +kernel))

/-- One thing, its name with an ellipsis. -/
def pandesal : SaleLine := ⟨units "Pandesal…", 1, 8⟩

/-- It is sold. -/
def pandesalSale : Sale where
  id := saleId
  paymentMethod := .cash
  totalAmount := 8
  discountAmount := 0
  occurredAt := 0
  lines := [pandesal]

theorem pandesalSale_inColumns : pandesalSale.InColumns := by
  refine ⟨?_, ?_, ?_⟩
  · norm_num [pandesalSale]
  · norm_num [pandesalSale]
  · simp only [pandesalSale, List.forall_mem_cons, SaleLine.lineTotal, pandesal]
    norm_num

/-- The printer's paper. -/
def narrow : ReceiptLayout := ⟨.en, .mm58, units "P", Or.inr rfl⟩

/-- The name and the total share a line, which is full. -/
theorem item_pandesal : item written narrow pandesal =
    [plainLine (pair 32 (units "Pandesal…") (units "8.00"))] := by
  have hwords : wordsOf (units "Pandesal…") = [units "Pandesal…"] := by decide
  have hpieces : textPieces 32 (by decide) (units "Pandesal…") = [units "Pandesal…"] := by
    rw [textPieces, hwords, List.flatMap_cons, List.flatMap_nil, piecesOf_of_le (by decide),
      List.append_nil]
  have hwrap : wrap 32 (by decide) (units "Pandesal…") = [units "Pandesal…"] := by
    rw [wrap_eq, hpieces]
    rfl
  have hlabel : labelLines narrow pandesal = [units "Pandesal…"] := hwrap
  have hlast : lastLabel narrow pandesal = units "Pandesal…" := by
    simp only [lastLabel, hlabel, List.getLast_singleton]
  have hamount : written.plain pandesal.lineTotal = units "8.00" := by decide +kernel
  rw [item_shared rfl (by rw [hlast, hamount]; decide), hlabel, hlast, hamount]
  rfl

/-- A store's name of thirty-nine characters, and an ellipsis on a line with
an amount. -/
theorem names_past_paper :
    (busySale.InColumns ∧
        ¬OnPaper written narrow busySale (units "Aling Nena's Sari-Sari Store and Eatery")) ∧
      pandesalSale.InColumns ∧ ¬OnPaper written narrow pandesalSale (units "Store") := by
  refine ⟨⟨busySale_inColumns, ?_⟩, pandesalSale_inColumns, ?_⟩
  · intro h
    have hstore := h.laid _ (List.mem_append_left _ (List.mem_append_left _
      (List.mem_append_left _ List.mem_cons_self)))
    exact absurd hstore (by decide)
  · intro h
    obtain ⟨out, hout, hlengths⟩ := h.printed
    rw [decode_stream, Option.some.injEq] at hout
    have hline : plainLine (pair 32 (units "Pandesal…") (units "8.00")) ∈
        build written narrow pandesalSale (units "Store") := by
      have hitem : plainLine (pair 32 (units "Pandesal…") (units "8.00")) ∈
          pandesalSale.lines.flatMap (item written narrow) := by
        refine List.mem_flatMap.mpr ⟨pandesal, List.mem_singleton_self _, ?_⟩
        rw [item_pandesal]
        exact List.mem_singleton_self _
      exact List.mem_append_left _ (List.mem_append_left _ (List.mem_append_right _ hitem))
    have hlong := hlengths _ (by rw [← hout]; exact List.mem_map_of_mem hline)
    exact absurd hlong (by decide)

end Kitaza.ReceiptPaper
