import Kitaza.SaleMoney

/-!
# The figures of a stored sale

A sale's header adds up from its lines: the discount lies between nothing and
the lines' total, and what it leaves is the sale's total. A line's price is not
checked the way its quantity is, so all of it holds exactly when no line comes
to less than nothing.
-/

namespace Kitaza.SaleHeader

open KeyedTable Primitives Access Schema Payloads SaleRepository SaleService SaleEffects Rounding

/-- What the lines of a sale come to. -/
def lineSum (items : Table Uuid SaleItem) : Money := items.sum fun _ item => item.lineTotal

/-- What they cost. -/
def costSum (items : Table Uuid SaleItem) : Money :=
  items.sum fun _ item => item.unitCost * item.quantity

/-- The header of a sale adds up from its lines. -/
structure AddsUp (sale : Sale) (items : Table Uuid SaleItem) : Prop where
  /-- No discount is negative. -/
  discount_nonneg : 0 ≤ sale.discountAmount
  /-- None is more than there is to pay. -/
  discount_le : sale.discountAmount ≤ lineSum items
  /-- It is taken off what the lines come to. -/
  total : sale.totalAmount = lineSum items - sale.discountAmount
  /-- Nobody is paid to take a sale. -/
  total_nonneg : 0 ≤ sale.totalAmount
  /-- Nor to take a line. -/
  line_nonneg : ∀ k item, items.find? k = some item → 0 ≤ item.lineTotal
  /-- The cost is that of the lines, rounded once. -/
  cost : numericMoney sale.costAmount = numericMoney (costSum items)

/-- The price of a line: the device's, or the catalogue's. -/
def priceOf (storeId : Uuid) (db : Db) (item : SaleLineRequest) : Money :=
  match item.unitPrice with
  | some unitPrice => moneyFromF64 unitPrice
  | none => ((item.productId.bind fun id => ProductService.find storeId id db).map
      Product.sellingPrice).getD 0

/-- A line that does not come to less than nothing, to the centavo. -/
def NotBelowZero (storeId : Uuid) (db : Db) (item : SaleLineRequest) : Prop :=
  -(1 / 200) ≤ priceOf storeId db item * quantityFromF64 item.quantity

instance (storeId : Uuid) (db : Db) (item : SaleLineRequest) :
    Decidable (NotBelowZero storeId db item) := inferInstanceAs (Decidable (_ ≤ _))

theorem roundHalfEven_nonneg_iff (x : ℚ) : 0 ≤ roundHalfEven x ↔ -(1 / 2) ≤ x := by
  have hfloor : x.floor = ⌊x⌋ := rfl
  have hle := Int.floor_le x
  have hlt := Int.lt_floor_add_one x
  rw [roundHalfEven, hfloor]
  rcases lt_trichotomy ⌊x⌋ (-1) with hlow | hone | hhigh
  · have hx : x < -1 := by
      have hcast : (⌊x⌋ : ℚ) ≤ -2 := by exact_mod_cast (by omega : ⌊x⌋ ≤ -2)
      linarith
    have hnot : ¬ -(1 / 2) ≤ x := by linarith
    simp only [hnot, iff_false, not_le]
    split_ifs <;> omega
  · -- the half between minus one and nothing goes to nothing, which is even
    rw [hone]
    push_cast
    split_ifs with hbelow habove
    · simp only [Left.nonneg_neg_iff, false_iff, not_le, show ¬ (1 : ℤ) ≤ 0 by decide]
      linarith
    · simp only [le_refl, true_iff]
      linarith
    · simp only [le_refl, true_iff]
      linarith
  · have hx : 0 ≤ x := by
      have hcast : (0 : ℚ) ≤ ⌊x⌋ := by exact_mod_cast (by omega : 0 ≤ ⌊x⌋)
      linarith
    have hge : -(1 / 2) ≤ x := by linarith
    simp only [hge, iff_true]
    split_ifs <;> omega

theorem roundDp_nonneg_iff (dp : ℕ) (x : ℚ) : 0 ≤ roundDp dp x ↔ -(1 / 2) ≤ x * 10 ^ dp := by
  rw [roundDp, ← roundHalfEven_nonneg_iff]
  have hpow : (0 : ℚ) < 10 ^ dp := by positivity
  rw [le_div_iff₀ hpow, zero_mul]
  exact_mod_cast Iff.rfl

theorem roundMoney_nonneg_iff (x : ℚ) : 0 ≤ roundMoney x ↔ -(1 / 200) ≤ x := by
  rw [roundMoney, roundDp_nonneg_iff]
  constructor <;> intro h <;> linarith

theorem moneyFromF64_nonneg {x : ℚ} (h : 0 ≤ x) : 0 ≤ moneyFromF64 x := by
  have hkept : 0 ≤ (fromF64 x).getD 0 := SaleMoney.kept_nonneg h
  rw [moneyFromF64, roundDp_nonneg_iff]
  have hscaled : 0 ≤ (fromF64 x).getD 0 * 10 ^ MONEY_SCALE := by positivity
  linarith

/-- A figure in whole centavos is stored as it is. -/
theorem numericMoney_centavos (n : ℤ) : numericMoney (n / 100) = n / 100 := by
  have hfloor : ∀ m : ℤ, ((m : ℚ) / 100 * 100 + 1 / 2).floor = m := by
    intro m
    have hmul : (m : ℚ) / 100 * 100 = m := by ring
    rw [hmul]
    change ⌊(m : ℚ) + 1 / 2⌋ = m
    rw [Int.floor_eq_iff]
    constructor <;> linarith
  rw [numericMoney]
  split_ifs
  · rw [hfloor]
  · have hneg : -((n : ℚ) / 100) = ((-n : ℤ) : ℚ) / 100 := by
      push_cast
      ring
    rw [hneg, hfloor]
    push_cast
    ring

theorem numericMoney_numericMoney (x : ℚ) : numericMoney (numericMoney x) = numericMoney x := by
  by_cases h : 0 ≤ x
  · have hx : numericMoney x = ((x * 100 + 1 / 2).floor : ℚ) / 100 := if_pos h
    rw [hx]
    exact numericMoney_centavos _
  · have hx : numericMoney x = ((-((-x * 100 + 1 / 2).floor) : ℤ) : ℚ) / 100 := by
      rw [numericMoney, if_neg h, Int.cast_neg, neg_div]
    rw [hx]
    exact numericMoney_centavos _

/-- A line comes to its price times its quantity, rounded. -/
theorem lineTotal_of_resolveLine {storeId lineId : Uuid} {db : Db} {item : SaleLineRequest}
    {line : PreparedLine} (h : resolveLine storeId lineId item db = .ok line) :
    line.lineTotal = roundMoney (priceOf storeId db item * quantityFromF64 item.quantity) := by
  obtain ⟨productId, product, hp, hfind, rfl⟩ | ⟨unitPrice, hp, hprice, rfl⟩ := resolveLine_iff.mp h
  · cases hprice : item.unitPrice with
    | some unitPrice =>
      simp only [preparedLine, priceOf, hprice, Option.map_some, Option.getD_some]
    | none =>
      simp only [preparedLine, priceOf, hprice, hp, hfind, Option.bind_some, Option.map_some,
        Option.map_none, Option.getD_none, Option.getD_some]
  · simp only [preparedLine, priceOf, hprice]

theorem lineTotals_of_resolveLines {storeId : Uuid} {db : Db} {items : List SaleLineRequest}
    {i : ℕ} {lines : List PreparedLine} (h : resolveLines storeId db items i = .ok lines) :
    lines.map PreparedLine.lineTotal = items.map fun item =>
      roundMoney (priceOf storeId db item * quantityFromF64 item.quantity) := by
  induction items generalizing i lines with
  | nil =>
    cases h
    rfl
  | cons item rest ih =>
    obtain ⟨line, hline, h⟩ := bind_eq_ok.mp h
    obtain ⟨others, hothers, h⟩ := bind_eq_ok.mp h
    cases h
    rw [List.map_cons, List.map_cons, lineTotal_of_resolveLine hline, ih hothers]

/-- Dropping a device's costs leaves its prices. -/
theorem prices_of_visibleItems {storeId : Uuid} {db : Db} {actor : Actor}
    (items : List SaleLineRequest) :
    ((visibleItems actor items).map fun item =>
        roundMoney (priceOf storeId db item * quantityFromF64 item.quantity)) =
      items.map fun item =>
        roundMoney (priceOf storeId db item * quantityFromF64 item.quantity) := by
  unfold visibleItems
  split_ifs
  · rfl
  · rw [List.map_map]
    rfl

/-- What recording a sale leaves in the tables. -/
structure StoredAs (saleId : Uuid) (discount : Money) (lines : List PreparedLine) (sale : Sale)
    (items : Table Uuid SaleItem) : Prop where
  /-- The discount takes no more than there is. -/
  discountAmount : sale.discountAmount = min discount (lines.map PreparedLine.lineTotal).sum
  /-- The rest is to pay. -/
  totalAmount : sale.totalAmount =
    (lines.map PreparedLine.lineTotal).sum - min discount (lines.map PreparedLine.lineTotal).sum
  /-- The cost is rounded once. -/
  costAmount : sale.costAmount =
    numericMoney (lines.map fun line => line.unitCost * line.quantity).sum
  /-- Each line is stored under its own identifier. -/
  nodup : (lines.map PreparedLine.id).Nodup
  /-- Nothing else is stored with the sale. -/
  items : ∀ k item, items.find? k = some item ↔
    ∃ line ∈ lines, line.id = k ∧ item = storedLine saleId line

/-- Lines written to a sale without lines are the sale's lines. -/
theorem storedAs_of_written {now : Timestamp} {drawn : ℕ → Uuid} {sale : PreparedSale}
    {discount : Money} {staffId : Option Uuid} {db₀ db' : Db}
    (hdiscount : sale.discountAmount = min discount (sale.lines.map PreparedLine.lineTotal).sum)
    (htotal : sale.totalAmount = (sale.lines.map PreparedLine.lineTotal).sum -
      min discount (sale.lines.map PreparedLine.lineTotal).sum)
    (hcost : sale.costAmount = (sale.lines.map fun line => line.unitCost * line.quantity).sum)
    (writable : Writable sale.lines (readied now sale staffId db₀))
    (written : LinesWritten now drawn sale sale.lines 0 (readied now sale staffId db₀) db') :
    ∃ row, db'.sales.find? sale.id = some row ∧
      StoredAs sale.id discount sale.lines row (linesFor sale.id db') := by
  refine ⟨upsertedSale now sale staffId (db₀.sales.find? sale.id), ?_, ?_⟩
  · rw [written.sales]
    exact Table.find?_put_self _ _ _
  · refine ⟨?_, ?_, ?_, writable.nodup, ?_⟩
    · rw [← hdiscount]
      cases db₀.sales.find? sale.id <;> rfl
    · rw [← htotal]
      cases db₀.sales.find? sale.id <;> rfl
    · rw [← hcost]
      cases db₀.sales.find? sale.id <;> rfl
    · intro k item
      rw [linesFor, Table.find?_filter_eq_some, written.saleItems, beq_iff_eq]
      constructor
      · rintro ⟨hline | hold, hsale⟩
        · exact hline
        · obtain ⟨-, hother⟩ := Table.find?_filter_eq_some.mp hold
          simp [hsale] at hother
      · rintro ⟨line, hline, hk, rfl⟩
        exact ⟨Or.inl ⟨line, hline, hk, rfl⟩, rfl⟩

/-- A recording that writes stores the lines it resolved. -/
theorem stored_of_record {now : Timestamp} {storeId : Uuid} {actor : Actor}
    {request : RecordSaleRequest} {db db' : Db} {detail : SaleDetail}
    (hlive : ∀ id s, request.id = some id → db.sales.find? id = some s → s.deletedAt = none)
    (h : SaleService.record now storeId actor request db = .ok (detail, db')) :
    ∃ lines sale, resolveLines storeId db (visibleItems actor request.items) 0 = .ok lines ∧
      db'.sales.find? detail.id = some sale ∧
      StoredAs detail.id (moneyFromF64 request.discountAmount) lines sale
        (linesFor detail.id db') := by
  obtain ⟨method, -, h⟩ := bind_eq_ok.mp h
  obtain ⟨lines, hlines, h⟩ := bind_eq_ok.mp h
  obtain ⟨⟨recorded, db₁⟩, hrecord, h⟩ := bind_eq_ok.mp h
  have hid := (created_of_record hrecord).1
  have hsame : detail.id = recorded.id ∧ db'.sales = db₁.sales ∧
      db'.saleItems = db₁.saleItems := by
    cases h
    split_ifs <;> exact ⟨rfl, rfl, rfl⟩
  have hlinesFor : linesFor detail.id db' = linesFor detail.id db₁ := by
    rw [linesFor, linesFor, hsame.2.2]
  rw [hlinesFor, hsame.2.1, hsame.1, hid]
  have hrecorded := saleRecorded_of_ok (Uuid.newV4_injective _) (Uuid.find?_newV4 _) hrecord
  cases hrecorded with
  | voided existing stored own gone same =>
    cases hgiven : request.id with
    | none =>
      rw [hgiven] at stored
      have hfresh := Uuid.find?_newV4 db.sales 0
      cases hfresh.symm.trans stored
    | some id =>
      rw [hgiven] at stored
      exact absurd (hlive id existing hgiven stored) gone
  | new unknown writable written =>
    obtain ⟨row, hrow, hstored⟩ := storedAs_of_written rfl rfl rfl writable written
    exact ⟨lines, row, hlines, hrow, hstored⟩
  | again existing stored own live may writable written =>
    obtain ⟨row, hrow, hstored⟩ := storedAs_of_written rfl rfl rfl writable written
    exact ⟨lines, row, hlines, hrow, hstored⟩

/-- Sums over the stored lines are sums over the lines written. -/
theorem StoredAs.sum_eq {saleId : Uuid} {discount : Money} {lines : List PreparedLine}
    {sale : Sale} {items : Table Uuid SaleItem} (h : StoredAs saleId discount lines sale items)
    (f : SaleItem → ℚ) :
    (items.sum fun _ item => f item) = (lines.map fun line => f (storedLine saleId line)).sum :=
  Table.sum_eq_listed h.nodup h.items _

/-- A header adds up exactly when no line comes to less than nothing. -/
theorem StoredAs.addsUp_lines {saleId : Uuid} {discount : Money} {lines : List PreparedLine}
    {sale : Sale} {items : Table Uuid SaleItem} (h : StoredAs saleId discount lines sale items)
    (hd : 0 ≤ discount) : AddsUp sale items ↔ ∀ line ∈ lines, 0 ≤ line.lineTotal := by
  have hsum : lineSum items = (lines.map PreparedLine.lineTotal).sum := h.sum_eq _
  have hcost : costSum items = (lines.map fun line => line.unitCost * line.quantity).sum :=
    h.sum_eq _
  constructor
  · intro hadds line hline
    exact hadds.line_nonneg line.id (storedLine saleId line)
      ((h.items _ _).mpr ⟨line, hline, rfl, rfl⟩)
  · intro hlines
    have hgross : 0 ≤ (lines.map PreparedLine.lineTotal).sum := by
      apply List.sum_nonneg
      intro x hx
      obtain ⟨line, hline, rfl⟩ := List.mem_map.mp hx
      exact hlines line hline
    constructor
    · rw [h.discountAmount]
      exact le_min hd hgross
    · rw [h.discountAmount, hsum]
      exact min_le_right _ _
    · rw [h.totalAmount, h.discountAmount, hsum]
    · rw [h.totalAmount, sub_nonneg]
      exact min_le_right _ _
    · intro k item hitem
      obtain ⟨line, hline, -, rfl⟩ := (h.items k item).mp hitem
      exact hlines line hline
    · rw [h.costAmount, hcost, numericMoney_numericMoney]

/-- The header of every sale that is stored adds up from its lines exactly when
no line's price times its quantity is more than half a centavo below zero. -/
theorem addsUp_iff {now : Timestamp} {storeId : Uuid} {actor : Actor}
    {request : RecordSaleRequest} {db db' : Db} {detail : SaleDetail} (hvalid : request.Valid)
    (hlive : ∀ id s, request.id = some id → db.sales.find? id = some s → s.deletedAt = none)
    (h : SaleService.record now storeId actor request db = .ok (detail, db')) :
    (∃ sale, db'.sales.find? detail.id = some sale ∧ AddsUp sale (linesFor detail.id db')) ↔
      ∀ item ∈ request.items, NotBelowZero storeId db item := by
  obtain ⟨lines, sale, hlines, hsale, hstored⟩ := stored_of_record hlive h
  have htotals := lineTotals_of_resolveLines hlines
  rw [prices_of_visibleItems] at htotals
  have hadds := hstored.addsUp_lines (moneyFromF64_nonneg hvalid.1)
  have hitems : (∀ line ∈ lines, 0 ≤ line.lineTotal) ↔
      ∀ item ∈ request.items, NotBelowZero storeId db item := by
    rw [← @List.forall_mem_map _ _ PreparedLine.lineTotal lines fun x => 0 ≤ x, htotals,
      List.forall_mem_map]
    exact forall₂_congr fun item _ => roundMoney_nonneg_iff _
  rw [← hitems, ← hadds]
  constructor
  · rintro ⟨sale', hsale', hup⟩
    cases hsale.symm.trans hsale'
    exact hup
  · intro hup
    exact ⟨sale, hsale, hup⟩

/-- The store's owner. -/
def owner : Actor := ⟨⟨1⟩, "Ana", "phone", none⟩

/-- A quick sale of one thing at a price. -/
def quickSale (unitPrice : ℚ) : RecordSaleRequest where
  id := some ⟨20⟩
  paymentMethod := none
  discountAmount := 0
  note := none
  occurredAt := none
  items := [⟨some ⟨30⟩, none, none, 1, some unitPrice, none⟩]

/-- Three lines, of which one is weighed, less a discount. -/
def groceries : RecordSaleRequest :=
  { quickSale 25 with
    discountAmount := 1025 / 100
    items := [⟨some ⟨30⟩, none, none, 2, some 25, none⟩,
      ⟨some ⟨31⟩, none, some "Rice", 1333 / 1000, some (5475 / 100), none⟩,
      ⟨some ⟨32⟩, none, some "Salt", 3, some (75 / 10), none⟩] }

theorem addsUp_iff_groceries : ∃ detail db',
    SaleService.record 1 ⟨4⟩ owner groceries Db.empty = .ok (detail, db') ∧
      ∃ sale, db'.sales.find? detail.id = some sale ∧ AddsUp sale (linesFor detail.id db') := by
  refine ⟨_, _, rfl, ?_⟩
  exact (@addsUp_iff 1 ⟨4⟩ owner groceries Db.empty _ _ (by decide +kernel)
    (fun id s _ hs => (by cases hs)) rfl).mpr (by decide +kernel)

/-- A negative price passes the checks and leaves a negative discount. -/
theorem negative_price_breaks_header : (quickSale (-25)).Valid ∧ ∃ detail db',
    SaleService.record 1 ⟨4⟩ owner (quickSale (-25)) Db.empty = .ok (detail, db') ∧
      ¬ ∃ sale, db'.sales.find? detail.id = some sale ∧
        AddsUp sale (linesFor detail.id db') := by
  refine ⟨by decide +kernel, _, _, rfl, ?_⟩
  rintro ⟨sale, -, hadds⟩
  have hline := hadds.line_nonneg ⟨30⟩ _ rfl
  exact absurd hline (by decide +kernel)

end Kitaza.SaleHeader
