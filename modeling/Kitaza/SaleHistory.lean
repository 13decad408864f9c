import Kitaza.SaleAcceptance
import Kitaza.StockColumns

/-!
# A sale sent again

Recording a sale again resolves its lines from today's catalogue. A phone that
sends the identical sale a second time, with any changes to the catalogue in
between, leaves the sale's figures as they were exactly when each product is
still listed under its name, its price and cost are the same wherever the
sale took them from the catalogue, and its stock has room to be given back and
taken again.
-/

namespace Kitaza.SaleHistory

open KeyedTable Primitives Access Schema Payloads ProductService SaleRepository SaleService
  SaleEffects SaleAcceptance SaleHeader RowEffects StockColumns
open DecimalRange (StoredDb Fits InRange RemainderInRange SaleInRange QuantityOverflows MoneyOverflows stored
  stored_eq_ok passed saleStates)

/-- What changes a product after a sale: an edit, a stock movement, a removal. -/
inductive ProductChange where
  | save (storeId : Uuid) (actor : Actor) (request : SaveProductRequest)
  | move (storeId : Uuid) (actor : Actor) (request : RecordMovementRequest)
  | remove (storeId : Uuid) (actor : Actor) (productId : Uuid)

/-- Carry out a change; there is no answer where its arithmetic aborts. -/
def ProductChange.perform (now : Timestamp) :
    ProductChange → StoredDb → Option (Except ApiError StoredDb)
  | .save storeId actor request, db =>
    (DecimalRange.apply now storeId actor (.product request) db).map (Except.map Prod.snd)
  | .move storeId actor request, db =>
    (DecimalRange.apply now storeId actor (.movement request) db).map (Except.map Prod.snd)
  | .remove storeId actor productId, db =>
    let removed := (ProductService.remove now storeId actor productId db.1).map fun db => ((), db)
    some ((stored [] removed).map Prod.snd)

/-- The database after a change; one that fails leaves it alone. -/
def after (db : StoredDb) (made : Timestamp × ProductChange) : StoredDb :=
  match made.2.perform made.1 db with
  | some (.ok db') => db'
  | _ => db

/-- The database after a history of changes. -/
def afterAll (db : StoredDb) (history : List (Timestamp × ProductChange)) : StoredDb :=
  history.foldl after db

/-- The sales and their lines are the same. -/
structure SameSales (db db' : Db) : Prop where
  /-- The headers. -/
  sales : db'.sales = db.sales
  /-- The lines. -/
  saleItems : db'.saleItems = db.saleItems

theorem SameSales.refl (db : Db) : SameSales db db := ⟨rfl, rfl⟩

theorem SameSales.trans {a b c : Db} (hab : SameSales a b) (hbc : SameSales b c) :
    SameSales a c := ⟨hbc.sales.trans hab.sales, hbc.saleItems.trans hab.saleItems⟩

theorem SameSales.of_rows {a b : Db} (h : SameRows a b) : SameSales a b := by
  rw [h]
  exact ⟨rfl, rfl⟩

section

variable {now : Timestamp} {storeId productId : Uuid} {actor : Actor} {db db' : Db}

theorem sameSales_save {request : SaveProductRequest} {saved : Uuid × Product}
    (h : ProductService.save now storeId actor request db = .ok (saved, db')) :
    SameSales db db' := by
  cases effect_of_save h with
  | saved _ _ _ _ effect =>
    have hrows := SameSales.of_rows effect
    exact ⟨hrows.sales, hrows.saleItems⟩

theorem sameSales_move {request : RecordMovementRequest}
    (h : InventoryService.record now storeId actor request db = .ok db') : SameSales db db' := by
  cases effect_of_movement h with
  | movedBefore _ => exact SameSales.refl db
  | moved _ _ _ _ _ _ _ effect =>
    have hrows := SameSales.of_rows effect
    exact ⟨hrows.sales, hrows.saleItems⟩

theorem sameSales_remove (h : ProductService.remove now storeId actor productId db = .ok db') :
    SameSales db db' := by
  obtain ⟨_, -, h⟩ := bind_eq_ok.mp h
  unfold softDelete at h
  cases hfind : find storeId productId db with
  | none =>
    rw [hfind] at h
    cases h
  | some p =>
    rw [hfind] at h
    cases h
    exact ⟨rfl, rfl⟩

end

/-- A row that is applied does to the database what its service does. -/
theorem applied_of_perform {now : Timestamp} {storeId : Uuid} {actor : Actor}
    {row : SyncPush.PushRow} {db db' : StoredDb}
    (h : (DecimalRange.apply now storeId actor row db).map (Except.map Prod.snd) =
      some (.ok db')) : ∃ id, row.apply now storeId actor db.1 = .ok (id, db'.1) := by
  obtain ⟨r, hr, hmap⟩ := Option.map_eq_some_iff.mp h
  obtain ⟨⟨id, db₁⟩, rfl, rfl⟩ := map_eq_ok.mp hmap
  exact ⟨id, DecimalRange.ok_of_apply hr⟩

/-- A change to the catalogue leaves the sales alone. -/
theorem sameSales_perform {now : Timestamp} {change : ProductChange} {db db' : StoredDb}
    (h : change.perform now db = some (.ok db')) : SameSales db.1 db'.1 := by
  cases change with
  | save storeId actor request =>
    obtain ⟨id, hdone⟩ := @applied_of_perform now storeId actor (.product request) db db' h
    obtain ⟨saved, hsave⟩ := SyncPush.PushRow.apply_eq_ok hdone
    exact sameSales_save hsave
  | move storeId actor request =>
    obtain ⟨id, hdone⟩ := @applied_of_perform now storeId actor (.movement request) db db' h
    exact sameSales_move (SyncPush.PushRow.apply_eq_ok hdone)
  | remove storeId actor productId =>
    obtain ⟨⟨_, db₁⟩, hstored, rfl⟩ := map_eq_ok.mp (Option.some.inj h)
    obtain ⟨left, hremove, he⟩ := map_eq_ok.mp (stored_eq_ok.mp hstored).2
    have hleft : left = db₁.1 := congrArg Prod.snd he
    rw [hleft] at hremove
    exact sameSales_remove hremove

theorem sameSales_after (db : StoredDb) (made : Timestamp × ProductChange) :
    SameSales db.1 (after db made).1 := by
  unfold after
  split
  · next db' h => exact sameSales_perform h
  · exact SameSales.refl db.1

theorem sameSales_afterAll (db : StoredDb) (history : List (Timestamp × ProductChange)) :
    SameSales db.1 (afterAll db history).1 := by
  induction history generalizing db with
  | nil => exact SameSales.refl db.1
  | cons made rest ih => exact (sameSales_after db made).trans (ih (after db made))

/-- A line as its sender may send it. -/
def visible (actor : Actor) (item : SaleLineRequest) : SaleLineRequest :=
  if actor.can .viewProfit then item else { item with unitCost := none }

theorem visibleItems_eq (actor : Actor) (items : List SaleLineRequest) :
    visibleItems actor items = items.map (visible actor) := by
  unfold visibleItems visible
  split_ifs
  · exact (List.map_id' items).symm
  · rfl

/-- What a line keeps of the day it was recorded. -/
def figuresOf (item : SaleItem) : String × Money × Money × Money :=
  (item.productName, item.unitPrice, item.unitCost, item.lineTotal)

/-- The identifier the `i`-th line of a request is stored under. -/
def lineId (db : Db) (i : ℕ) (item : SaleLineRequest) : Uuid :=
  item.id.getD (Uuid.newV4 db.saleItems i)

/-- A product offers a line what it offered before. -/
structure SameTerms (actor : Actor) (item : SaleLineRequest) (was product : Product) : Prop where
  /-- Its name, always. -/
  name : product.name = was.name
  /-- Its price, when the device sent none. -/
  price : item.unitPrice = none → product.sellingPrice = was.sellingPrice
  /-- Its cost, when the device sent none or may not send one. -/
  cost : (visible actor item).unitCost = none → product.costPrice = was.costPrice

/-- The sale was voided. -/
def Voided (saleId : Uuid) (db : Db) : Prop :=
  ∃ sale, db.sales.find? saleId = some sale ∧ sale.deletedAt ≠ none

/-- A line of a sale can be resolved as it was: its product is listed, and,
unless the sale was voided, offers what it did. -/
def TermsKept (storeId saleId : Uuid) (actor : Actor) (db today : Db) (item : SaleLineRequest) :
    Prop :=
  ∀ productId, item.productId = some productId → ∃ was product,
    find storeId productId db = some was ∧ find storeId productId today = some product ∧
      (¬ Voided saleId today → SameTerms actor item was product)

/-- A product's stock has room for a sale to be given back and taken again, line
by line: what is given back is the line that the restoring update joins. -/
def StockHeld (now : Timestamp) (saleId : Uuid) (items : List SaleLineRequest) (today : Db)
    (productId : Uuid) (product : Product) : Prop :=
  ∀ k, ¬ QuantityOverflows (product.stockQuantity +
    ((joinedLine today.joins now saleId productId today.saleItems).map SaleItem.quantity).getD 0 -
      soldIn (items.take k) productId)

/-- A sale and its lines have the figures they had: `before` is the database
the first recording found and `db` the one it left, `today` and `db'` those of
the second. -/
structure SameHistory (saleId : Uuid) (items : List SaleLineRequest) (before db today db' : Db) :
    Prop where
  /-- The sale's total and cost. -/
  sale : ∃ first again, db.sales.find? saleId = some first ∧
    db'.sales.find? saleId = some again ∧ again.totalAmount = first.totalAmount ∧
      again.costAmount = first.costAmount
  /-- The name, price, cost and total of each line. -/
  lines : ∀ (i : ℕ) (item : SaleLineRequest), items[i]? = some item →
    (db'.saleItems.find? (lineId today i item)).map figuresOf =
      (db.saleItems.find? (lineId before i item)).map figuresOf

theorem getElem?_lineIds (db : Db) (items : List SaleLineRequest) (i j : ℕ) :
    (lineIds db items i)[j]? = items[j]?.map (lineId db (i + j)) := by
  induction items generalizing i j with
  | nil => rfl
  | cons item rest ih =>
    cases j with
    | zero => rfl
    | succ j =>
      rw [lineIds, List.getElem?_cons_succ, List.getElem?_cons_succ, ih, Nat.add_right_comm]
      rfl

theorem mem_lineIds {db : Db} {items : List SaleLineRequest} {id : Uuid} :
    id ∈ lineIds db items 0 ↔ ∃ i item, items[i]? = some item ∧ lineId db i item = id := by
  rw [List.mem_iff_getElem?]
  constructor
  · rintro ⟨i, hi⟩
    rw [getElem?_lineIds, Nat.zero_add, Option.map_eq_some_iff] at hi
    obtain ⟨item, hitem, hid⟩ := hi
    exact ⟨i, item, hitem, hid⟩
  · rintro ⟨i, item, hitem, hid⟩
    refine ⟨i, ?_⟩
    rw [getElem?_lineIds, Nat.zero_add, hitem, Option.map_some, hid]

/-- Identifiers that were distinct stay distinct when the drawn ones are drawn
again, past the given ones. -/
theorem nodup_lineIds_again {db today : Db} {items : List SaleLineRequest}
    (hnodup : (lineIds db items 0).Nodup)
    (hstored : ∀ item ∈ items, ∀ id, item.id = some id → (today.saleItems.find? id).isSome) :
    (lineIds today items 0).Nodup := by
  rw [List.nodup_iff_getElem?_ne_getElem?] at hnodup ⊢
  intro i j hij hj he
  obtain ⟨second, hsecond⟩ : ∃ item, items[j]? = some item := by
    have hsome := List.getElem?_eq_getElem hj
    rw [getElem?_lineIds, Option.map_eq_some_iff] at hsome
    obtain ⟨item, hitem, -⟩ := hsome
    exact ⟨item, hitem⟩
  have hlength : j < (lineIds db items 0).length := by
    by_contra hout
    have hnone := List.getElem?_eq_none (Nat.le_of_not_lt hout)
    rw [getElem?_lineIds, hsecond] at hnone
    cases hnone
  have hne := hnodup i j hij hlength
  rw [getElem?_lineIds, getElem?_lineIds, Nat.zero_add, Nat.zero_add, hsecond] at he hne
  rw [Option.map_some, Option.map_eq_some_iff] at he
  obtain ⟨first, hfirst, he⟩ := he
  have hsecondMem := List.mem_of_getElem? hsecond
  have hfirstMem := List.mem_of_getElem? hfirst
  cases hf : first.id with
  | some a =>
    cases hs : second.id with
    | some b =>
      -- both were given, and told apart the first time
      rw [hfirst] at hne
      simp only [lineId, hf, hs, Option.getD_some, Option.map_some] at he hne
      exact hne (congrArg some he)
    | none =>
      have hsome := hstored first hfirstMem a hf
      simp only [lineId, hf, hs, Option.getD_some, Option.getD_none] at he
      rw [he, Uuid.find?_newV4] at hsome
      cases hsome
  | none =>
    cases hs : second.id with
    | some b =>
      have hsome := hstored second hsecondMem b hs
      simp only [lineId, hf, hs, Option.getD_some, Option.getD_none] at he
      rw [← he, Uuid.find?_newV4] at hsome
      cases hsome
    | none =>
      simp only [lineId, hf, hs, Option.getD_none] at he
      have := Uuid.newV4_injective today.saleItems he
      omega

/-- The lines of a sale, each under its own identifier. -/
theorem getElem?_of_resolveLines {storeId : Uuid} {db : Db} {items : List SaleLineRequest} {i : ℕ}
    {lines : List PreparedLine} (h : resolveLines storeId db items i = .ok lines) (j : ℕ) :
    lines[j]? = none ∧ items[j]? = none ∨ ∃ item line, items[j]? = some item ∧
      lines[j]? = some line ∧ resolveLine storeId (lineId db (i + j) item) item db = .ok line := by
  induction items generalizing i j lines with
  | nil =>
    cases h
    exact Or.inl ⟨rfl, rfl⟩
  | cons item rest ih =>
    obtain ⟨line, hline, h⟩ := bind_eq_ok.mp h
    obtain ⟨others, hothers, h⟩ := bind_eq_ok.mp h
    cases h
    cases j with
    | zero => exact Or.inr ⟨item, line, rfl, rfl, hline⟩
    | succ j =>
      have hrest := ih hothers j
      rwa [Nat.add_right_comm] at hrest

theorem quantity_of_resolveLine {storeId id : Uuid} {item : SaleLineRequest} {db : Db}
    {line : PreparedLine} (h : resolveLine storeId id item db = .ok line) :
    line.quantity = quantityFromF64 item.quantity := by
  obtain ⟨_, _, _, _, rfl⟩ | ⟨_, _, _, rfl⟩ := resolveLine_iff.mp h
  · rfl
  · rfl

theorem getD_map_eq_iff (sent : Option ℚ) (f : ℚ → Money) (a b : Money) :
    (sent.map f).getD a = (sent.map f).getD b ↔ (sent = none → a = b) := by
  cases sent with
  | none => simp
  | some x => simp

theorem visible_productId (actor : Actor) (item : SaleLineRequest) :
    (visible actor item).productId = item.productId := by
  unfold visible
  split_ifs <;> rfl

theorem visible_unitPrice (actor : Actor) (item : SaleLineRequest) :
    (visible actor item).unitPrice = item.unitPrice := by
  unfold visible
  split_ifs <;> rfl

theorem lineId_visible (db : Db) (i : ℕ) (actor : Actor) (item : SaleLineRequest) :
    lineId db i (visible actor item) = lineId db i item := by
  unfold visible
  split_ifs <;> rfl

/-- A line resolved twice has the same figures exactly when its product offers
it what it did. -/
theorem figures_iff {storeId saleId id id' : Uuid} {actor : Actor} {item : SaleLineRequest}
    {db today : Db} {line line' : PreparedLine}
    (h : resolveLine storeId id (visible actor item) db = .ok line)
    (h' : resolveLine storeId id' (visible actor item) today = .ok line') :
    figuresOf (storedLine saleId line') = figuresOf (storedLine saleId line) ↔
      ∀ productId, item.productId = some productId → ∃ was product,
        find storeId productId db = some was ∧ find storeId productId today = some product ∧
          SameTerms actor item was product := by
  have hp := visible_productId actor item
  obtain ⟨productId, was, hproductId, hwas, rfl⟩ | ⟨unitPrice, hnone, hprice, rfl⟩ :=
    resolveLine_iff.mp h
  · obtain ⟨_, product, hproductId', hproduct, rfl⟩ | ⟨_, hnone, -, -⟩ := resolveLine_iff.mp h'
    · cases hproductId.symm.trans hproductId'
      simp only [figuresOf, storedLine, preparedLine, Prod.mk.injEq, getD_map_eq_iff,
        visible_unitPrice]
      rw [hp] at hproductId
      constructor
      · rintro ⟨hname, hprice, hcost, -⟩ _ hid
        cases hproductId.symm.trans hid
        exact ⟨was, product, hwas, hproduct, hname, hprice, hcost⟩
      · intro hterms
        obtain ⟨was', product', hwas', hproduct', hsame⟩ := hterms productId hproductId
        cases hwas.symm.trans hwas'
        cases hproduct.symm.trans hproduct'
        refine ⟨hsame.name, hsame.price, hsame.cost, ?_⟩
        rw [(getD_map_eq_iff item.unitPrice moneyFromF64 _ _).mpr hsame.price]
    · cases hproductId.symm.trans hnone
  · obtain ⟨_, _, hsome, -, -⟩ | ⟨_, -, hprice', rfl⟩ := resolveLine_iff.mp h'
    · cases hnone.symm.trans hsome
    · cases hprice.symm.trans hprice'
      rw [hp] at hnone
      refine ⟨fun _ productId hid => ?_, fun _ => rfl⟩
      cases hnone.symm.trans hid

/-- A line of a stored sale is found under its identifier. -/
theorem find?_of_storedAs {saleId : Uuid} {discount : Money} {lines : List PreparedLine}
    {sale : Sale} {db : Db} (h : StoredAs saleId discount lines sale (linesFor saleId db))
    {line : PreparedLine} (hline : line ∈ lines) :
    db.saleItems.find? line.id = some (storedLine saleId line) := by
  have hfound := (h.items line.id _).mpr ⟨line, hline, rfl, rfl⟩
  exact (Table.find?_filter_eq_some.mp hfound).1

section

variable {storeId saleId : Uuid} {actor : Actor} {items : List SaleLineRequest} {discount : Money}
  {before db today db' : Db} {lines lines' : List PreparedLine} {first again : Sale}

/-- A line resolved twice has the same figures and quantity. -/
structure SameFigures (line line' : PreparedLine) : Prop where
  /-- The price. -/
  price : line'.unitPrice = line.unitPrice
  /-- The cost. -/
  cost : line'.unitCost = line.unitCost
  /-- The total. -/
  total : line'.lineTotal = line.lineTotal
  /-- The quantity. -/
  quantity : line'.quantity = line.quantity

/-- Each line of a request, as it was resolved both times. -/
theorem resolved_both
    (hlines : resolveLines storeId before (visibleItems actor items) 0 = .ok lines)
    (hlines' : resolveLines storeId today (visibleItems actor items) 0 = .ok lines')
    {i : ℕ} {item : SaleLineRequest} (hitem : items[i]? = some item) :
    ∃ line line', lines[i]? = some line ∧ lines'[i]? = some line' ∧
      resolveLine storeId (lineId before i item) (visible actor item) before = .ok line ∧
      resolveLine storeId (lineId today i item) (visible actor item) today = .ok line' := by
  rw [visibleItems_eq] at hlines hlines'
  have hsent : (items.map (visible actor))[i]? = some (visible actor item) := by
    rw [List.getElem?_map, hitem, Option.map_some]
  rcases getElem?_of_resolveLines hlines i with ⟨-, hnone⟩ | ⟨sent, line, hs, hline, hr⟩
  · rw [hsent] at hnone
    cases hnone
  rcases getElem?_of_resolveLines hlines' i with ⟨-, hnone⟩ | ⟨sent', line', hs', hline', hr'⟩
  · rw [hsent] at hnone
    cases hnone
  cases hsent.symm.trans hs
  cases hsent.symm.trans hs'
  rw [Nat.zero_add, lineId_visible] at hr hr'
  exact ⟨line, line', hline, hline', hr, hr'⟩

/-- Whatever is read off the figures and the quantities of the lines is the same
both times when every product offers its line what it did. -/
theorem map_lines_eq {α : Type} {f : PreparedLine → α}
    (hlines : resolveLines storeId before (visibleItems actor items) 0 = .ok lines)
    (hlines' : resolveLines storeId today (visibleItems actor items) 0 = .ok lines')
    (hterms : ∀ item ∈ items, ∀ productId, item.productId = some productId → ∃ was product,
      find storeId productId before = some was ∧ find storeId productId today = some product ∧
        SameTerms actor item was product)
    (hf : ∀ line line' : PreparedLine, SameFigures line line' → f line' = f line) :
    lines'.map f = lines.map f := by
  have hlength : ∀ {db : Db} {resolved : List PreparedLine},
      resolveLines storeId db (visibleItems actor items) 0 = .ok resolved →
        resolved.length = items.length := by
    intro db resolved h
    have hids := congrArg List.length (resolveLines_eq_ok h).2.2
    rw [productIds_visible, List.length_map, List.length_map] at hids
    exact hids
  apply List.ext_getElem?
  intro i
  rw [List.getElem?_map, List.getElem?_map]
  cases hitem : items[i]? with
  | none =>
    rw [List.getElem?_eq_none_iff] at hitem
    rw [List.getElem?_eq_none (by rw [hlength hlines']; exact hitem),
      List.getElem?_eq_none (by rw [hlength hlines]; exact hitem)]
  | some item =>
    obtain ⟨line, line', hline, hline', hr, hr'⟩ := resolved_both hlines hlines' hitem
    -- which sale the line is stored with is none of its figures
    have hsame := (@figures_iff storeId ⟨0⟩ _ _ actor item before today line line' hr hr').mpr
      (hterms item (List.mem_of_getElem? hitem))
    have hquantity : line'.quantity = line.quantity := by
      rw [quantity_of_resolveLine hr, quantity_of_resolveLine hr']
    simp only [figuresOf, storedLine, Prod.mk.injEq] at hsame
    obtain ⟨-, hprice, hcost, htotal⟩ := hsame
    rw [hline, hline', Option.map_some, Option.map_some,
      hf line line' ⟨hprice, hcost, htotal, hquantity⟩]

/-- A sale stored twice has the same figures exactly when every product offers
its line what it did. -/
theorem sameHistory_iff
    (hlines : resolveLines storeId before (visibleItems actor items) 0 = .ok lines)
    (hlines' : resolveLines storeId today (visibleItems actor items) 0 = .ok lines')
    (hfirst : db.sales.find? saleId = some first) (hagain : db'.sales.find? saleId = some again)
    (hstored : StoredAs saleId discount lines first (linesFor saleId db))
    (hstored' : StoredAs saleId discount lines' again (linesFor saleId db')) :
    SameHistory saleId items before db today db' ↔
      ∀ item ∈ items, ∀ productId, item.productId = some productId → ∃ was product,
        find storeId productId before = some was ∧ find storeId productId today = some product ∧
          SameTerms actor item was product := by
  have hfound : ∀ (i : ℕ) (item : SaleLineRequest), items[i]? = some item →
      ((db'.saleItems.find? (lineId today i item)).map figuresOf =
          (db.saleItems.find? (lineId before i item)).map figuresOf ↔
        ∀ productId, item.productId = some productId → ∃ was product,
          find storeId productId before = some was ∧
            find storeId productId today = some product ∧ SameTerms actor item was product) := by
    intro i item hitem
    obtain ⟨line, line', hline, hline', hr, hr'⟩ := resolved_both hlines hlines' hitem
    have hrow := find?_of_storedAs hstored (List.mem_of_getElem? hline)
    have hrow' := find?_of_storedAs hstored' (List.mem_of_getElem? hline')
    rw [(resolveLine_eq_ok hr).2.1] at hrow
    rw [(resolveLine_eq_ok hr').2.1] at hrow'
    rw [hrow, hrow', Option.map_some, Option.map_some, Option.some.injEq]
    exact figures_iff hr hr'
  constructor
  · intro hsame item hmem
    obtain ⟨i, hitem⟩ := List.mem_iff_getElem?.mp hmem
    exact (hfound i item hitem).mp (hsame.lines i item hitem)
  · intro hterms
    have htotals : lines'.map PreparedLine.lineTotal = lines.map PreparedLine.lineTotal :=
      map_lines_eq hlines hlines' hterms fun _ _ hsame => hsame.total
    have hcosts : (lines'.map fun line => line.unitCost * line.quantity) =
        lines.map fun line => line.unitCost * line.quantity :=
      map_lines_eq hlines hlines' hterms fun _ _ hsame => by rw [hsame.cost, hsame.quantity]
    refine ⟨⟨first, again, hfirst, hagain, ?_, ?_⟩, fun i item hitem =>
      (hfound i item hitem).mpr (hterms item (List.mem_of_getElem? hitem))⟩
    · rw [hstored'.totalAmount, hstored.totalAmount, htotals]
    · rw [hstored'.costAmount, hstored.costAmount, hcosts]

end

/-- What a first recording left of a sale that was not voided before it: the
row and the lines, as they were resolved. -/
structure Recorded (storeId saleId : Uuid) (actor : Actor) (request : RecordSaleRequest)
    (before db : Db) (lines : List PreparedLine) (row : Sale) : Prop where
  /-- The lines were resolved. -/
  resolved : resolveLines storeId before (visibleItems actor request.items) 0 = .ok lines
  /-- The row is there. -/
  found : db.sales.find? saleId = some row
  /-- It is the store's. -/
  own : row.storeId = storeId
  /-- It is live. -/
  live : row.deletedAt = none
  /-- The sender may change it. -/
  may : actor.isOwner = false → row.recordedByStaffId = actor.staffId
  /-- So are its lines. -/
  stored : StoredAs saleId (moneyFromF64 request.discountAmount) lines row (linesFor saleId db)

section

variable {now : Timestamp} {storeId saleId : Uuid} {actor : Actor} {request : RecordSaleRequest}
  {before db : Db} {detail : SaleDetail}

/-- A recorded sale has the identifier it was sent with. -/
theorem id_of_record (hid : request.id = some saleId)
    (h : SaleService.record now storeId actor request before = .ok (detail, db)) :
    detail.id = saleId := by
  obtain ⟨method, -, h⟩ := bind_eq_ok.mp h
  obtain ⟨lines, -, h⟩ := bind_eq_ok.mp h
  obtain ⟨⟨recorded, db₁⟩, hrecord, h⟩ := bind_eq_ok.mp h
  have hsale := (created_of_record hrecord).1
  cases h
  rw [hsale, prepareSale, hid, Option.getD_some]

/-- A recorded sale had its payment method known and its lines resolvable. -/
theorem resolvable_of_record
    (h : SaleService.record now storeId actor request before = .ok (detail, db)) :
    (∃ method, normalisePaymentMethod request.paymentMethod = .ok method) ∧
      ∀ item ∈ request.items, Resolvable storeId before item := by
  obtain ⟨method, hmethod, h⟩ := bind_eq_ok.mp h
  obtain ⟨lines, hlines, h⟩ := bind_eq_ok.mp h
  exact ⟨⟨method, hmethod⟩, resolvable_visible (resolveLines_eq_ok hlines).1⟩

/-- The row a recording writes is live, the store's, and its sender's to change. -/
theorem recorded_of_record (hid : request.id = some saleId)
    (h : SaleService.record now storeId actor request before = .ok (detail, db)) :
    (∃ existing, before.sales.find? saleId = some existing ∧ existing.storeId = storeId ∧
        existing.deletedAt ≠ none ∧ SameSales before db) ∨
      ∃ lines row, Recorded storeId saleId actor request before db lines row := by
  have hdetail := id_of_record hid h
  cases effect_of_sale h with
  | @sold _ sale db₁ _ asked recorded effect =>
    have hsale : sale.id = saleId := by rw [asked.id, hid, Option.getD_some]
    have hrows := SameSales.of_rows effect
    -- a sale that was not voided is written, and its row is the one looked up
    have hwritten : ∀ {row : Sale}, (∀ s, before.sales.find? saleId = some s →
        s.deletedAt = none) → db₁.sales.find? sale.id = some row → row.storeId = storeId →
        row.deletedAt = none →
        (actor.isOwner = false → row.recordedByStaffId = actor.staffId) →
        ∃ lines row, Recorded storeId saleId actor request before db lines row := by
      intro row hlive hrow hown hgone hmay
      obtain ⟨lines, row', hlines, hrow', hstored⟩ := stored_of_record
        (fun id s hgiven hs => hlive s (by cases hid.symm.trans hgiven; exact hs)) h
      rw [hdetail] at hrow' hstored
      rw [← hrows.sales, hsale] at hrow
      cases hrow.symm.trans hrow'
      exact ⟨lines, row, hlines, hrow, hown, hgone, hmay, hstored⟩
    cases recorded with
    | voided existing stored own gone same =>
      rw [hsale] at stored
      rw [same] at hrows
      exact Or.inl ⟨existing, stored, own.trans asked.ofStore, gone, hrows⟩
    | new unknown writable written =>
      right
      refine hwritten ?_ (by rw [written.sales]; exact Table.find?_put_self _ _ _) ?_ ?_ ?_
      · intro s hs
        rw [hsale, hs] at unknown
        cases unknown
      · rw [unknown]
        exact asked.ofStore
      · rw [unknown]
        rfl
      · rw [unknown]
        exact fun _ => rfl
    | again existing stored own live may writable written =>
      have hundone : (undoSale now sale.id sale.storeId before).sales.find? sale.id =
          some existing := stored
      right
      refine hwritten ?_ (by rw [written.sales]; exact Table.find?_put_self _ _ _) ?_ ?_ ?_
      · intro s hs
        rw [hsale, hs] at stored
        cases stored
        exact live
      · rw [hundone]
        exact own.trans asked.ofStore
      · rw [hundone]
        exact live
      · rw [hundone]
        exact may

/-- A line that could be resolved still can be when its terms are kept. -/
theorem resolvable_again {today : Db} {item : SaleLineRequest}
    (hbefore : Resolvable storeId before item)
    (hterms : TermsKept storeId saleId actor before today item) :
    Resolvable storeId today item := by
  unfold Resolvable at hbefore ⊢
  cases hp : item.productId with
  | none =>
    rw [hp] at hbefore
    exact hbefore
  | some productId =>
    obtain ⟨was, product, -, hproduct, -⟩ := hterms productId hp
    dsimp only
    rw [hproduct]
    rfl

theorem listed_of_resolvable {item : SaleLineRequest} {productId : Uuid}
    (h : Resolvable storeId before item) (hp : item.productId = some productId) :
    ∃ product, find storeId productId before = some product := by
  rw [Resolvable, hp] at h
  exact Option.isSome_iff_exists.mp h

/-- The identical sale is in order again as long as its products are listed. -/
theorem acceptable_again {today : Db} {lines : List PreparedLine} {row : Sale}
    (hrecorded : Recorded storeId saleId actor request before db lines row)
    (hmethod : ∃ method, normalisePaymentMethod request.paymentMethod = .ok method)
    (hsame : SameSales db today)
    (hresolvable : ∀ item ∈ request.items, Resolvable storeId today item) :
    Acceptable storeId request saleId today := by
  obtain ⟨-, hids, -⟩ := resolveLines_eq_ok hrecorded.resolved
  rw [lineIds_visible] at hids
  have hgiven : ∀ item ∈ request.items, ∀ id, item.id = some id →
      ∃ line, today.saleItems.find? id = some (storedLine saleId line) := by
    intro item hitem id hid
    obtain ⟨i, hi⟩ := List.mem_iff_getElem?.mp hitem
    have hmem : id ∈ lines.map PreparedLine.id := by
      rw [hids]
      exact mem_lineIds.mpr ⟨i, item, hi, by rw [lineId, hid, Option.getD_some]⟩
    obtain ⟨line, hline, rfl⟩ := List.mem_map.mp hmem
    rw [hsame.saleItems]
    exact ⟨line, find?_of_storedAs hrecorded.stored hline⟩
  refine ⟨hmethod, hresolvable, ?_, ?_⟩
  · have hnodup := hrecorded.stored.nodup
    rw [hids] at hnodup
    apply nodup_lineIds_again hnodup
    intro item hitem id hid
    obtain ⟨line, hline⟩ := hgiven item hitem id hid
    rw [hline]
    rfl
  · intro id hid stored hstored
    obtain ⟨i, item, hitem, rfl⟩ := mem_lineIds.mp hid
    cases hgave : item.id with
    | none =>
      rw [lineId, hgave, Option.getD_none, Uuid.find?_newV4] at hstored
      cases hstored
    | some given =>
      rw [lineId, hgave, Option.getD_some] at hstored
      obtain ⟨line, hline⟩ := hgiven item (List.mem_of_getElem? hitem) given hgave
      cases hline.symm.trans hstored
      rfl

/-- A voided sale is answered with as it is. -/
theorem record_voided {existing : Sale} (hid : request.id = some saleId)
    (hmethod : ∃ method, normalisePaymentMethod request.paymentMethod = .ok method)
    (hresolvable : ∀ item ∈ request.items, Resolvable storeId db item)
    (hfound : db.sales.find? saleId = some existing) (hown : existing.storeId = storeId)
    (hgone : existing.deletedAt ≠ none) :
    ∃ detail, SaleService.record now storeId actor request db = .ok (detail, db) := by
  obtain ⟨method, hmethod⟩ := hmethod
  obtain ⟨lines, hlines, -⟩ := @resolveLines_visible storeId actor db request.items hresolvable
  have hrecord : SaleRepository.record now (Uuid.newV4 db.stockMovements)
      (prepareSale now storeId saleId method request lines) (recorderOf actor) db =
        .ok (⟨saleId, existing, false⟩, db) := by
    have hsale : db.sales.find? (prepareSale now storeId saleId method request lines).id =
        some existing := hfound
    have hstore : existing.storeId =
        (prepareSale now storeId saleId method request lines).storeId := hown
    simp only [SaleRepository.record, hsale]
    rw [if_neg (not_not.mpr hstore), if_pos (Option.isSome_iff_ne_none.mpr hgone)]
    rfl
  exact ⟨_, service_record_ok hmethod hid hlines hrecord⟩

/-- Were every figure held, the identical sale sent again would leave its figures
as they were exactly when its products are listed, and offer its lines what they
did. All that is known of the database today is that the sales were left alone. -/
theorem sameHistory_service_iff (now' : Timestamp) {today : Db} (hsame : SameSales db today)
    (hid : request.id = some saleId)
    (h : SaleService.record now storeId actor request before = .ok (detail, db)) :
    (∃ detail' db', SaleService.record now' storeId actor request today = .ok (detail', db') ∧
      SameHistory saleId request.items before db today db') ↔
    ∀ item ∈ request.items, TermsKept storeId saleId actor before today item := by
  obtain ⟨hmethod, hresolvable⟩ := resolvable_of_record h
  rcases recorded_of_record hid h with ⟨existing, hexisting, hown, hgone, hfirst⟩ |
    ⟨lines, row, hrecorded⟩
  · have hall := hfirst.trans hsame
    have hfound : today.sales.find? saleId = some existing := by
      rw [hall.sales, hexisting]
    constructor
    · rintro ⟨detail', db', h', -⟩ item hitem productId hp
      obtain ⟨-, hagain⟩ := resolvable_of_record h'
      obtain ⟨was, hwas⟩ := listed_of_resolvable (hresolvable item hitem) hp
      obtain ⟨product, hproduct⟩ := listed_of_resolvable (hagain item hitem) hp
      exact ⟨was, product, hwas, hproduct, fun hlive => absurd ⟨existing, hfound, hgone⟩ hlive⟩
    · intro hterms
      have hagain : ∀ item ∈ request.items, Resolvable storeId today item :=
        fun item hitem => resolvable_again (hresolvable item hitem) (hterms item hitem)
      obtain ⟨detail', h'⟩ := @record_voided now' storeId saleId actor request today existing hid
        hmethod hagain hfound hown hgone
      refine ⟨detail', today, h', ⟨existing, existing, ?_, hfound, rfl, rfl⟩, ?_⟩
      · rw [hfirst.sales, hexisting]
      · intro i item _
        rw [lineId, lineId, hall.saleItems, hfirst.saleItems]
  · have hfound : today.sales.find? saleId = some row := by
      rw [hsame.sales, hrecorded.found]
    have hlive : ¬ Voided saleId today := by
      rintro ⟨sale, hsale, hvoided⟩
      cases hfound.symm.trans hsale
      exact hvoided hrecorded.live
    have hiff : ∀ {detail' : SaleDetail} {db' : Db},
        SaleService.record now' storeId actor request today = .ok (detail', db') →
        (SameHistory saleId request.items before db today db' ↔ ∀ item ∈ request.items,
          ∀ productId, item.productId = some productId → ∃ was product,
            find storeId productId before = some was ∧
              find storeId productId today = some product ∧ SameTerms actor item was product) := by
      intro detail' db' h'
      obtain ⟨lines', again, hlines', hagain, hstored'⟩ := stored_of_record
        (fun id s hgiven hs => (by
          cases hid.symm.trans hgiven
          cases hfound.symm.trans hs
          exact hrecorded.live)) h'
      rw [id_of_record hid h'] at hagain hstored'
      exact sameHistory_iff hrecorded.resolved hlines' hrecorded.found hagain hrecorded.stored
        hstored'
    constructor
    · rintro ⟨detail', db', h', hkept⟩ item hitem productId hp
      obtain ⟨was, product, hwas, hproduct, hterms⟩ := (hiff h').mp hkept item hitem productId hp
      exact ⟨was, product, hwas, hproduct, fun _ => hterms⟩
    · intro hterms
      have hagain : ∀ item ∈ request.items, Resolvable storeId today item :=
        fun item hitem => resolvable_again (hresolvable item hitem) (hterms item hitem)
      obtain ⟨detail', db', h'⟩ := @record_of_acceptable now' storeId saleId actor request today
        hid row hfound hrecorded.own hrecorded.live hrecorded.may
        (acceptable_again hrecorded hmethod hsame hagain)
      refine ⟨detail', db', h', (hiff h').mpr fun item hitem productId hp => ?_⟩
      obtain ⟨was, product, hwas, hproduct, hsameTerms⟩ := hterms item hitem productId hp
      exact ⟨was, product, hwas, hproduct, hsameTerms hlive⟩

end

section Columns

variable {now now' : Timestamp} {storeId saleId : Uuid} {actor : Actor}
  {request : RecordSaleRequest} {before db today db' : Db} {detail : SaleDetail}
  {lines : List PreparedLine} {row : Sale} {method : String}

/-- What the statements of a sale pass through, once its lines are resolved. -/
theorem passed_eq (hid : request.id = some saleId)
    (hmethod : normalisePaymentMethod request.paymentMethod = .ok method)
    (hlines : resolveLines storeId db (visibleItems actor request.items) 0 = .ok lines) :
    passed now storeId actor (.sale request) db =
      saleStates now (Uuid.newV4 db.stockMovements)
        (prepareSale now storeId saleId method request lines) (recorderOf actor) db := by
  simp only [passed, hmethod, hlines, hid, Option.getD_some]

/-- A product that no line of a sale names has none of its stock given back. -/
theorem joinedLine_of_not_named
    (hrecorded : Recorded storeId saleId actor request before db lines row)
    (hsame : SameSales db today) {id : Uuid}
    (hnamed : ∀ item ∈ request.items, item.productId ≠ some id) :
    joinedLine today.joins now saleId id today.saleItems = none := by
  rw [joinedLine_eq_none]
  intro k item hitem hsale hproduct
  rw [hsame.saleItems] at hitem
  have hline := (hrecorded.stored.items k item).mp
    (Table.find?_filter_eq_some.mpr ⟨hitem, by simp [hsale]⟩)
  obtain ⟨line, hmem, -, rfl⟩ := hline
  have hids := (resolveLines_eq_ok hrecorded.resolved).2.2
  rw [productIds_visible] at hids
  have hin : line.productId ∈ request.items.map SaleLineRequest.productId := by
    rw [← hids]
    exact List.mem_map_of_mem hmem
  obtain ⟨asked, hasked, he⟩ := List.mem_map.mp hin
  exact hnamed asked hasked (he.trans hproduct)

/-- Every stock after giving back and after each line fits exactly when those of
the products the sale names do. -/
theorem stocksFit_iff (hfits : Fits today)
    (hrecorded : Recorded storeId saleId actor request before db lines row)
    (hsame : SameSales db today) {lines' : List PreparedLine}
    (hres : List.Forall₂ Resolves request.items lines')
    (hlisted : ∀ item ∈ request.items, ∀ productId, item.productId = some productId →
      ∃ product, find storeId productId today = some product) :
    (∀ k, StocksFit ((undoSale now saleId storeId today).products.mapRows
        (deducted now storeId (lines'.take k)))) ↔
      ∀ item ∈ request.items, ∀ productId product, item.productId = some productId →
        find storeId productId today = some product →
          StockHeld now saleId request.items today productId product := by
  have htaken : ∀ k id, takenBy (lines'.take k) id = soldIn (request.items.take k) id :=
    fun k id => takenBy_of_resolves (List.forall₂_take k hres) id
  -- the stock of a product of the store, after giving back and after so many lines
  have hstock : ∀ k id (p : Product), p.storeId = storeId →
      (deducted now storeId (lines'.take k) id
        (restored today.joins now saleId storeId today.saleItems id p)).stockQuantity =
      p.stockQuantity + ((joinedLine today.joins now saleId id today.saleItems).map
        SaleItem.quantity).getD 0 - soldIn (request.items.take k) id := by
    intro k id p hs
    rw [deducted_stockQuantity now _ id (by rw [restored_storeId, hs]), htaken,
      restored_stockQuantity now fun _ _ => hs]
  constructor
  · intro hall item _ id product _ hproduct k hover
    obtain ⟨hfound, hs, -⟩ := find_eq_some.mp hproduct
    refine hall k ⟨id, deducted now storeId (lines'.take k) id
      (restored today.joins now saleId storeId today.saleItems id product), ?_, ?_⟩
    · rw [Table.find?_mapRows, undoSale_products, hfound]
      rfl
    · dsimp only
      rw [hstock k id product hs]
      exact hover
  · rintro hall k ⟨id, p', hp', hover⟩
    rw [Table.find?_mapRows, undoSale_products, Option.map_map, Option.map_eq_some_iff] at hp'
    obtain ⟨p, hp, rfl⟩ := hp'
    dsimp only [Function.comp_apply] at hover
    have hfit : ¬ QuantityOverflows p.stockQuantity := fun h =>
      Table.not_any.mp hfits.products id p hp (Or.inr (Or.inr (Or.inl h)))
    by_cases hs : p.storeId = storeId
    · by_cases hnamed : ∃ item ∈ request.items, item.productId = some id
      · obtain ⟨item, hitem, hid⟩ := hnamed
        obtain ⟨product, hproduct⟩ := hlisted item hitem id hid
        cases (find_eq_some.mp hproduct).1.symm.trans hp
        rw [hstock k id p hs] at hover
        exact hall item hitem id p hid hproduct k hover
      · have hnot : ∀ item ∈ request.items, item.productId ≠ some id :=
          fun item hitem hid => hnamed ⟨item, hitem, hid⟩
        have hnone : soldIn (request.items.take k) id = 0 := by
          apply List.sum_eq_zero
          intro q hq
          obtain ⟨item, hitem, rfl⟩ := List.mem_map.mp hq
          rw [if_neg (hnot item (List.mem_of_mem_take hitem))]
        rw [hstock k id p hs, joinedLine_of_not_named hrecorded hsame hnot, hnone] at hover
        simp only [Option.map_none, Option.getD_none, add_zero, sub_zero] at hover
        exact hfit hover
    · have hback : restored today.joins now saleId storeId today.saleItems id p = p := by
        unfold restored
        cases joinedLine today.joins now saleId id today.saleItems with
        | none => rfl
        | some item => exact if_neg hs
      rw [hback, deducted, if_neg fun h => hs h.1] at hover
      exact hfit hover

/-- The header of a sale stored again is that of its row, and so fits as that
does; and so do its lines. -/
theorem sale_fits_again (hfits : Fits db)
    (hrecorded : Recorded storeId saleId actor request before db lines row)
    {lines' : List PreparedLine}
    (hlines' : resolveLines storeId today (visibleItems actor request.items) 0 = .ok lines')
    (hterms : ∀ item ∈ request.items, ∀ productId, item.productId = some productId →
      ∃ was product, find storeId productId before = some was ∧
        find storeId productId today = some product ∧ SameTerms actor item was product) :
    HeaderFits (prepareSale now storeId saleId method request lines') ∧
      ∀ line ∈ lines', LineFits line := by
  have htotals : lines'.map PreparedLine.lineTotal = lines.map PreparedLine.lineTotal :=
    map_lines_eq hrecorded.resolved hlines' hterms fun _ _ hsame => hsame.total
  have hcosts : (lines'.map fun line => line.unitCost * line.quantity) =
      lines.map fun line => line.unitCost * line.quantity :=
    map_lines_eq hrecorded.resolved hlines' hterms fun _ _ hsame => by
      rw [hsame.cost, hsame.quantity]
  have hline : lines'.map LineFits = lines.map LineFits :=
    map_lines_eq hrecorded.resolved hlines' hterms fun _ _ hsame => by
      rw [LineFits, LineFits, hsame.quantity, hsame.price, hsame.cost, hsame.total]
  constructor
  · have hrow := Table.not_any.mp hfits.sales saleId row hrecorded.found
    rw [hrecorded.stored.totalAmount, hrecorded.stored.costAmount,
      hrecorded.stored.discountAmount] at hrow
    unfold HeaderFits prepareSale
    dsimp only
    rw [htotals, hcosts]
    exact hrow
  · have hfirst : ∀ p ∈ lines.map LineFits, p := by
      intro p hp
      obtain ⟨line, hmem, rfl⟩ := List.mem_map.mp hp
      have hrow := Table.not_any.mp hfits.saleItems line.id (storedLine saleId line)
        (find?_of_storedAs hrecorded.stored hmem)
      dsimp only [storedLine] at hrow
      exact hrow
    rw [← hline] at hfirst
    exact fun line hmem => hfirst _ (List.mem_map_of_mem hmem)

/-- What a call of the service writes is what its repository does, but for the
log. -/
theorem repository_of_record (hid : request.id = some saleId)
    (h : SaleService.record now storeId actor request db = .ok (detail, db')) :
    ∃ method lines recorded db₁, normalisePaymentMethod request.paymentMethod = .ok method ∧
      resolveLines storeId db (visibleItems actor request.items) 0 = .ok lines ∧
      SaleRepository.record now (Uuid.newV4 db.stockMovements)
        (prepareSale now storeId saleId method request lines) (recorderOf actor) db =
          .ok (recorded, db₁) ∧ SameRows db₁ db' := by
  obtain ⟨method, hmethod, h⟩ := bind_eq_ok.mp h
  obtain ⟨lines, hlines, h⟩ := bind_eq_ok.mp h
  obtain ⟨⟨recorded, db₁⟩, hrecord, h⟩ := bind_eq_ok.mp h
  rw [hid, Option.getD_some] at hrecord
  refine ⟨method, lines, recorded, db₁, hmethod, hlines, hrecord, ?_⟩
  cases h
  split_ifs <;> rfl

/-- A live sale sent again with its terms kept fits exactly when its stocks
hold. -/
theorem fits_again_iff (hfirst : Fits db) (hfits : Fits today)
    (hrecorded : Recorded storeId saleId actor request before db lines row)
    (hsame : SameSales db today) (hid : request.id = some saleId)
    (hterms : ∀ item ∈ request.items, ∀ productId, item.productId = some productId →
      ∃ was product, find storeId productId before = some was ∧
        find storeId productId today = some product ∧ SameTerms actor item was product)
    (h : SaleService.record now storeId actor request today = .ok (detail, db')) :
    (∀ d ∈ passed now storeId actor (.sale request) today, Fits d) ∧ Fits db' ↔
      ∀ item ∈ request.items, ∀ productId product, item.productId = some productId →
        find storeId productId today = some product →
          StockHeld now saleId request.items today productId product := by
  obtain ⟨method, lines', recorded, db₁, hmethod, hlines', hrecord, hrows⟩ :=
    repository_of_record hid h
  have hfound : today.sales.find? saleId = some row := by
    rw [hsame.sales, hrecorded.found]
  have hagain := resolvable_visible (resolveLines_eq_ok hlines').1
  obtain ⟨resolved, hresolved, hres⟩ := @resolveLines_visible storeId actor today request.items hagain
  cases hlines'.symm.trans hresolved
  rw [passed_eq hid hmethod hlines', Fits.of_sameRows hrows,
    saleStates_fit hfits hfound hrecorded.live hrecord]
  obtain ⟨hheader, hlinesFit⟩ := @sale_fits_again now storeId saleId actor request before db today
    lines row method hfirst hrecorded lines' hlines' hterms
  rw [and_iff_right hheader]
  refine (and_iff_right hlinesFit).trans ?_
  exact stocksFit_iff hfits hrecorded hsame hres fun item hitem id hp =>
    listed_of_resolvable (hagain item hitem) hp

/-- A voided sale is left as it is. -/
theorem fits_of_voided {existing : Sale} (hid : request.id = some saleId) (hfits : Fits db)
    (hfound : db.sales.find? saleId = some existing) (hgone : existing.deletedAt ≠ none)
    (h : SaleService.record now storeId actor request db = .ok (detail, db')) :
    (∀ d ∈ passed now storeId actor (.sale request) db, Fits d) ∧ Fits db' := by
  obtain ⟨method, lines, recorded, db₁, hmethod, hlines, hrecord, hrows⟩ :=
    repository_of_record hid h
  have hsale : db.sales.find? (prepareSale now storeId saleId method request lines).id =
      some existing := hfound
  have hvoided := Option.isSome_iff_ne_none.mpr hgone
  rw [passed_eq hid hmethod hlines, Fits.of_sameRows hrows]
  simp only [SaleRepository.record, hsale, hvoided, if_true] at hrecord
  split_ifs at hrecord with hstore
  cases hrecord
  refine ⟨?_, hfits⟩
  simp only [saleStates, hsale, hvoided, if_true]
  rw [if_neg hstore]
  exact fun d hd => (by cases hd)

end Columns

/-- The identical sale sent again leaves its figures as they were exactly when
its products are listed, and offer its lines what they did, its arithmetic on
today's catalogue stays in range, and the stocks it gives back and takes again
have room for that. -/
theorem sameHistory_record_iff {now : Timestamp} {storeId saleId : Uuid} {actor : Actor}
    {request : RecordSaleRequest} {before db : StoredDb} {detail : SaleDetail}
    (now' : Timestamp) (history : List (Timestamp × ProductChange))
    (hid : request.id = some saleId)
    (h : DecimalRange.record now storeId actor request before = some (.ok (detail, db))) :
    (∃ detail' db', DecimalRange.record now' storeId actor request (afterAll db history) =
        some (.ok (detail', db')) ∧
      SameHistory saleId request.items before.1 db.1 (afterAll db history).1 db'.1) ↔
    (∀ item ∈ request.items,
      TermsKept storeId saleId actor before.1 (afterAll db history).1 item) ∧
    SaleInRange storeId actor request (afterAll db history).1 ∧
    (¬ Voided saleId (afterAll db history).1 → ∀ item ∈ request.items, ∀ productId product,
      item.productId = some productId →
        find storeId productId (afterAll db history).1 = some product →
          StockHeld now' saleId request.items (afterAll db history).1 productId product) := by
  have hsame := sameSales_afterAll db history
  generalize afterAll db history = today at hsame ⊢
  obtain ⟨-, -, hfirst⟩ := DecimalRange.record_eq_ok.mp h
  have hiff := @sameHistory_service_iff now storeId saleId actor request before.1 db.1 detail now'
    today.1 hsame hid hfirst
  have hstocks : ∀ {detail' : SaleDetail} {db' : Db}, ¬ Voided saleId today.1 →
      (∀ item ∈ request.items, TermsKept storeId saleId actor before.1 today.1 item) →
      SaleService.record now' storeId actor request today.1 = .ok (detail', db') →
      ((∀ d ∈ passed now' storeId actor (.sale request) today.1, Fits d) ∧ Fits db' ↔
        ∀ item ∈ request.items, ∀ productId product, item.productId = some productId →
          find storeId productId today.1 = some product →
            StockHeld now' saleId request.items today.1 productId product) := by
    intro detail' db' hlive hterms h'
    rcases recorded_of_record hid hfirst with ⟨existing, hexisting, -, hgone, hleft⟩ |
      ⟨lines, row, hrecorded⟩
    · refine absurd ⟨existing, ?_, hgone⟩ hlive
      rw [(hleft.trans hsame).sales, hexisting]
    · refine fits_again_iff db.2 today.2 hrecorded hsame hid ?_ h'
      intro item hitem productId hp
      obtain ⟨was, product, hwas, hproduct, hkept⟩ := hterms item hitem productId hp
      exact ⟨was, product, hwas, hproduct, hkept hlive⟩
  constructor
  · rintro ⟨detail', db', h', hkept⟩
    obtain ⟨hrange, hpassed, hok⟩ := DecimalRange.record_eq_ok.mp h'
    have hterms := hiff.mp ⟨detail', db'.1, hok, hkept⟩
    exact ⟨hterms, hrange, fun hlive => (hstocks hlive hterms hok).mp ⟨hpassed, db'.2⟩⟩
  · rintro ⟨hterms, hrange, hheld⟩
    obtain ⟨detail', db', hok, hkept⟩ := hiff.mpr hterms
    have hfits : (∀ d ∈ passed now' storeId actor (.sale request) today.1, Fits d) ∧ Fits db' := by
      by_cases hlive : Voided saleId today.1
      · obtain ⟨sale, hsale, hgone⟩ := hlive
        exact fits_of_voided hid today.2 hsale hgone hok
      · exact (hstocks hlive hterms hok).mpr (hheld hlive)
    exact ⟨detail', ⟨db', hfits.2⟩, DecimalRange.record_eq_ok.mpr ⟨hrange, hfits.1, hok⟩, hkept⟩

/-- A cashier who may not see costs. -/
def cashier : Actor := ⟨⟨1⟩, "Ben", "till", some ⟨⟨6⟩, ⟨false, false, false, false⟩⟩⟩

/-- The store sells one product. -/
def stocked : StoredDb :=
  after DecimalRange.unused
    (0, .save ⟨4⟩ owner ⟨some ⟨10⟩, "Cola", none, "pcs", 10, 15, 24, 0⟩)

/-- A sale of one of it, at the price on the till. -/
def colaSale : RecordSaleRequest where
  id := some ⟨20⟩
  paymentMethod := none
  discountAmount := 0
  note := none
  occurredAt := none
  items := [⟨some ⟨30⟩, some ⟨10⟩, none, 1, some 15, some 0⟩]

/-- What recording it leaves. -/
def colaRecorded (now : Timestamp) (db : StoredDb) : Option (SaleDetail × StoredDb) :=
  (DecimalRange.record now ⟨4⟩ cashier colaSale db).bind Except.toOption

theorem colaRecorded_eq_some {now : Timestamp} {db : StoredDb} {r : SaleDetail × StoredDb} :
    colaRecorded now db = some r ↔
      DecimalRange.record now ⟨4⟩ cashier colaSale db = some (.ok r) := by
  rw [colaRecorded]
  constructor
  · intro h
    obtain ⟨result, hresult, hok⟩ := Option.bind_eq_some_iff.mp h
    cases result with
    | error e => cases hok
    | ok r' =>
      cases hok
      exact hresult
  · intro h
    rw [h]
    rfl

/-- A delivery of it at a unit cost. -/
def delivery (unitCost : ℚ) : Timestamp × ProductChange :=
  (2, .move ⟨4⟩ owner ⟨some ⟨40⟩, ⟨10⟩, "stock_in", 24, unitCost, none, none⟩)

/-- The first recording goes through. -/
theorem colaSale_recorded : ∃ r, colaRecorded 1 stocked = some r :=
  Option.isSome_iff_exists.mp (by decide +kernel)

theorem sameHistory_record_iff_cola : ∃ detail db,
    DecimalRange.record 1 ⟨4⟩ cashier colaSale stocked = some (.ok (detail, db)) ∧
      ∃ detail' db', DecimalRange.record 3 ⟨4⟩ cashier colaSale (afterAll db [delivery 0]) =
        some (.ok (detail', db')) ∧
        SameHistory ⟨20⟩ colaSale.items stocked.1 db.1 (afterAll db [delivery 0]).1 db'.1 := by
  obtain ⟨⟨detail, db⟩, h⟩ := colaSale_recorded
  refine ⟨detail, db, colaRecorded_eq_some.mp h,
    (sameHistory_record_iff 3 [delivery 0] rfl (colaRecorded_eq_some.mp h)).mpr ?_⟩
  -- the product before the sale, and after a delivery that names no cost
  let cola : Quantity → Timestamp → Product := fun stock updatedAt =>
    ⟨⟨4⟩, "Cola", none, "pcs", 10, 15, stock, 0, true, updatedAt, none⟩
  have hwas : find ⟨4⟩ ⟨10⟩ stocked.1 = some (cola 24 0) := by decide +kernel
  have htoday : ∀ r ∈ colaRecorded 1 stocked,
      find ⟨4⟩ ⟨10⟩ (afterAll r.2 [delivery 0]).1 = some (cola 47 2) ∧
      (joinedLine (afterAll r.2 [delivery 0]).1.joins 3 ⟨20⟩ ⟨10⟩
        (afterAll r.2 [delivery 0]).1.saleItems).map SaleItem.quantity = some 1 ∧
      InRange ⟨4⟩ cashier (afterAll r.2 [delivery 0]).1 (.sale colaSale) ∧
      RemainderInRange ⟨4⟩ cashier (afterAll r.2 [delivery 0]).1 (.sale colaSale) := by
    decide +kernel
  obtain ⟨hproduct, hjoined, hin, hrest⟩ := htoday _ h
  refine ⟨?_, ⟨hin, fun _ => hrest⟩, ?_⟩
  · intro item hitem productId hp
    obtain rfl := List.mem_singleton.mp hitem
    cases hp
    exact ⟨_, _, hwas, hproduct, fun _ => ⟨rfl, fun _ => rfl, fun _ => rfl⟩⟩
  · intro _ item hitem productId product hp hfind k
    obtain rfl := List.mem_singleton.mp hitem
    cases hp
    cases hproduct.symm.trans hfind
    -- the stock after giving back, and after the line
    rw [hjoined]
    cases k with
    | zero => decide +kernel
    | succ k =>
      rw [show colaSale.items.take (k + 1) = colaSale.items by simp [colaSale]]
      decide +kernel

/-- A delivery at another cost changes what a sale sent again had cost. -/
theorem delivery_rewrites_cost : ∃ detail db,
    DecimalRange.record 1 ⟨4⟩ cashier colaSale stocked = some (.ok (detail, db)) ∧
      ¬ ∃ detail' db', DecimalRange.record 3 ⟨4⟩ cashier colaSale (afterAll db [delivery 12]) =
        some (.ok (detail', db')) ∧
        SameHistory ⟨20⟩ colaSale.items stocked.1 db.1 (afterAll db [delivery 12]).1 db'.1 := by
  obtain ⟨⟨detail, db⟩, h⟩ := colaSale_recorded
  refine ⟨detail, db, colaRecorded_eq_some.mp h, ?_⟩
  rintro ⟨detail', db', h', hsame⟩
  have hcosts : ∀ r ∈ colaRecorded 1 stocked, ∀ r' ∈ colaRecorded 3 (afterAll r.2 [delivery 12]),
      (r.2.1.saleItems.find? ⟨30⟩).map SaleItem.unitCost = some 10 ∧
      (r'.2.1.saleItems.find? ⟨30⟩).map SaleItem.unitCost = some 12 := by
    decide +kernel
  obtain ⟨hthen, hnow⟩ := hcosts _ h _ (colaRecorded_eq_some.mpr h')
  have hline := congrArg (Option.map fun figures => figures.2.2.1) (hsame.lines 0 _ rfl)
  rw [Option.map_map, Option.map_map] at hline
  have hsameCost := hnow.symm.trans (Eq.trans hline hthen)
  exact absurd hsameCost (by decide +kernel)

end Kitaza.SaleHistory
