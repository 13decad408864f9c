import Mathlib.Tactic.Ring
import Mathlib.Algebra.BigOperators.Group.List.Basic
import Kitaza.SaleService

/-!
# What recording a sale does

The converse of the inversion lemmas: when the lines' identifiers are free
and their products known, the transaction goes through, and every table is
determined by the table before and the lines.
-/

namespace Kitaza.SaleEffects

open KeyedTable Primitives Access Schema Payloads SaleRepository SaleService

/-- Units of a product the lines sell. -/
def takenBy (lines : List PreparedLine) (productId : Uuid) : Quantity :=
  (lines.map fun l => if l.productId = some productId then l.quantity else 0).sum

/-- Some line names the product. -/
def Names (lines : List PreparedLine) (productId : Uuid) : Prop :=
  ∃ l ∈ lines, l.productId = some productId

instance (lines : List PreparedLine) (productId : Uuid) : Decidable (Names lines productId) :=
  inferInstanceAs (Decidable (∃ l ∈ lines, _))

theorem takenBy_eq_zero {lines : List PreparedLine} {productId : Uuid}
    (h : ¬Names lines productId) : takenBy lines productId = 0 := by
  apply List.sum_eq_zero
  intro q hq
  obtain ⟨l, hl, rfl⟩ := List.mem_map.mp hq
  rw [if_neg]
  exact fun hn => h ⟨l, hl, hn⟩

/-- A product after the lines took their stock. -/
def deducted (now : Timestamp) (storeId : Uuid) (lines : List PreparedLine) (id : Uuid)
    (p : Product) : Product :=
  if p.storeId = storeId ∧ Names lines id then
    { p with stockQuantity := p.stockQuantity - takenBy lines id, updatedAt := now }
  else p

theorem deducted_storeId (now : Timestamp) (storeId : Uuid) (lines : List PreparedLine) (id : Uuid)
    (p : Product) : (deducted now storeId lines id p).storeId = p.storeId := by
  unfold deducted
  split_ifs <;> rfl

theorem deducted_deletedAt (now : Timestamp) (storeId : Uuid) (lines : List PreparedLine)
    (id : Uuid) (p : Product) : (deducted now storeId lines id p).deletedAt = p.deletedAt := by
  unfold deducted
  split_ifs <;> rfl

theorem deducted_stockQuantity (now : Timestamp) {storeId : Uuid} (lines : List PreparedLine)
    (id : Uuid) {p : Product} (hs : p.storeId = storeId) :
    (deducted now storeId lines id p).stockQuantity = p.stockQuantity - takenBy lines id := by
  unfold deducted
  split_ifs with h
  · rfl
  · rw [takenBy_eq_zero fun hn => h ⟨hs, hn⟩, sub_zero]

/-- Taking some lines' stock and then others' takes that of all of them. -/
theorem deducted_append (now : Timestamp) (storeId : Uuid) (a b : List PreparedLine) (id : Uuid)
    (p : Product) :
    deducted now storeId b id (deducted now storeId a id p) =
      deducted now storeId (a ++ b) id p := by
  have hnames : Names (a ++ b) id ↔ Names a id ∨ Names b id := by
    simp only [Names, List.mem_append, or_and_right, exists_or]
  have htaken : takenBy (a ++ b) id = takenBy a id + takenBy b id := by
    rw [takenBy, List.map_append, List.sum_append]
    rfl
  by_cases ha : p.storeId = storeId ∧ Names a id
  · have hboth : deducted now storeId (a ++ b) id p = { p with
        stockQuantity := p.stockQuantity - (takenBy a id + takenBy b id)
        updatedAt := now } := by
      rw [deducted, if_pos ⟨ha.1, hnames.mpr (Or.inl ha.2)⟩, htaken]
    rw [hboth, deducted.eq_1 now storeId a, if_pos ha, deducted]
    split_ifs with hb
    · simp only [Product.mk.injEq, and_true, true_and]
      ring
    · rw [takenBy_eq_zero fun hn => hb ⟨ha.1, hn⟩, add_zero]
  · rw [deducted.eq_1 now storeId a, if_neg ha, deducted, deducted, htaken]
    simp only [hnames]
    by_cases hs : p.storeId = storeId
    · have hna : ¬Names a id := fun hn => ha ⟨hs, hn⟩
      simp only [hna, false_or, takenBy_eq_zero hna, zero_add]
    · rw [if_neg fun h => hs h.1, if_neg fun h => hs h.1]

theorem deducted_of_not_names (now : Timestamp) (storeId : Uuid) {lines : List PreparedLine}
    {id : Uuid} (h : ¬Names lines id) (p : Product) : deducted now storeId lines id p = p := by
  rw [deducted, if_neg fun hc => h hc.2]

/-- What writing the lines leaves; `i` counts the ledger identifiers drawn
before. -/
structure LinesWritten (now : Timestamp) (drawn : ℕ → Uuid) (sale : PreparedSale)
    (lines : List PreparedLine) (i : ℕ) (db db' : Db) : Prop where
  /-- The sales are as they were. -/
  sales : db'.sales = db.sales
  /-- The products gave the lines' stock. -/
  products : ∀ id, db'.products.find? id =
    (db.products.find? id).map (deducted now sale.storeId lines id)
  /-- The lines are stored. -/
  saleItems : ∀ k item, db'.saleItems.find? k = some item ↔
    (∃ l ∈ lines, l.id = k ∧ item = storedLine sale.id l) ∨ db.saleItems.find? k = some item
  /-- Each line with a product has a ledger row. -/
  stockMovements : ∀ k m, db'.stockMovements.find? k = some m ↔
    (∃ j l productId, lines[j]? = some l ∧ l.productId = some productId ∧ k = drawn (i + j) ∧
      m = saleMovement now sale l productId) ∨ db.stockMovements.find? k = some m
  /-- The expenses are as they were. -/
  expenses : db'.expenses = db.expenses
  /-- So are the withdrawals. -/
  ownerWithdrawals : db'.ownerWithdrawals = db.ownerWithdrawals
  /-- Nothing is logged. -/
  auditEvents : db'.auditEvents = db.auditEvents
  /-- The engine is the same. -/
  joins : db'.joins = db.joins

/-- The lines can be written: their identifiers are free and distinct, and
their products known. -/
structure Writable (lines : List PreparedLine) (db : Db) : Prop where
  /-- The identifiers are distinct. -/
  nodup : (lines.map PreparedLine.id).Nodup
  /-- They are free. -/
  free : ∀ l ∈ lines, db.saleItems.find? l.id = none
  /-- The products are known. -/
  known : ∀ l ∈ lines, ∀ id, l.productId = some id → (db.products.find? id).isSome

/-- Writing a line whose identifier is free and whose product is known. -/
theorem recordLine_ok {now : Timestamp} {movementId : Uuid} {sale : PreparedSale}
    {line : PreparedLine} {db : Db} (hfree : db.saleItems.find? line.id = none)
    (hknown : ∀ id, line.productId = some id → (db.products.find? id).isSome)
    (hmovement : db.stockMovements.find? movementId = none) :
    recordLine now movementId sale line db = .ok { db with
      products := db.products.mapRows (deducted now sale.storeId [line])
      saleItems := db.saleItems.put line.id (storedLine sale.id line)
      stockMovements := match line.productId with
        | some productId => db.stockMovements.put movementId (saleMovement now sale line productId)
        | none => db.stockMovements } := by
  have hitem : insertItem sale.id line db =
      .ok { db with saleItems := db.saleItems.put line.id (storedLine sale.id line) } := by
    rw [insertItem_eq_ok]
    exact ⟨hfree, fun id hid => Option.isSome_iff_exists.mp (hknown id hid), rfl⟩
  cases hp : line.productId with
  | none =>
    have hsame : db.products.mapRows (deducted now sale.storeId [line]) = db.products := by
      apply Table.mapRows_eq_self
      intro id p _
      apply deducted_of_not_names
      simp [Names, hp]
    simp only [recordLine, hitem, hp, hsame]
    rfl
  | some productId =>
    have hrow : ∀ id p, deducted now sale.storeId [line] id p =
        if id = productId ∧ p.storeId = sale.storeId then
          { p with stockQuantity := p.stockQuantity - line.quantity, updatedAt := now } else p := by
      intro id p
      have hnames : Names [line] id ↔ id = productId := by
        simp [Names, hp, eq_comm]
      rw [deducted]
      by_cases hid : id = productId
      · subst hid
        simp [hnames, takenBy, hp]
      · simp [hnames, hid]
    have hinsert : insertMovement movementId (saleMovement now sale line productId)
        (deductStock now sale.storeId productId line.quantity
          { db with saleItems := db.saleItems.put line.id (storedLine sale.id line) }) =
        .ok { deductStock now sale.storeId productId line.quantity
            { db with saleItems := db.saleItems.put line.id (storedLine sale.id line) } with
          stockMovements := db.stockMovements.put movementId
            (saleMovement now sale line productId) } := by
      rw [insertMovement_eq_ok]
      obtain ⟨p, hsome⟩ := Option.isSome_iff_exists.mp (hknown productId hp)
      refine ⟨hmovement, ?_, rfl⟩
      change ∃ q, Table.find? (Table.mapRows _ _) productId = some q
      rw [Table.find?_mapRows, hsome]
      exact ⟨_, rfl⟩
    simp only [recordLine, hitem, hp]
    change insertMovement _ _ _ = _
    rw [hinsert]
    simp only [deductStock]
    congr 3
    funext id p
    exact (hrow id p).symm

/-- Writing writable lines succeeds. -/
theorem recordLines_written {now : Timestamp} {drawn : ℕ → Uuid} {sale : PreparedSale}
    (hinj : Function.Injective drawn) {lines : List PreparedLine} {i : ℕ} {db : Db}
    (hw : Writable lines db) (hfree : ∀ j, i ≤ j → db.stockMovements.find? (drawn j) = none) :
    ∃ db', recordLines now drawn sale lines i db = .ok db' ∧
      LinesWritten now drawn sale lines i db db' := by
  induction lines generalizing i db with
  | nil =>
    refine ⟨db, rfl, rfl, fun id => ?_, by simp, by simp, rfl, rfl, rfl, rfl⟩
    cases db.products.find? id with
    | none => rfl
    | some p => simp [deducted, Names]
  | cons line rest ih =>
    obtain ⟨hhead, hrest⟩ := List.nodup_cons.mp hw.nodup
    have hline := @recordLine_ok now (drawn i) sale line db (hw.free line List.mem_cons_self)
      (hw.known line List.mem_cons_self) (hfree i le_rfl)
    set db₁ : Db := { db with
      products := db.products.mapRows (deducted now sale.storeId [line])
      saleItems := db.saleItems.put line.id (storedLine sale.id line)
      stockMovements := match line.productId with
        | some productId => db.stockMovements.put (drawn i) (saleMovement now sale line productId)
        | none => db.stockMovements } with hdb₁
    have hmoves : ∀ k m, db₁.stockMovements.find? k = some m ↔
        (∃ productId, line.productId = some productId ∧ k = drawn i ∧
          m = saleMovement now sale line productId) ∨ db.stockMovements.find? k = some m := by
      intro k m
      simp only [hdb₁]
      cases hp : line.productId with
      | none => simp
      | some productId =>
        rw [Table.find?_put]
        by_cases hk : k = drawn i
        · subst hk
          simp [hfree i le_rfl, eq_comm]
        · simp [hk]
    have hitems : ∀ k item, db₁.saleItems.find? k = some item ↔
        (line.id = k ∧ item = storedLine sale.id line) ∨ db.saleItems.find? k = some item := by
      intro k item
      simp only [hdb₁]
      rw [Table.find?_put]
      by_cases hk : k = line.id
      · subst hk
        simp [hw.free line List.mem_cons_self, eq_comm]
      · simp [hk, eq_comm]
    have hw₁ : Writable rest db₁ := by
      refine ⟨hrest, fun l hl => ?_, fun l hl id hid => ?_⟩
      · rw [Option.eq_none_iff_forall_ne_some]
        intro item hsome
        rcases (hitems l.id item).mp hsome with ⟨he, -⟩ | hold
        · exact hhead (he ▸ List.mem_map_of_mem hl)
        · rw [hw.free l (List.mem_cons_of_mem _ hl)] at hold
          cases hold
      · have hsome := hw.known l (List.mem_cons_of_mem _ hl) id hid
        simp only [hdb₁, Table.find?_mapRows, Option.isSome_map]
        exact hsome
    have hfree₁ : ∀ j, i + 1 ≤ j → db₁.stockMovements.find? (drawn j) = none := by
      intro j hj
      rw [Option.eq_none_iff_forall_ne_some]
      intro m hsome
      rcases (hmoves (drawn j) m).mp hsome with ⟨_, -, he, -⟩ | hold
      · have := hinj he
        omega
      · rw [hfree j (by omega)] at hold
        cases hold
    obtain ⟨db', hok, hwritten⟩ := ih hw₁ hfree₁
    refine ⟨db', by rw [recordLines, hline]; exact hok, hwritten.sales, fun id => ?_,
      fun k item => ?_, fun k m => ?_, hwritten.expenses, hwritten.ownerWithdrawals,
      hwritten.auditEvents, hwritten.joins⟩
    · rw [hwritten.products]
      simp only [hdb₁, Table.find?_mapRows, Option.map_map]
      congr 1
      funext p
      exact deducted_append now sale.storeId [line] rest id p
    · rw [hwritten.saleItems, hitems]
      simp only [List.mem_cons, exists_eq_or_imp, or_assoc]
      exact or_left_comm
    · rw [hwritten.stockMovements, hmoves, ← or_assoc]
      apply or_congr_left
      rw [or_comm]
      constructor
      · rintro (⟨productId, hp, hk, hm⟩ | ⟨j, l, productId, hj, hp, hk, hm⟩)
        · exact ⟨0, line, productId, rfl, hp, hk, hm⟩
        · exact ⟨j + 1, l, productId, hj, hp, by rwa [← Nat.add_assoc, Nat.add_right_comm], hm⟩
      · rintro ⟨j, l, productId, hj, hp, hk, hm⟩
        cases j with
        | zero =>
          cases hj
          exact Or.inl ⟨productId, hp, hk, hm⟩
        | succ j =>
          exact Or.inr ⟨j, l, productId, hj, hp, by rwa [Nat.add_right_comm], hm⟩

/-- The database a sale's lines are written to: its row is there, and its
old lines are gone. -/
def readied (now : Timestamp) (sale : PreparedSale) (staffId : Option Uuid) (db : Db) : Db :=
  deleteItems sale.id (upsertSale now sale staffId db)

/-- The lines can be written once the sale's old lines are gone. -/
theorem Writable.of_readied {sale : PreparedSale} {db : Db} (now : Timestamp)
    (staffId : Option Uuid) (hn : (sale.lines.map PreparedLine.id).Nodup)
    (hf : ∀ l ∈ sale.lines, ∀ item, db.saleItems.find? l.id = some item → item.saleId = sale.id)
    (hk : ∀ l ∈ sale.lines, ∀ id, l.productId = some id → (db.products.find? id).isSome) :
    Writable sale.lines (readied now sale staffId db) := by
  refine ⟨hn, fun l hl => ?_, hk⟩
  rw [Option.eq_none_iff_forall_ne_some]
  intro item hitem
  obtain ⟨hfound, hother⟩ := Table.find?_filter_eq_some.mp hitem
  rw [hf l hl item hfound, bne_self_eq_false] at hother
  cases hother

section

variable {now : Timestamp} {drawn : ℕ → Uuid} {sale : PreparedSale} {recorder : Recorder} {db : Db}

/-- Writing a sale whose lines can be written succeeds. -/
theorem writeSale_written (created : Bool) (hinj : Function.Injective drawn)
    (hw : Writable sale.lines (readied now sale recorder.staffId db))
    (hfree : ∀ j, db.stockMovements.find? (drawn j) = none) :
    ∃ stored db', writeSale now drawn sale recorder created db =
        .ok (⟨sale.id, stored, created⟩, db') ∧
      LinesWritten now drawn sale sale.lines 0 (readied now sale recorder.staffId db) db' := by
  obtain ⟨db', hok, hwritten⟩ := @recordLines_written now drawn sale hinj sale.lines 0 _ hw
    fun j _ => hfree j
  refine ⟨upsertedSale now sale recorder.staffId (db.sales.find? sale.id), db', ?_, hwritten⟩
  rw [writeSale]
  change (recordLines now drawn sale sale.lines 0 (readied now sale recorder.staffId db) >>= _) = _
  rw [hok]
  rfl

/-- Recording a sale the server does not know. -/
theorem record_new (hn : db.sales.find? sale.id = none) (hinj : Function.Injective drawn)
    (hw : Writable sale.lines (readied now sale recorder.staffId db))
    (hfree : ∀ j, db.stockMovements.find? (drawn j) = none) :
    ∃ stored db', SaleRepository.record now drawn sale recorder db =
        .ok (⟨sale.id, stored, true⟩, db') ∧
      LinesWritten now drawn sale sale.lines 0 (readied now sale recorder.staffId db) db' := by
  rw [SaleRepository.record, hn]
  exact writeSale_written true hinj hw hfree

/-- Recording a live sale again, by someone who may change it. -/
theorem record_again {existing : Sale} (he : db.sales.find? sale.id = some existing)
    (hstore : existing.storeId = sale.storeId) (hlive : existing.deletedAt = none)
    (hmay : recorder.isOwner = false → existing.recordedByStaffId = recorder.staffId)
    (hinj : Function.Injective drawn)
    (hw : Writable sale.lines
      (readied now sale recorder.staffId (undoSale now sale.id sale.storeId db)))
    (hfree : ∀ j, db.stockMovements.find? (drawn j) = none) :
    ∃ stored db', SaleRepository.record now drawn sale recorder db =
        .ok (⟨sale.id, stored, false⟩, db') ∧
      LinesWritten now drawn sale sale.lines 0
        (readied now sale recorder.staffId (undoSale now sale.id sale.storeId db)) db' := by
  simp only [SaleRepository.record, he]
  rw [if_neg (not_not.mpr hstore), if_neg (by simp [hlive]),
    if_neg (fun h => h.2 (hmay h.1))]
  apply writeSale_written false hinj hw
  intro j
  rw [undoSale_stockMovements, hfree j]
  rfl

end

/-- Lines that were written could be. -/
theorem writable_of_recordLines {now : Timestamp} {drawn : ℕ → Uuid} {sale : PreparedSale}
    {lines : List PreparedLine} {i : ℕ} {db db' : Db}
    (h : recordLines now drawn sale lines i db = .ok db') : Writable lines db := by
  induction lines generalizing i db with
  | nil => exact ⟨List.nodup_nil, fun l hl => (by cases hl), fun l hl => (by cases hl)⟩
  | cons line rest ih =>
    obtain ⟨db₁, hline, hrest⟩ := bind_eq_ok.mp h
    obtain ⟨hfree, hcases⟩ := recordLine_eq_ok hline
    have hw := ih hrest
    have hitems : db₁.saleItems = db.saleItems.put line.id (storedLine sale.id line) := by
      obtain ⟨-, rfl⟩ | ⟨productId, p, -, -, -, rfl⟩ := hcases <;> rfl
    have hids : ∀ l ∈ rest, l.id ≠ line.id := by
      intro l hl he
      have hnone := hw.free l hl
      rw [hitems, he, Table.find?_put_self] at hnone
      cases hnone
    refine ⟨?_, ?_, ?_⟩
    · rw [List.map_cons, List.nodup_cons]
      refine ⟨fun hmem => ?_, hw.nodup⟩
      obtain ⟨l, hl, he⟩ := List.mem_map.mp hmem
      exact hids l hl he
    · intro l hl
      rcases List.mem_cons.mp hl with rfl | hl
      · exact hfree
      · rw [← hw.free l hl, hitems, Table.find?_put_ne _ _ (hids l hl)]
    · intro l hl id hid
      rcases List.mem_cons.mp hl with rfl | hl
      · obtain ⟨hno, -⟩ | ⟨productId, p, hp, hfound, -, -⟩ := hcases
        · rw [hno] at hid
          cases hid
        · rw [hp] at hid
          cases hid
          rw [hfound]
          rfl
      · have hknown := hw.known l hl id hid
        obtain ⟨-, rfl⟩ | ⟨productId, p, -, -, -, rfl⟩ := hcases
        · exact hknown
        · have hsome : ((db.products.find? id).map _).isSome = true := hknown
          rwa [Option.isSome_map] at hsome

/-- What recording a sale did, by what the server knew of it. -/
inductive SaleRecorded (now : Timestamp) (drawn : ℕ → Uuid) (sale : PreparedSale)
    (recorder : Recorder) (db db' : Db) : Prop
  /-- It was voided, and nothing happened. -/
  | voided (existing : Sale) (stored : db.sales.find? sale.id = some existing)
      (own : existing.storeId = sale.storeId) (gone : existing.deletedAt ≠ none) (same : db' = db)
  /-- It was unknown. -/
  | new (unknown : db.sales.find? sale.id = none)
      (writable : Writable sale.lines (readied now sale recorder.staffId db))
      (written : LinesWritten now drawn sale sale.lines 0
        (readied now sale recorder.staffId db) db')
  /-- It was live, and its earlier effect is undone first. -/
  | again (existing : Sale) (stored : db.sales.find? sale.id = some existing)
      (own : existing.storeId = sale.storeId) (live : existing.deletedAt = none)
      (may : recorder.isOwner = false → existing.recordedByStaffId = recorder.staffId)
      (writable : Writable sale.lines
        (readied now sale recorder.staffId (undoSale now sale.id sale.storeId db)))
      (written : LinesWritten now drawn sale sale.lines 0
        (readied now sale recorder.staffId (undoSale now sale.id sale.storeId db)) db')

/-- Lines that were written did what writing lines does. -/
theorem written_of_writeSale {now : Timestamp} {drawn : ℕ → Uuid} {sale : PreparedSale}
    {recorder : Recorder} {created : Bool} {db db' : Db} {recorded : RecordedSale}
    (hinj : Function.Injective drawn) (hfree : ∀ j, db.stockMovements.find? (drawn j) = none)
    (h : writeSale now drawn sale recorder created db = .ok (recorded, db')) :
    Writable sale.lines (readied now sale recorder.staffId db) ∧
      LinesWritten now drawn sale sale.lines 0 (readied now sale recorder.staffId db) db' := by
  obtain ⟨db₁, hlines, hdone⟩ := bind_eq_ok.mp h
  have hw : Writable sale.lines (readied now sale recorder.staffId db) :=
    writable_of_recordLines hlines
  obtain ⟨stored, db₂, hok, hwritten⟩ := writeSale_written created hinj hw hfree
  rw [hok] at h
  cases h
  exact ⟨hw, hwritten⟩

/-- What a successful recording did. -/
theorem saleRecorded_of_ok {now : Timestamp} {drawn : ℕ → Uuid} {sale : PreparedSale}
    {recorder : Recorder} {db db' : Db} {recorded : RecordedSale}
    (hinj : Function.Injective drawn) (hfree : ∀ j, db.stockMovements.find? (drawn j) = none)
    (h : SaleRepository.record now drawn sale recorder db = .ok (recorded, db')) :
    SaleRecorded now drawn sale recorder db db' := by
  unfold SaleRepository.record at h
  cases hfind : db.sales.find? sale.id with
  | none =>
    rw [hfind] at h
    obtain ⟨hw, hwritten⟩ := written_of_writeSale hinj hfree h
    exact .new hfind hw hwritten
  | some existing =>
    rw [hfind] at h
    dsimp only at h
    split_ifs at h with hstore hgone hother
    · cases h
      exact .voided existing hfind (not_not.mp hstore) (Option.isSome_iff_ne_none.mp hgone) rfl
    · have hfree' : ∀ j, (undoSale now sale.id sale.storeId db).stockMovements.find? (drawn j) =
          none := by
        intro j
        rw [undoSale_stockMovements, hfree j]
        rfl
      obtain ⟨hw, hwritten⟩ := written_of_writeSale hinj hfree' h
      refine .again existing hfind (not_not.mp hstore) (by simpa using hgone) (fun hstaff => ?_)
        hw hwritten
      by_contra hne
      exact hother ⟨hstaff, hne⟩

/-- The repository says a sale is new when its row was. -/
theorem created_of_record {now : Timestamp} {drawn : ℕ → Uuid} {sale : PreparedSale}
    {recorder : Recorder} {db db' : Db} {recorded : RecordedSale}
    (h : SaleRepository.record now drawn sale recorder db = .ok (recorded, db')) :
    recorded.id = sale.id ∧ recorded.created = (db.sales.find? sale.id).isNone := by
  have hwrite : ∀ {created : Bool} {d : Db}, writeSale now drawn sale recorder created d =
      .ok (recorded, db') → recorded.id = sale.id ∧ recorded.created = created := by
    intro created d hw
    obtain ⟨_, _, hdone⟩ := bind_eq_ok.mp hw
    cases hdone
    exact ⟨rfl, rfl⟩
  unfold SaleRepository.record at h
  cases hfind : db.sales.find? sale.id with
  | none =>
    rw [hfind] at h
    exact hwrite h
  | some existing =>
    rw [hfind] at h
    dsimp only at h
    split_ifs at h
    · cases h
      exact ⟨rfl, rfl⟩
    · exact hwrite h

/-- A line as asked for and as resolved. -/
structure Resolves (item : SaleLineRequest) (line : PreparedLine) : Prop where
  /-- The product is the one asked for. -/
  productId : line.productId = item.productId
  /-- So is the quantity, rounded as stored. -/
  quantity : line.quantity = quantityFromF64 item.quantity
  /-- A given identifier is kept. -/
  id : ∀ id, item.id = some id → line.id = id

/-- A line that can be resolved: its product is listed, or it names its
price. -/
def Resolvable (storeId : Uuid) (db : Db) (item : SaleLineRequest) : Prop :=
  match item.productId with
  | some productId => (ProductService.find storeId productId db).isSome
  | none => item.unitPrice.isSome

/-- What a line is resolved to: its product's offer where the device sent
nothing, or a price of its own. -/
theorem resolveLine_iff {storeId lineId : Uuid} {item : SaleLineRequest} {db : Db}
    {line : PreparedLine} : resolveLine storeId lineId item db = .ok line ↔
      (∃ productId product, item.productId = some productId ∧
        ProductService.find storeId productId db = some product ∧
        line = preparedLine lineId item product.name
          ((item.unitPrice.map moneyFromF64).getD product.sellingPrice)
          ((item.unitCost.map moneyFromF64).getD product.costPrice)) ∨
      ∃ unitPrice, item.productId = none ∧ item.unitPrice = some unitPrice ∧
        line = preparedLine lineId item ((trimmed item.productName).getD QUICK_SALE_LABEL)
          (moneyFromF64 unitPrice) ((item.unitCost.map moneyFromF64).getD 0) := by
  unfold resolveLine
  cases hp : item.productId with
  | some productId =>
    cases hfind : ProductService.find storeId productId db with
    | none => simp [hfind]
    | some product => simp [hfind, eq_comm]
  | none =>
    cases hprice : item.unitPrice with
    | none => simp
    | some unitPrice => simp [eq_comm]

theorem resolveLine_ok {storeId lineId : Uuid} {db : Db} {item : SaleLineRequest}
    (h : Resolvable storeId db item) (hid : ∀ id, item.id = some id → lineId = id) :
    ∃ line, resolveLine storeId lineId item db = .ok line ∧ Resolves item line := by
  unfold Resolvable at h
  cases hp : item.productId with
  | some productId =>
    rw [hp] at h
    obtain ⟨product, hfind⟩ := Option.isSome_iff_exists.mp h
    exact ⟨_, resolveLine_iff.mpr (Or.inl ⟨productId, product, hp, hfind, rfl⟩), rfl, rfl, hid⟩
  | none =>
    rw [hp] at h
    obtain ⟨unitPrice, hprice⟩ := Option.isSome_iff_exists.mp h
    exact ⟨_, resolveLine_iff.mpr (Or.inr ⟨unitPrice, hp, hprice, rfl⟩), rfl, rfl, hid⟩

/-- Lines that can be resolved are. -/
theorem resolveLines_ok {storeId : Uuid} {db : Db} {items : List SaleLineRequest} {i : ℕ}
    (h : ∀ item ∈ items, Resolvable storeId db item) :
    ∃ lines, resolveLines storeId db items i = .ok lines ∧ List.Forall₂ Resolves items lines := by
  induction items generalizing i with
  | nil => exact ⟨[], rfl, List.Forall₂.nil⟩
  | cons item rest ih =>
    obtain ⟨line, hline, hres⟩ := @resolveLine_ok storeId
      (item.id.getD (Uuid.newV4 db.saleItems i)) db item (h item List.mem_cons_self)
      (fun id hid => by rw [hid, Option.getD_some])
    obtain ⟨lines, hlines, hrest⟩ := @ih (i + 1) fun it hit => h it (List.mem_cons_of_mem _ hit)
    refine ⟨line :: lines, ?_, List.Forall₂.cons hres hrest⟩
    rw [resolveLines, hline]
    change (resolveLines storeId db rest (i + 1) >>= _) = _
    rw [hlines]
    rfl

/-- Dropping cost figures changes nothing about what is resolved. -/
theorem resolveLines_visible {storeId : Uuid} {actor : Actor} {db : Db}
    {items : List SaleLineRequest} (h : ∀ item ∈ items, Resolvable storeId db item) :
    ∃ lines, resolveLines storeId db (visibleItems actor items) 0 = .ok lines ∧
      List.Forall₂ Resolves items lines := by
  unfold visibleItems
  split_ifs with hcan
  · exact resolveLines_ok h
  · obtain ⟨lines, hok, hres⟩ := @resolveLines_ok storeId db
      (items.map fun item => { item with unitCost := none }) 0 (by
        intro item hitem
        obtain ⟨it, hit, rfl⟩ := List.mem_map.mp hitem
        exact h it hit)
    refine ⟨lines, hok, ?_⟩
    rw [List.forall₂_map_left_iff] at hres
    exact hres.imp fun _ _ hr => ⟨hr.productId, hr.quantity, hr.id⟩

/-- Units of a product a list of lines asks for. -/
def soldIn (items : List SaleLineRequest) (productId : Uuid) : Quantity :=
  (items.map fun item =>
    if item.productId = some productId then quantityFromF64 item.quantity else 0).sum

/-- The resolved lines take what was asked for. -/
theorem takenBy_of_resolves {items : List SaleLineRequest} {lines : List PreparedLine}
    (h : List.Forall₂ Resolves items lines) (productId : Uuid) :
    takenBy lines productId = soldIn items productId := by
  induction h with
  | nil => rfl
  | @cons item line items lines hres _ ih =>
    unfold takenBy soldIn at ih ⊢
    rw [List.map_cons, List.map_cons, List.sum_cons, List.sum_cons, ih, hres.productId,
      hres.quantity]

/-- What a service call that resolves and records leaves. -/
theorem service_record_ok {now : Timestamp} {storeId : Uuid} {actor : Actor}
    {request : RecordSaleRequest} {db db₁ : Db} {method : String} {saleId : Uuid}
    {lines : List PreparedLine} {recorded : RecordedSale}
    (hmethod : normalisePaymentMethod request.paymentMethod = .ok method)
    (hid : request.id = some saleId)
    (hlines : resolveLines storeId db (visibleItems actor request.items) 0 = .ok lines)
    (hrecord : SaleRepository.record now (Uuid.newV4 db.stockMovements)
      (prepareSale now storeId saleId method request lines) (recorderOf actor) db =
        .ok (recorded, db₁)) :
    SaleService.record now storeId actor request db =
      let detail : SaleDetail := ⟨recorded.id, recorded.sale, linesFor recorded.id db₁⟩
      .ok (detail, { db₁ with auditEvents :=
        if recorded.created then (recordAudit now actor
          (saleRecordedEntry storeId (request.occurredAt.getD now) detail) db₁).auditEvents
        else db₁.auditEvents }) := by
  simp only [SaleService.record, hmethod, hid, Option.getD_some, hlines]
  change (Except.bind (SaleRepository.record _ _ _ _ _) _) = _
  rw [hrecord]
  change Except.ok (_, _) = _
  cases recorded.created <;> rfl

end Kitaza.SaleEffects
