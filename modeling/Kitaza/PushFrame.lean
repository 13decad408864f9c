import Kitaza.Catalogue
import Kitaza.SaleAcceptance
import Kitaza.StockLedger

/-!
# What a push by a staff member leaves alone

Withdrawals, the rows of other stores, and what somebody else recorded stay
as they are; products and expenses are written with their permissions only.
The one leak is the note by which the ledger rows of a sale are found: a
stock movement with the note of a sale is retired together with the sale.
-/

namespace Kitaza.PushFrame

open KeyedTable KeyedTable.Table Primitives Access Schema Payloads ProductService SaleRepository
  SaleService SaleEffects InventoryService SyncPush RowEffects Catalogue SaleAcceptance StockLedger

/-- Whether a push removes a record with permission. -/
def Deletes (actor : Actor) (request : PushRequest) (entity : String) (id : Uuid) : Prop :=
  actor.can .deleteRecords = true ∧
    ∃ deletion ∈ request.deletions, deletion.entity = entity ∧ deletion.id = id

section

variable (now : Timestamp) (storeId : Uuid) (actor : Actor) (deletes : String → Uuid → Prop)

/-- Whether somebody else recorded a sale, and it is not removed. -/
def SomebodyElses (db : Db) (saleId : Uuid) : Prop :=
  ∃ s, db.sales.find? saleId = some s ∧ s.recordedByStaffId ≠ actor.staffId ∧
    ¬deletes "sale" saleId

/-- Whether a sale is another store's. -/
def OtherStores (db : Db) (saleId : Uuid) : Prop :=
  ∃ s, db.sales.find? saleId = some s ∧ s.storeId ≠ storeId

/-- What every staff member's push leaves alone. -/
structure Frame (db db' : Db) : Prop where
  /-- Withdrawals never change. -/
  withdrawals : db'.ownerWithdrawals = db.ownerWithdrawals
  /-- Nor do the sales somebody else recorded, -/
  sales : Kept (fun id s => s.recordedByStaffId ≠ actor.staffId ∧ ¬deletes "sale" id) db.sales
    db'.sales
  /-- their lines, -/
  lines : Kept (fun _ item => SomebodyElses actor deletes db item.saleId) db.saleItems db'.saleItems
  /-- and their live ledger rows. -/
  movements : Kept (fun _ m => m.movement = .sale ∧ m.deletedAt = none ∧
    ∃ id, m.note = some (saleNote id) ∧ SomebodyElses actor deletes db id)
    db.stockMovements db'.stockMovements
  /-- Nor do the expenses somebody else recorded. -/
  expenses : Kept (fun id e => e.recordedByStaffId ≠ actor.staffId ∧ ¬deletes "expense" id)
    db.expenses db'.expenses
  /-- The catalogue is written with its permission only. -/
  catalogue : actor.can .manageProducts = false → catalogue db' = catalogue db
  /-- Expenses are recorded with their permission only. -/
  recorded : actor.can .recordExpenses = false → ∀ id,
    db'.expenses.find? id = db.expenses.find? id ∨
      deletes "expense" id ∧ db'.expenses.find? id =
        (db.expenses.find? id).map fun e => { e with deletedAt := some now, updatedAt := now }
  /-- Products of other stores stay as they are, -/
  otherProducts : Kept (fun _ p => p.storeId ≠ storeId) db.products db'.products
  /-- and their sales, -/
  otherSales : Kept (fun _ s => s.storeId ≠ storeId) db.sales db'.sales
  /-- with the lines, -/
  otherLines : Kept (fun _ item => OtherStores storeId db item.saleId) db.saleItems db'.saleItems
  /-- their ledger, -/
  otherMovements : Kept (fun _ m => m.storeId ≠ storeId) db.stockMovements db'.stockMovements
  /-- and their expenses. -/
  otherExpenses : Kept (fun _ e => e.storeId ≠ storeId) db.expenses db'.expenses

end

section

variable {now : Timestamp} {storeId : Uuid} {actor : Actor} {deletes : String → Uuid → Prop}

theorem Frame.refl (db : Db) : Frame now storeId actor deletes db db where
  withdrawals := rfl
  sales := Kept.refl _ _
  lines := Kept.refl _ _
  movements := Kept.refl _ _
  expenses := Kept.refl _ _
  catalogue _ := rfl
  recorded _ _ := Or.inl rfl
  otherProducts := Kept.refl _ _
  otherSales := Kept.refl _ _
  otherLines := Kept.refl _ _
  otherMovements := Kept.refl _ _
  otherExpenses := Kept.refl _ _

theorem Frame.somebodyElses {db db' : Db} (h : Frame now storeId actor deletes db db') {saleId : Uuid}
    (hs : SomebodyElses actor deletes db saleId) : SomebodyElses actor deletes db' saleId := by
  obtain ⟨s, hfound, hother, hstays⟩ := hs
  exact ⟨s, (h.sales saleId s ⟨hother, hstays⟩).mpr hfound, hother, hstays⟩

theorem Frame.otherStores {db db' : Db} (h : Frame now storeId actor deletes db db') {saleId : Uuid}
    (hs : OtherStores storeId db saleId) : OtherStores storeId db' saleId := by
  obtain ⟨s, hfound, hother⟩ := hs
  exact ⟨s, (h.otherSales saleId s hother).mpr hfound, hother⟩

/-- What two writes in a row leave alone. -/
theorem Frame.trans {a b c : Db} (hab : Frame now storeId actor deletes a b)
    (hbc : Frame now storeId actor deletes b c) : Frame now storeId actor deletes a c where
  withdrawals := hbc.withdrawals.trans hab.withdrawals
  sales := hab.sales.trans hbc.sales fun _ _ h => h
  lines := hab.lines.trans hbc.lines fun _ _ h => hab.somebodyElses h
  movements := hab.movements.trans hbc.movements fun _ _ ⟨hsale, hlive, id, hnote, h⟩ =>
    ⟨hsale, hlive, id, hnote, hab.somebodyElses h⟩
  expenses := hab.expenses.trans hbc.expenses fun _ _ h => h
  catalogue hcan := (hbc.catalogue hcan).trans (hab.catalogue hcan)
  recorded hcan id := by
    rcases hbc.recorded hcan id with h | ⟨hd, h⟩
    · rw [h]
      exact hab.recorded hcan id
    · refine Or.inr ⟨hd, ?_⟩
      rcases hab.recorded hcan id with h' | ⟨-, h'⟩
      · rw [h, h']
      · rw [h, h', Option.map_map]
        rfl
  otherProducts := hab.otherProducts.trans hbc.otherProducts fun _ _ h => h
  otherSales := hab.otherSales.trans hbc.otherSales fun _ _ h => h
  otherLines := hab.otherLines.trans hbc.otherLines fun _ _ h => hab.otherStores h
  otherMovements := hab.otherMovements.trans hbc.otherMovements fun _ _ h => h
  otherExpenses := hab.otherExpenses.trans hbc.otherExpenses fun _ _ h => h

/-- The log is none of this. -/
theorem Frame.sameRows {db db₁ db' : Db} (h : Frame now storeId actor deletes db db₁)
    (hsame : SameRows db₁ db') : Frame now storeId actor deletes db db' := by
  rw [hsame]
  exact { h with }

/-- Undoing a sale that is the sender's own, or removed by the push, moves
stock and retires ledger rows of that sale alone. -/
theorem Frame.undo {saleId : Uuid} {db : Db} (hmine : ¬SomebodyElses actor deletes db saleId) :
    Frame now storeId actor deletes db (undoSale now saleId storeId db) where
  withdrawals := rfl
  sales := Kept.refl _ _
  lines := Kept.refl _ _
  movements := by
    refine Kept.mapRows fun k m _ hp => retired_of_not fun hret => ?_
    rcases hp with ⟨-, -, id, hnote, hid⟩ | ⟨-, hlive, -⟩
    · rw [hret.2.1] at hnote
      rw [saleNote_injective (Option.some.inj hnote)] at hmine
      exact hmine hid
    · rw [retired_deletedAt hret] at hlive
      cases hlive
  expenses := Kept.refl _ _
  catalogue _ := catalogue_undoSale db
  recorded _ _ := Or.inl rfl
  otherProducts := by
    refine Kept.mapRows fun id p _ hp => ?_
    have hother : p.storeId ≠ storeId := by
      rcases hp with hp | hp
      · exact hp
      · rwa [restored_storeId] at hp
    unfold restored
    cases joinedLine db.joins now saleId id db.saleItems with
    | none => rfl
    | some item =>
      dsimp only
      rw [if_neg hother]
  otherSales := Kept.refl _ _
  otherLines := Kept.refl _ _
  otherMovements := by
    refine Kept.mapRows fun k m _ hp => retired_of_not fun hret => ?_
    rcases hp with hp | hp
    · exact hp hret.1
    · rw [retired_storeId] at hp
      exact hp hret.1
  otherExpenses := Kept.refl _ _

/-- Writing the row of a sale that is new or the sender's own, and deleting
its lines. -/
theorem Frame.readied {sale : PreparedSale} {db : Db} (hstore : sale.storeId = storeId)
    (hmine : ∀ s, db.sales.find? sale.id = some s →
      s.recordedByStaffId = actor.staffId ∧ s.storeId = storeId) :
    Frame now storeId actor deletes db (readied now sale (recorderOf actor).staffId db) where
  withdrawals := rfl
  sales := by
    refine Kept.put (fun hp => hp.1 ?_) fun s hs hp => hp.1 (hmine s hs).1
    cases hs : db.sales.find? sale.id with
    | none => rfl
    | some s => exact (hmine s hs).1
  lines := by
    refine Kept.filter fun k item ⟨s, hs, hother, _⟩ => bne_iff_ne.mpr fun hid => ?_
    rw [hid] at hs
    exact hother (hmine s hs).1
  movements := Kept.refl _ _
  expenses := Kept.refl _ _
  catalogue _ := rfl
  recorded _ _ := Or.inl rfl
  otherProducts := Kept.refl _ _
  otherSales := by
    refine Kept.put (fun hp => hp ?_) fun s hs hp => hp (hmine s hs).2
    cases hs : db.sales.find? sale.id with
    | none => exact hstore
    | some s => exact (hmine s hs).2
  otherLines := by
    refine Kept.filter fun k item ⟨s, hs, hother⟩ => bne_iff_ne.mpr fun hid => ?_
    rw [hid] at hs
    exact hother (hmine s hs).2
  otherMovements := Kept.refl _ _
  otherExpenses := Kept.refl _ _

/-- Writing the lines of a sale of the sender's. -/
theorem Frame.written {drawn : ℕ → Uuid} {sale : PreparedSale} {lines : List PreparedLine} {i : ℕ}
    {db db' : Db} (hstore : sale.storeId = storeId)
    (hmine : ∃ s, db.sales.find? sale.id = some s ∧ s.recordedByStaffId = actor.staffId ∧
      s.storeId = storeId) (h : LinesWritten now drawn sale lines i db db') :
    Frame now storeId actor deletes db db' := by
  obtain ⟨own, hown, hby, hof⟩ := hmine
  have hnot : ¬SomebodyElses actor deletes db sale.id := by
    rintro ⟨s, hs, hother, -⟩
    rw [hown] at hs
    cases hs
    exact hother hby
  have hnotOther : ¬OtherStores storeId db sale.id := by
    rintro ⟨s, hs, hother⟩
    rw [hown] at hs
    cases hs
    exact hother hof
  refine ⟨h.ownerWithdrawals, Kept.of_eq h.sales, ?_, ?_, Kept.of_eq h.expenses,
    fun _ => catalogue_written h, fun _ _ => Or.inl (by rw [h.expenses]), ?_, Kept.of_eq h.sales,
    ?_, ?_, Kept.of_eq h.expenses⟩
  · intro k item hp
    rw [h.saleItems]
    refine or_iff_right ?_
    rintro ⟨l, -, -, rfl⟩
    exact hnot hp
  · rintro k m ⟨-, -, id, hnote, hid⟩
    rw [h.stockMovements]
    refine or_iff_right ?_
    rintro ⟨j, l, productId, -, -, -, rfl⟩
    rw [← saleNote_injective (Option.some.inj hnote)] at hid
    exact hnot hid
  · intro id p hp
    rw [h.products]
    have hrow : ∀ q : Product, q.storeId ≠ storeId →
        deducted now sale.storeId lines id q = q := fun q hq => by
      rw [deducted, if_neg fun hc => hq (hc.1.trans hstore)]
    constructor
    · intro hr
      obtain ⟨q, hq, rfl⟩ := Option.map_eq_some_iff.mp hr
      rw [deducted_storeId] at hp
      rwa [hrow q hp]
    · intro hr
      rw [hr, Option.map_some, hrow p hp]
  · intro k item hp
    rw [h.saleItems]
    refine or_iff_right ?_
    rintro ⟨l, -, -, rfl⟩
    exact hnotOther hp
  · intro k m hp
    rw [h.stockMovements]
    refine or_iff_right ?_
    rintro ⟨j, l, productId, -, -, -, rfl⟩
    exact hp hstore

/-- Recording a sale. -/
theorem Frame.recording (hstaff : actor.isOwner = false) {drawn : ℕ → Uuid} {sale : PreparedSale}
    {db db' : Db} (hstore : sale.storeId = storeId)
    (h : SaleRecorded now drawn sale (recorderOf actor) db db') :
    Frame now storeId actor deletes db db' := by
  have hrow : ∀ (base : Db), (∀ s, base.sales.find? sale.id = some s →
      s.recordedByStaffId = actor.staffId ∧ s.storeId = storeId) →
      ∃ s, (SaleEffects.readied now sale (recorderOf actor).staffId base).sales.find? sale.id =
        some s ∧ s.recordedByStaffId = actor.staffId ∧ s.storeId = storeId := by
    intro base hmine
    refine ⟨_, Table.find?_put_self _ _ _, ?_⟩
    cases hs : base.sales.find? sale.id with
    | none => exact ⟨rfl, hstore⟩
    | some s => exact hmine s hs
  cases h with
  | voided existing stored own gone same =>
    rw [same]
    exact Frame.refl db
  | new unknown writable written =>
    have hmine : ∀ s, db.sales.find? sale.id = some s →
        s.recordedByStaffId = actor.staffId ∧ s.storeId = storeId := by
      intro s hs
      rw [unknown] at hs
      cases hs
    exact (Frame.readied hstore hmine).trans (Frame.written hstore (hrow db hmine) written)
  | again existing stored own live may writable written =>
    have hmine : ∀ s, db.sales.find? sale.id = some s →
        s.recordedByStaffId = actor.staffId ∧ s.storeId = storeId := by
      intro s hs
      rw [stored] at hs
      cases hs
      exact ⟨may hstaff, own.trans hstore⟩
    have hnot : ¬SomebodyElses actor deletes db sale.id := by
      rintro ⟨s, hs, hother, -⟩
      exact hother (hmine s hs).1
    rw [hstore] at writable written
    exact ((Frame.undo hnot).trans (Frame.readied hstore hmine)).trans
      (Frame.written hstore (hrow (undoSale now sale.id storeId db) hmine) written)

/-- Writing a product of the store, by somebody who may. -/
theorem Frame.product {db : Db} {id : Uuid} {row : Product}
    (may : actor.can .manageProducts = true) (hrow : row.storeId = storeId)
    (hold : ∀ p, db.products.find? id = some p → p.storeId = storeId) :
    Frame now storeId actor deletes db { db with products := db.products.put id row } :=
  { Frame.refl db with
    catalogue := fun hno => by
      rw [may] at hno
      cases hno
    otherProducts := Kept.put (fun hp => hp hrow) fun p hp hother => hother (hold p hp) }

/-- Writing a ledger row of the store that is no sale's. -/
theorem Frame.movement {db : Db} {id : Uuid} {m : StockMovement} (hstore : m.storeId = storeId)
    (hkind : m.movement ≠ .sale) (hnew : db.stockMovements.find? id = none) :
    Frame now storeId actor deletes db
      { db with stockMovements := db.stockMovements.put id m } :=
  { Frame.refl db with
    movements := Kept.put (fun hp => hkind hp.1) fun r hr => by
      rw [hnew] at hr
      cases hr
    otherMovements := Kept.put (fun hp => hp hstore) fun r hr => by
      rw [hnew] at hr
      cases hr }

/-- Writing an expense of the sender's, by somebody who may. -/
theorem Frame.expense (hstaff : actor.isOwner = false) {db : Db} {id : Uuid}
    {values : ExpenseService.ExpenseValues} {row : Expense}
    (may : actor.can .recordExpenses = true)
    (hrow : ExpenseService.upsertRow now storeId values actor (db.expenses.find? id) = some row) :
    Frame now storeId actor deletes db { db with expenses := db.expenses.put id row } := by
  have hmine : row.recordedByStaffId = actor.staffId ∧ row.storeId = storeId ∧
      ∀ e, db.expenses.find? id = some e →
        e.recordedByStaffId = actor.staffId ∧ e.storeId = storeId := by
    cases he : db.expenses.find? id with
    | none =>
      rw [he] at hrow
      cases hrow
      exact ⟨rfl, rfl, fun e h => by cases h⟩
    | some e =>
      rw [he, ExpenseService.upsertRow] at hrow
      split_ifs at hrow with hmay
      cases hrow
      have hby : e.recordedByStaffId = actor.staffId := by
        have hsql := hmay.2
        rw [hstaff, Bool.false_or, sqlEq, Bool.and_eq_true] at hsql
        exact beq_iff_eq.mp hsql.2
      exact ⟨hby, hmay.1, fun e' h => by cases h; exact ⟨hby, hmay.1⟩⟩
  exact { (Frame.refl db : Frame now storeId actor deletes db db) with
    expenses := Kept.put (fun hp => hp.1 hmine.1) fun e he hp => hp.1 (hmine.2.2 e he).1
    recorded := fun hno => by
      rw [may] at hno
      cases hno
    otherExpenses := Kept.put (fun hp => hp hmine.2.1) fun e he hp => hp (hmine.2.2 e he).2 }

/-- Removing an expense the push may remove. -/
theorem Frame.unspent {db : Db} {id : Uuid} {e : Expense} (hd : deletes "expense" id)
    (hlive : ExpenseService.findLive storeId id db = some e) :
    Frame now storeId actor deletes db { db with
      expenses := db.expenses.put id { e with deletedAt := some now, updatedAt := now } } := by
  have hfound : db.expenses.find? id = some e ∧ e.storeId = storeId := by
    simp only [ExpenseService.findLive, Option.filter_eq_some_iff, Bool.and_eq_true,
      beq_iff_eq] at hlive
    exact ⟨hlive.1, hlive.2.1⟩
  exact { (Frame.refl db : Frame now storeId actor deletes db db) with
    expenses := Kept.put (fun hp => hp.2 hd) fun _ _ hp => hp.2 hd
    recorded := fun _ other => by
      by_cases hid : other = id
      · rw [hid, hfound.1]
        exact Or.inr ⟨hd, Table.find?_put_self _ _ _⟩
      · exact Or.inl (Table.find?_put_ne _ _ hid)
    otherExpenses := Kept.put (fun hp => hp hfound.2) fun e' he' hp => by
      rw [hfound.1] at he'
      cases he'
      exact hp hfound.2 }

/-- Voiding a sale the push may remove. -/
theorem Frame.voided {db : Db} {id : Uuid} {sale : Sale} (hd : deletes "sale" id)
    (hlive : findLive storeId id db = some sale) :
    Frame now storeId actor deletes db
      (undoSale now id storeId (markVoided now id sale db)) := by
  obtain ⟨hfound, hown, -⟩ := findLive_eq_some.mp hlive
  have hmark : Frame now storeId actor deletes db (markVoided now id sale db) :=
    { Frame.refl db with
      sales := Kept.put (fun hp => hp.2 hd) fun _ _ hp => hp.2 hd
      otherSales := Kept.put (fun hp => hp hown) fun s hs hp => by
        rw [hfound] at hs
        cases hs
        exact hp hown }
  exact hmark.trans (Frame.undo fun ⟨_, _, _, hstays⟩ => hstays hd)

/-- What an applied row of a staff member leaves alone. -/
theorem Frame.effect (hstaff : actor.isOwner = false) {row : PushRow} {db db' : Db}
    (hdel : ∀ deletion, row = .deletion deletion → actor.can .deleteRecords = true →
      deletes deletion.entity deletion.id)
    (h : RowEffect now storeId actor db row db') : Frame now storeId actor deletes db db' := by
  cases h with
  | saved may priced upserted coded effect =>
    have hup := upsertRow_eq_some upserted
    exact (Frame.product may hup.ofStore hup.own).sameRows effect
  | sold asked recorded effect =>
    exact (Frame.recording hstaff asked.ofStore recorded).sameRows effect
  | movedBefore may => exact Frame.refl db
  | @moved request entry p db' may ofStore product cost kind listed unknown effect =>
    obtain ⟨hfound, hown, -⟩ := find_eq_some.mp listed
    refine Frame.sameRows ?_ effect
    have hledger : Frame now storeId actor deletes db { db with
        stockMovements := db.stockMovements.put entry.movementId
          (ledgerRow now entry (entry.effect.delta p.stockQuantity)) } :=
      Frame.movement ofStore kind unknown
    exact hledger.trans (Frame.product may hown fun q hq => by
      have hsame : some p = some q := hfound.symm.trans hq
      cases hsame
      exact hown)
  | spent may named category upserted effect =>
    exact (Frame.expense hstaff may upserted).sameRows effect
  | withdrawn may named upserted effect =>
    rw [hstaff] at may
    cases may
  | nothing => exact Frame.refl db
  | voided entity may live effect =>
    exact (Frame.voided (entity ▸ hdel _ rfl may) live).sameRows effect
  | unspent entity may live effect =>
    exact (Frame.unspent (entity ▸ hdel _ rfl may) live).sameRows effect
  | unwithdrawn entity may live effect =>
    rw [hstaff] at may
    cases may
  | unlisted entity may live effect =>
    obtain ⟨hfound, hown, -⟩ := find_eq_some.mp live
    refine (Frame.product may ?_ fun q hq => ?_).sameRows effect
    · exact hown
    · rw [hfound] at hq
      cases hq
      exact hown

/-- What rows of a staff member leave alone. -/
theorem Frame.pushRows (hstaff : actor.isOwner = false) {rows : List PushRow}
    (hdel : ∀ deletion, PushRow.deletion deletion ∈ rows → actor.can .deleteRecords = true →
      deletes deletion.entity deletion.id) (s : PushState) :
    Frame now storeId actor deletes s.2 (pushRows now storeId actor s rows).2 := by
  induction rows generalizing s with
  | nil => exact Frame.refl s.2
  | cons row rest ih =>
    have hrow : Frame now storeId actor deletes s.2 (pushRow now storeId actor s row).2 := by
      cases hok : row.apply now storeId actor s.2 with
      | error e =>
        rw [pushRow_of_error s hok]
        exact Frame.refl s.2
      | ok result =>
        obtain ⟨rowId, db'⟩ := result
        rw [pushRow_of_ok s hok]
        refine Frame.effect hstaff (fun deletion hd => hdel deletion ?_) (effect_of_apply hok)
        rw [hd]
        exact List.mem_cons_self
    exact hrow.trans (ih (fun deletion hmem => hdel deletion (List.mem_cons_of_mem _ hmem))
      (pushRow now storeId actor s row))

end

/-- Whether the ledger rows that are no sale's are as they were. -/
def LedgerKept (db db' : Db) : Prop :=
  Kept (fun _ m => m.movement ≠ .sale) db.stockMovements db'.stockMovements

/-- Whether a row of a staff member undoes a live sale: it records their own
sale again and is in order, or it voids the sale with permission. -/
def Undoes (storeId : Uuid) (actor : Actor) (saleId : Uuid) (db : Db) : PushRow → Prop
  | .sale request => request.id = some saleId ∧
      (∃ s, db.sales.find? saleId = some s ∧ s.storeId = storeId ∧ s.deletedAt = none ∧
        s.recordedByStaffId = actor.staffId) ∧ Acceptable storeId request saleId db
  | .deletion request => request.entity = "sale" ∧ request.id = saleId ∧
      actor.can .deleteRecords = true ∧ (findLive storeId saleId db).isSome = true
  | _ => False

/-- Whether a row names a sale, to record or void it. -/
def NamesSale (saleId : Uuid) : PushRow → Prop
  | .sale request => request.id = some saleId
  | .deletion request => request.entity = "sale" ∧ request.id = saleId
  | _ => False

section Ledger

variable {now : Timestamp} {storeId : Uuid} {actor : Actor} {db db' : Db}

theorem retired_movement (saleId : Uuid) (m : StockMovement) :
    (retired now saleId storeId m).movement = m.movement := by
  unfold retired
  split_ifs <;> rfl

/-- Undoing a sale nobody imitates touches rows of sales alone. -/
theorem LedgerKept.undo {saleId : Uuid} (h : ¬ImitatesSale saleId storeId db) :
    LedgerKept db (undoSale now saleId storeId db) := by
  refine Kept.mapRows fun k m hm hp => retired_of_not fun hret => ?_
  rw [retired_movement, or_self] at hp
  exact h ⟨k, m, hm, hret, hp⟩

/-- The rows that lines write are of the sale kind. -/
theorem LedgerKept.written {drawn : ℕ → Uuid} {sale : PreparedSale} {lines : List PreparedLine}
    {i : ℕ} (h : LinesWritten now drawn sale lines i db db') : LedgerKept db db' := by
  intro k m hp
  rw [h.stockMovements]
  refine or_iff_right ?_
  rintro ⟨j, l, productId, -, -, -, rfl⟩
  exact hp rfl

theorem LedgerKept.trans {a b c : Db} (hab : LedgerKept a b) (hbc : LedgerKept b c) :
    LedgerKept a c := Kept.trans hab hbc fun _ _ h => h

theorem LedgerKept.sameRows {a b c : Db} (h : LedgerKept a b) (hsame : SameRows b c) :
    LedgerKept a c := by
  rw [hsame]
  exact h

theorem LedgerKept.of_sameRows {a b c : Db} (hsame : SameRows b c)
    (h : b.stockMovements = a.stockMovements) : LedgerKept a c := by
  rw [hsame]
  exact Kept.of_eq h

/-- An applied row of somebody who may not manage products, where no sale it
undoes is imitated. -/
theorem LedgerKept.effect (hstaff : actor.isOwner = false)
    (hcan : actor.can .manageProducts = false) {row : PushRow}
    (hno : ∀ saleId, Undoes storeId actor saleId db row → ¬ImitatesSale saleId storeId db)
    (h : RowEffect now storeId actor db row db') : LedgerKept db db' := by
  have hcannot : ¬actor.can .manageProducts = true := by simp [hcan]
  cases h with
  | saved may priced upserted coded effect => exact absurd may hcannot
  | @sold request sale db₁ db' asked recorded effect =>
    refine LedgerKept.sameRows ?_ effect
    cases recorded with
    | voided existing stored own gone same =>
      rw [same]
      exact Kept.refl _ _
    | new unknown writable written =>
      have hwritten := LedgerKept.written written
      exact hwritten
    | again existing stored own live may writable written =>
      have hid : request.id = some sale.id := by
        rw [asked.id] at stored ⊢
        exact named_of_find stored
      have hundoes : Undoes storeId actor sale.id db (.sale request) :=
        ⟨hid, ⟨existing, stored, own.trans asked.ofStore, live, may hstaff⟩,
          acceptable_of_sold asked writable⟩
      rw [asked.ofStore] at written
      have hundone := @LedgerKept.undo now storeId db sale.id (hno sale.id hundoes)
      have hwritten := LedgerKept.written written
      exact hundone.trans hwritten
  | movedBefore may => exact absurd may hcannot
  | moved may ofStore product cost kind listed unknown effect => exact absurd may hcannot
  | spent may named category upserted effect => exact LedgerKept.of_sameRows effect rfl
  | withdrawn may named upserted effect => exact LedgerKept.of_sameRows effect rfl
  | nothing => exact Kept.refl _ _
  | @voided request sale db' entity may live effect =>
    have hundoes : Undoes storeId actor request.id db (.deletion request) :=
      ⟨entity, rfl, may, by rw [live]; rfl⟩
    have hundone : LedgerKept (markVoided now request.id sale db)
        (undoSale now request.id storeId (markVoided now request.id sale db)) :=
      LedgerKept.undo (hno request.id hundoes)
    exact LedgerKept.sameRows hundone effect
  | unspent entity may live effect => exact LedgerKept.of_sameRows effect rfl
  | unwithdrawn entity may live effect => exact LedgerKept.of_sameRows effect rfl
  | unlisted entity may live effect => exact absurd may hcannot

/-- Writing lines keeps every ledger row. -/
theorem ledger_written {drawn : ℕ → Uuid} {sale : PreparedSale} {lines : List PreparedLine} {i : ℕ}
    (h : LinesWritten now drawn sale lines i db db') {k : Uuid} {m : StockMovement}
    (hm : db.stockMovements.find? k = some m) : db'.stockMovements.find? k = some m :=
  (h.stockMovements k m).mpr (Or.inr hm)

/-- A retired ledger row is never written again. -/
theorem retired_stays {row : PushRow} (h : RowEffect now storeId actor db row db') {k : Uuid}
    {m : StockMovement} (hm : db.stockMovements.find? k = some m) (hgone : m.deletedAt ≠ none) :
    db'.stockMovements.find? k = some m := by
  have hundo : ∀ saleId, (undoSale now saleId storeId db).stockMovements.find? k = some m := by
    intro saleId
    rw [undoSale_stockMovements, hm, Option.map_some, retired_of_not fun hret => hgone hret.2.2]
  cases h with
  | saved may priced upserted coded effect =>
    rw [effect]
    exact hm
  | sold asked recorded effect =>
    rw [effect]
    cases recorded with
    | voided existing stored own gone same => rwa [same]
    | new unknown writable written => exact ledger_written written hm
    | again existing stored own live may writable written =>
      rw [asked.ofStore] at written
      exact ledger_written written (hundo _)
  | movedBefore may => exact hm
  | moved may ofStore product cost kind listed unknown effect =>
    rw [effect]
    refine (Table.find?_put_ne _ _ fun hk => ?_).trans hm
    rw [hk, unknown] at hm
    cases hm
  | spent may named category upserted effect =>
    rw [effect]
    exact hm
  | withdrawn may named upserted effect =>
    rw [effect]
    exact hm
  | nothing => exact hm
  | voided entity may live effect =>
    rw [effect]
    exact hundo _
  | unspent entity may live effect =>
    rw [effect]
    exact hm
  | unwithdrawn entity may live effect =>
    rw [effect]
    exact hm
  | unlisted entity may live effect =>
    rw [effect]
    exact hm

/-- A row that undoes a sale retires the ledger rows that carry its note. -/
theorem retires_of_undoes {saleId : Uuid} {row : PushRow} (s : PushState)
    (h : Undoes storeId actor saleId s.2 row) {k : Uuid} {m : StockMovement}
    (hm : s.2.stockMovements.find? k = some m) :
    (pushRow now storeId actor s row).2.stockMovements.find? k =
      some (retired now saleId storeId m) := by
  cases row with
  | sale request =>
    obtain ⟨hid, ⟨existing, hfound, hown, hlive, hby⟩, hok⟩ := h
    obtain ⟨detail, db', hrecord⟩ := @record_of_acceptable now storeId saleId actor request s.2 hid
      existing hfound hown hlive (fun _ => hby) hok
    have happly : (PushRow.sale request).apply now storeId actor s.2 = .ok (some detail.id, db') := by
      simp only [PushRow.apply, hrecord]
      rfl
    rw [pushRow_of_ok s happly]
    cases effect_of_sale hrecord with
    | @sold _ sale db₁ _ asked recorded effect =>
      have hsale : sale.id = saleId := by
        rw [asked.id, hid]
        rfl
      rw [effect]
      cases recorded with
      | voided existing' stored own gone same =>
        rw [hsale, hfound] at stored
        cases stored
        exact absurd hlive gone
      | new unknown writable written =>
        rw [hsale, hfound] at unknown
        cases unknown
      | again existing' stored own live may writable written =>
        rw [asked.ofStore, hsale] at written
        refine ledger_written written ?_
        change (undoSale now saleId storeId s.2).stockMovements.find? k = _
        rw [undoSale_stockMovements, hm]
        rfl
  | deletion request =>
    obtain ⟨hentity, hid, hcan, hlive⟩ := h
    obtain ⟨sale, hsale⟩ := Option.isSome_iff_exists.mp hlive
    have happly : ∃ events, (PushRow.deletion request).apply now storeId actor s.2 =
        .ok (some request.id, { undoSale now saleId storeId (markVoided now saleId sale s.2) with
          auditEvents := events }) := by
      simp only [PushRow.apply, delete, removeEntity, hentity, if_true, SaleService.void,
        Actor.require_eq_ok.mpr hcan, SaleRepository.void, hid, hsale, bind, Except.bind]
      exact ⟨_, rfl⟩
    obtain ⟨events, hok⟩ := happly
    rw [pushRow_of_ok s hok]
    change (undoSale now saleId storeId (markVoided now saleId sale s.2)).stockMovements.find? k = _
    rw [undoSale_stockMovements]
    exact congrArg (Option.map _) hm
  | product request => exact h.elim
  | movement request => exact h.elim
  | expense request => exact h.elim
  | withdrawal request => exact h.elim

end Ledger

section Push

variable {now : Timestamp} {storeId : Uuid} {actor : Actor}

/-- Rows where no sale that is undone is imitated. -/
theorem LedgerKept.pushRows (hstaff : actor.isOwner = false)
    (hcan : actor.can .manageProducts = false) {rows : List PushRow} (s : PushState)
    (hno : ∀ before row rest, rows = before ++ row :: rest → ∀ saleId,
      Undoes storeId actor saleId (pushRows now storeId actor s before).2 row →
        ¬ImitatesSale saleId storeId (pushRows now storeId actor s before).2) :
    LedgerKept s.2 (pushRows now storeId actor s rows).2 := by
  induction rows generalizing s with
  | nil => exact Kept.refl _ _
  | cons row rest ih =>
    have hrow : LedgerKept s.2 (pushRow now storeId actor s row).2 := by
      cases hok : row.apply now storeId actor s.2 with
      | error e =>
        rw [pushRow_of_error s hok]
        exact Kept.refl _ _
      | ok result =>
        obtain ⟨rowId, db'⟩ := result
        rw [pushRow_of_ok s hok]
        exact LedgerKept.effect hstaff hcan (hno [] row rest rfl) (effect_of_apply hok)
    refine hrow.trans (ih (pushRow now storeId actor s row) ?_)
    intro before row' rest' hsplit
    exact hno (row :: before) row' rest' (by rw [hsplit]; rfl)

/-- A retired ledger row is never written again by later rows. -/
theorem retired_stays_pushRows {rows : List PushRow} (s : PushState) {k : Uuid} {m : StockMovement}
    (hm : s.2.stockMovements.find? k = some m) (hgone : m.deletedAt ≠ none) :
    (pushRows now storeId actor s rows).2.stockMovements.find? k = some m := by
  induction rows generalizing s with
  | nil => exact hm
  | cons row rest ih =>
    refine ih (pushRow now storeId actor s row) ?_
    cases hok : row.apply now storeId actor s.2 with
    | error e =>
      rw [pushRow_of_error s hok]
      exact hm
    | ok result =>
      obtain ⟨rowId, db'⟩ := result
      rw [pushRow_of_ok s hok]
      exact retired_stays (effect_of_apply hok) hm hgone

/-- A row that names a sale somebody else recorded changes nothing. -/
theorem nothing_of_somebodyElses (hstaff : actor.isOwner = false)
    {deletes : String → Uuid → Prop} {row : PushRow} {saleId : Uuid} (s : PushState)
    (hdel : ∀ deletion, row = .deletion deletion → actor.can .deleteRecords = true →
      deletes deletion.entity deletion.id)
    (hother : SomebodyElses actor deletes s.2 saleId) (hnames : NamesSale saleId row) :
    SameRows s.2 (pushRow now storeId actor s row).2 := by
  obtain ⟨own, hfound, hby, hstays⟩ := hother
  cases hok : row.apply now storeId actor s.2 with
  | error e =>
    rw [pushRow_of_error s hok]
    rfl
  | ok result =>
    obtain ⟨rowId, db'⟩ := result
    rw [pushRow_of_ok s hok]
    cases effect_of_apply hok with
    | @sold request sale db₁ _ asked recorded effect =>
      have hsale : sale.id = saleId := by
        rw [asked.id, show request.id = some saleId from hnames]
        rfl
      cases recorded with
      | voided existing stored own' gone same =>
        rw [same] at effect
        exact effect
      | new unknown writable written =>
        rw [hsale, hfound] at unknown
        cases unknown
      | again existing stored own' live may writable written =>
        rw [hsale, hfound] at stored
        cases stored
        exact absurd (may hstaff) hby
    | nothing => rfl
    | voided entity may live effect =>
      have hd := hdel _ rfl may
      rw [entity, hnames.2] at hd
      exact absurd hd hstays
    | unspent entity may live effect =>
      rw [hnames.1] at entity
      exact absurd entity (by decide)
    | unwithdrawn entity may live effect =>
      rw [hnames.1] at entity
      exact absurd entity (by decide)
    | unlisted entity may live effect =>
      rw [hnames.1] at entity
      exact absurd entity (by decide)
    | saved may priced upserted coded effect => exact hnames.elim
    | movedBefore may => exact hnames.elim
    | moved may ofStore product cost kind listed unknown effect => exact hnames.elim
    | spent may named category upserted effect => exact hnames.elim
    | withdrawn may named upserted effect => exact hnames.elim

/-- Whether a push by a staff member changes nothing outside what they may
touch. -/
structure Framed (now : Timestamp) (storeId : Uuid) (actor : Actor) (request : PushRequest)
    (db : Db) : Prop where
  /-- Withdrawals, what somebody else recorded, the catalogue, expenses and
  the other stores. -/
  frame : Frame now storeId actor (Deletes actor request) db
    (push now storeId actor request db).2
  /-- Ledger rows other than those of sales. -/
  ledger : actor.can .manageProducts = false →
    LedgerKept db (push now storeId actor request db).2
  /-- A row that names a sale somebody else recorded moves no stock, nor
  anything else. -/
  stock : ∀ before row rest, rows now request = before ++ row :: rest → ∀ saleId,
    let s := pushRows now storeId actor (Outcome.empty, db) before
    SomebodyElses actor (Deletes actor request) s.2 saleId → NamesSale saleId row →
      SameRows s.2 (pushRow now storeId actor s row).2

/-- The owner of the store. -/
def shopOwner : Actor := ⟨⟨2⟩, "Ana", "Phone", none⟩

/-- A staff member without any switch. -/
def seller : Actor := ⟨⟨2⟩, "Ben", "Tablet", some ⟨⟨3⟩, ⟨false, false, false, false⟩⟩⟩

/-- The seller's sale of two of the rice. -/
def soldRice : PushRequest :=
  ⟨[], [], [⟨some ⟨20⟩, none, 0, none, some 4, [⟨some ⟨22⟩, some ⟨10⟩, none, 2, none, none⟩]⟩],
    [], [], []⟩

/-- The store after the owner listed the rice and the seller sold of it. -/
def afterSale : Db :=
  (push 2 ⟨1⟩ seller soldRice
    (push 1 ⟨1⟩ shopOwner ⟨[⟨some ⟨10⟩, "Rice", none, "kg", 40, 75, 10, 0⟩], [], [], [], [], []⟩
      Db.empty).2).2

/-- A delivery, noted with the words the ledger uses for the sale. -/
def notedDelivery : PushRequest :=
  ⟨[], [⟨some ⟨30⟩, ⟨10⟩, "stock_in", 5, 0, some "sale 20", some 5⟩], [], [], [], []⟩

end Push

end Kitaza.PushFrame
