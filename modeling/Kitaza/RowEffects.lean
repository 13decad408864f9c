import Kitaza.SaleEffects
import Kitaza.SyncPush

/-!
# What a row of a push does when it is applied

One case for each thing an applied row can do, with the permission it took
and the rows it found. What a push keeps follows from these cases alone.
-/

namespace Kitaza.RowEffects

open KeyedTable Primitives Access Schema Payloads ProductService SaleRepository SaleService
  SaleEffects InventoryService SyncPush

/-- Whether nothing but the log differs. -/
def SameRows (db db' : Db) : Prop := db' = { db with auditEvents := db'.auditEvents }

/-- The sale a row asks for, its lines resolved. -/
structure SaleAsked (now : Timestamp) (storeId : Uuid) (actor : Actor)
    (request : RecordSaleRequest) (db : Db) (sale : PreparedSale) : Prop where
  /-- It has the row's identifier, or a drawn one. -/
  id : sale.id = request.id.getD (Uuid.newV4 db.sales 0)
  /-- It is the store's. -/
  ofStore : sale.storeId = storeId
  /-- Its payment method is known. -/
  method : ∃ method, normalisePaymentMethod request.paymentMethod = .ok method
  /-- Its lines are the row's. -/
  lines : resolveLines storeId db (visibleItems actor request.items) 0 = .ok sale.lines

/-- What an applied row did. -/
inductive RowEffect (now : Timestamp) (storeId : Uuid) (actor : Actor) (db : Db) :
    PushRow → Db → Prop
  /-- A product was inserted or updated. -/
  | saved {request : SaveProductRequest} {row : Product} {db' : Db}
      (may : actor.can .manageProducts = true)
      (priced : ¬moneyFromF64 request.sellingPrice <
        savedCost actor request (find storeId (savedId request db) db))
      (upserted : upsertRow now storeId
        (savedValues actor request (find storeId (savedId request db) db))
        (db.products.find? (savedId request db)) = some row)
      (coded : ¬BarcodeTaken storeId (savedId request db) row.barcode db.products)
      (effect : SameRows { db with products := db.products.put (savedId request db) row } db') :
      RowEffect now storeId actor db (.product request) db'
  /-- A sale was recorded. -/
  | sold {request : RecordSaleRequest} {sale : PreparedSale} {db₁ db' : Db}
      (asked : SaleAsked now storeId actor request db sale)
      (recorded : SaleRecorded now (Uuid.newV4 db.stockMovements) sale (recorderOf actor) db db₁)
      (effect : SameRows db₁ db') : RowEffect now storeId actor db (.sale request) db'
  /-- A stock movement was known already. -/
  | movedBefore {request : RecordMovementRequest} (may : actor.can .manageProducts = true) :
      RowEffect now storeId actor db (.movement request) db
  /-- A stock movement was recorded. -/
  | moved {request : RecordMovementRequest} {entry : LedgerEntry} {p : Product} {db' : Db}
      (may : actor.can .manageProducts = true) (ofStore : entry.storeId = storeId)
      (product : entry.productId = request.productId)
      (cost : actor.can .viewProfit = false → entry.unitCost = 0)
      (kind : entry.movement ≠ .sale)
      (listed : find storeId entry.productId db = some p)
      (unknown : db.stockMovements.find? entry.movementId = none)
      (effect : SameRows { db with
        stockMovements := db.stockMovements.put entry.movementId
          (ledgerRow now entry (entry.effect.delta p.stockQuantity))
        products := db.products.put entry.productId
          (movedProduct now (entry.effect.delta p.stockQuantity) entry.unitCost p) } db') :
      RowEffect now storeId actor db (.movement request) db'
  /-- An expense was inserted or updated. -/
  | spent {request : RecordExpenseRequest} {id : Uuid} {values : ExpenseService.ExpenseValues}
      {row : Expense} {db' : Db} (may : actor.can .recordExpenses = true)
      (named : id = request.id.getD (Uuid.newV4 db.expenses 0))
      (category : ExpenseService.parseCategory request.category = .ok values.category)
      (upserted : ExpenseService.upsertRow now storeId values actor (db.expenses.find? id) =
        some row)
      (effect : SameRows { db with expenses := db.expenses.put id row } db') :
      RowEffect now storeId actor db (.expense request) db'
  /-- A withdrawal was inserted or updated. -/
  | withdrawn {request : RecordWithdrawalRequest} {id : Uuid}
      {values : WithdrawalService.WithdrawalValues} {row : OwnerWithdrawal} {db' : Db}
      (may : actor.isOwner = true)
      (named : id = request.id.getD (Uuid.newV4 db.ownerWithdrawals 0))
      (upserted : WithdrawalService.upsertRow now storeId values (db.ownerWithdrawals.find? id) =
        some row)
      (effect : SameRows { db with ownerWithdrawals := db.ownerWithdrawals.put id row } db') :
      RowEffect now storeId actor db (.withdrawal request) db'
  /-- There was nothing to remove. -/
  | nothing {request : DeletionRequest} : RowEffect now storeId actor db (.deletion request) db
  /-- A sale was voided. -/
  | voided {request : DeletionRequest} {sale : Sale} {db' : Db} (entity : request.entity = "sale")
      (may : actor.can .deleteRecords = true) (live : findLive storeId request.id db = some sale)
      (effect : SameRows (undoSale now request.id storeId (markVoided now request.id sale db)) db') :
      RowEffect now storeId actor db (.deletion request) db'
  /-- An expense was removed. -/
  | unspent {request : DeletionRequest} {e : Expense} {db' : Db}
      (entity : request.entity = "expense") (may : actor.can .deleteRecords = true)
      (live : ExpenseService.findLive storeId request.id db = some e)
      (effect : SameRows { db with
        expenses := db.expenses.put request.id
          { e with deletedAt := some now, updatedAt := now } } db') :
      RowEffect now storeId actor db (.deletion request) db'
  /-- A withdrawal was removed. -/
  | unwithdrawn {request : DeletionRequest} {w : OwnerWithdrawal} {db' : Db}
      (entity : request.entity = "withdrawal") (may : actor.isOwner = true)
      (live : WithdrawalService.findLive storeId request.id db = some w)
      (effect : SameRows { db with
        ownerWithdrawals := db.ownerWithdrawals.put request.id
          { w with deletedAt := some now, updatedAt := now } } db') :
      RowEffect now storeId actor db (.deletion request) db'
  /-- A product was removed. -/
  | unlisted {request : DeletionRequest} {p : Product} {db' : Db}
      (entity : request.entity = "product") (may : actor.can .manageProducts = true)
      (live : find storeId request.id db = some p)
      (effect : SameRows { db with
        products := db.products.put request.id
          { p with deletedAt := some now, isActive := false, updatedAt := now } } db') :
      RowEffect now storeId actor db (.deletion request) db'

/-- A drawn identifier names nothing yet. -/
theorem named_of_find {ρ : Type} {t : Table Uuid ρ} {given : Option Uuid} {r : ρ}
    (h : t.find? (given.getD (Uuid.newV4 t 0)) = some r) :
    given = some (given.getD (Uuid.newV4 t 0)) := by
  cases given with
  | none =>
    rw [Option.getD_none, Uuid.find?_newV4] at h
    cases h
  | some id => rfl

section

variable {now : Timestamp} {storeId : Uuid} {actor : Actor} {db db' : Db}

theorem sameRows_recordAudit (entry : AuditEntry) (db : Db) :
    SameRows db (recordAudit now actor entry db) := rfl

theorem sameRows_recordAudit? (entry : Option AuditEntry) (db : Db) :
    SameRows db (recordAudit? now actor entry db) := by
  cases entry <;> rfl

theorem effect_of_save {request : SaveProductRequest} {saved : Uuid × Product}
    (h : save now storeId actor request db = .ok (saved, db')) :
    RowEffect now storeId actor db (.product request) db' := by
  obtain ⟨hcan, hpriced, row, hrow, hcoded, -, rfl⟩ := save_eq_ok.mp h
  exact .saved hcan hpriced hrow hcoded (sameRows_recordAudit? _ _)

theorem effect_of_sale {request : RecordSaleRequest} {detail : SaleDetail}
    (h : SaleService.record now storeId actor request db = .ok (detail, db')) :
    RowEffect now storeId actor db (.sale request) db' := by
  obtain ⟨method, hmethod, h⟩ := bind_eq_ok.mp h
  obtain ⟨lines, hlines, h⟩ := bind_eq_ok.mp h
  obtain ⟨⟨recorded, db₁⟩, hrecord, h⟩ := bind_eq_ok.mp h
  have hdone := saleRecorded_of_ok (Uuid.newV4_injective db.stockMovements)
    (Uuid.find?_newV4 db.stockMovements) hrecord
  have hdb : SameRows db₁ db' := by
    cases h
    split_ifs
    · rfl
    · rfl
  exact .sold ⟨rfl, rfl, ⟨method, hmethod⟩, hlines⟩ hdone hdb

/-- Nobody posts a movement of the kind sales have. -/
theorem kind_of_stockEffect {movement : String} {quantity : Quantity} {kind : MovementKind}
    {effect : StockEffect} (h : stockEffect movement quantity = .ok (kind, effect)) :
    kind ≠ .sale := by
  unfold stockEffect at h
  split at h
  · rename_i found hfound
    cases h
    rw [INBOUND_MOVEMENTS, List.lookup_cons] at hfound
    split at hfound
    · cases hfound
      decide
    · cases hfound
  · split at h
    · rename_i found hfound
      cases h
      rw [OUTBOUND_MOVEMENTS, List.lookup_cons, List.lookup_cons] at hfound
      split at hfound
      · cases hfound
        decide
      · split at hfound
        · cases hfound
          decide
        · cases hfound
    · split_ifs at h
      cases h
      decide

theorem effect_of_movement {request : RecordMovementRequest}
    (h : InventoryService.record now storeId actor request db = .ok db') :
    RowEffect now storeId actor db (.movement request) db' := by
  obtain ⟨_, hcan, h⟩ := bind_eq_ok.mp h
  obtain ⟨⟨kind, effect⟩, heffect, h⟩ := bind_eq_ok.mp h
  dsimp only at h
  split_ifs at h
  obtain ⟨⟨applied, db₁⟩, hmove, h⟩ := bind_eq_ok.mp h
  have hmay := Actor.require_eq_ok.mp hcan
  obtain ⟨p, hp, ⟨-, rfl, rfl⟩ | ⟨hnew, rfl, hdb⟩⟩ := recordMovement_eq_ok.mp hmove
  · cases h
    exact .movedBefore hmay
  · obtain ⟨events, hlog⟩ := logMovement_eq now actor
      (entryOf now storeId actor request kind effect db) (quantityFromF64 request.quantity)
      (some ⟨p.name, (entryOf now storeId actor request kind effect db).effect.delta
        p.stockQuantity⟩) db₁
    have hsame : SameRows db₁ db' := by
      rw [hlog] at h
      cases h
      rfl
    rw [hdb] at hsame
    refine .moved hmay rfl rfl (fun hblind => ?_) ?_ hp hnew hsame
    · simp [entryOf, hblind]
    · exact kind_of_stockEffect heffect

theorem effect_of_expense {request : RecordExpenseRequest} {saved : Uuid × Expense}
    (h : ExpenseService.record now storeId actor request db = .ok (saved, db')) :
    RowEffect now storeId actor db (.expense request) db' := by
  obtain ⟨_, hcan, h⟩ := bind_eq_ok.mp h
  obtain ⟨category, hcategory, h⟩ := bind_eq_ok.mp h
  dsimp only [ExpenseService.upsert] at h
  cases hrow : ExpenseService.upsertRow now storeId
      ⟨category, trimmed request.description, moneyFromF64 request.amount,
        request.occurredAt.getD now⟩ actor
      (db.expenses.find? (request.id.getD (Uuid.newV4 db.expenses 0))) with
  | none =>
    rw [hrow] at h
    cases h
  | some row =>
    rw [hrow] at h
    have hsame : SameRows { db with
        expenses := db.expenses.put (request.id.getD (Uuid.newV4 db.expenses 0)) row } db' := by
      cases h
      split_ifs
      · rfl
      · rfl
    exact .spent (Actor.require_eq_ok.mp hcan) rfl hcategory hrow hsame

theorem effect_of_withdrawal {request : RecordWithdrawalRequest} {saved : Uuid × OwnerWithdrawal}
    (h : WithdrawalService.record now storeId actor request db = .ok (saved, db')) :
    RowEffect now storeId actor db (.withdrawal request) db' := by
  obtain ⟨_, hcan, h⟩ := bind_eq_ok.mp h
  dsimp only [WithdrawalService.upsert] at h
  cases hrow : WithdrawalService.upsertRow now storeId
      ⟨moneyFromF64 request.amount, trimmed request.reason, request.occurredAt.getD now⟩
      (db.ownerWithdrawals.find? (request.id.getD (Uuid.newV4 db.ownerWithdrawals 0))) with
  | none =>
    rw [hrow] at h
    cases h
  | some row =>
    rw [hrow] at h
    have hsame : SameRows { db with
        ownerWithdrawals := db.ownerWithdrawals.put
          (request.id.getD (Uuid.newV4 db.ownerWithdrawals 0)) row } db' := by
      cases h
      split_ifs
      · rfl
      · rfl
    exact .withdrawn (Actor.requireOwner_eq_ok.mp hcan) rfl hrow hsame

theorem effect_of_removal {request : DeletionRequest}
    (h : removeEntity now storeId actor request db = .ok db') :
    RowEffect now storeId actor db (.deletion request) db' := by
  unfold removeEntity at h
  split_ifs at h with hsale hexpense hwithdrawal hproduct
  · obtain ⟨_, hcan, h⟩ := bind_eq_ok.mp h
    unfold SaleRepository.void at h
    cases hlive : findLive storeId request.id db with
    | none =>
      rw [hlive] at h
      cases h
    | some sale =>
      rw [hlive] at h
      cases h
      exact .voided hsale (Actor.require_eq_ok.mp hcan) hlive rfl
  · obtain ⟨_, hcan, h⟩ := bind_eq_ok.mp h
    unfold ExpenseService.softDelete at h
    cases hlive : ExpenseService.findLive storeId request.id db with
    | none =>
      rw [hlive] at h
      cases h
    | some e =>
      rw [hlive] at h
      cases h
      exact .unspent hexpense (Actor.require_eq_ok.mp hcan) hlive rfl
  · obtain ⟨_, hcan, h⟩ := bind_eq_ok.mp h
    unfold WithdrawalService.softDelete at h
    cases hlive : WithdrawalService.findLive storeId request.id db with
    | none =>
      rw [hlive] at h
      cases h
    | some w =>
      rw [hlive] at h
      cases h
      exact .unwithdrawn hwithdrawal (Actor.requireOwner_eq_ok.mp hcan) hlive rfl
  · obtain ⟨_, hcan, h⟩ := bind_eq_ok.mp h
    unfold softDelete at h
    cases hlive : find storeId request.id db with
    | none =>
      rw [hlive] at h
      cases h
    | some p =>
      rw [hlive] at h
      cases h
      exact .unlisted hproduct (Actor.require_eq_ok.mp hcan) hlive rfl

end

/-- An applied row did one of these things. -/
theorem effect_of_apply {now : Timestamp} {storeId : Uuid} {actor : Actor} {row : PushRow}
    {db db' : Db} {id : Option Uuid} (h : row.apply now storeId actor db = .ok (id, db')) :
    RowEffect now storeId actor db row db' := by
  have happlied := PushRow.apply_eq_ok h
  cases row with
  | product request =>
    obtain ⟨saved, hr⟩ := happlied
    exact effect_of_save hr
  | sale request =>
    obtain ⟨detail, hr⟩ := happlied
    exact effect_of_sale hr
  | movement request => exact effect_of_movement happlied
  | expense request =>
    obtain ⟨saved, hr⟩ := happlied
    exact effect_of_expense hr
  | withdrawal request =>
    obtain ⟨saved, hr⟩ := happlied
    exact effect_of_withdrawal hr
  | deletion request =>
    rcases happlied with hr | rfl
    · exact effect_of_removal hr
    · exact .nothing

end Kitaza.RowEffects
