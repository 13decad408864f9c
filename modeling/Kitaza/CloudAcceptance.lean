import Kitaza.Catalogue
import Kitaza.UploadedRecords

/-!
# The server accepts rows as the cloud does

What the cloud has of a record is what the server's database says of its row:
its store, whether it is live, the note of a movement. A row of a push that the
server applies changes that as accepting its change does. The movements a server
draws for the lines of a sale are no phone's, and are left out.
-/

namespace Kitaza.CloudAcceptance

open KeyedTable Primitives Access Schema Payloads ProductService SaleRepository SaleService
  SaleEffects InventoryService SyncPush RowEffects Catalogue SyncQueue SyncPull OutboxDrain
  UploadedRecords

variable {α : Type*}

/-- What the database says of a record. -/
def cloudOf (db : Db) : Cloud
  | .products, id => (db.products.find? id).map fun p => ⟨p.storeId, p.deletedAt.isNone, none⟩
  | .sales, id => (db.sales.find? id).map fun s => ⟨s.storeId, s.deletedAt.isNone, none⟩
  | .expenses, id => (db.expenses.find? id).map fun e => ⟨e.storeId, e.deletedAt.isNone, none⟩
  | .withdrawals, id =>
    (db.ownerWithdrawals.find? id).map fun w => ⟨w.storeId, w.deletedAt.isNone, none⟩
  | .stockMovements, id =>
    (db.stockMovements.find? id).map fun m => ⟨m.storeId, m.deletedAt.isNone, m.note⟩

/-- Two clouds are the same but for movements that the server drew. -/
def Agree (drawn : Uuid → Prop) (a b : Cloud) : Prop :=
  ∀ table id, (table = .stockMovements → ¬drawn id) → a table id = b table id

/-- A row of a push carries a queued change. -/
def Carries (contents : Contents α) (c : QueuedChange α) : PushRow → Prop
  | .product request => c.row.entity = .products ∧ request.id = some c.row.entityId ∧
      ∃ content, c.row.payload = .record content
  | .sale request => c.row.entity = .sales ∧ request.id = some c.row.entityId ∧
      ∃ content, c.row.payload = .record content
  | .movement request => c.row.entity = .stockMovements ∧ request.id = some c.row.entityId ∧
      ∃ content, c.row.payload = .record content ∧ contents.note content = trimmed request.note
  | .expense request => c.row.entity = .expenses ∧ request.id = some c.row.entityId ∧
      ∃ content, c.row.payload = .record content
  | .withdrawal request => c.row.entity = .withdrawals ∧ request.id = some c.row.entityId ∧
      ∃ content, c.row.payload = .record content
  | .deletion request => ∃ entity, c.row.payload = .deletion entity request.id ∧
      request.entity = entity.text

/-- The movements drawn once a row was applied. -/
def drawnAfter (drawn : Uuid → Prop) (db : Db) : PushRow → Uuid → Prop
  | .sale _, id => drawn id ∨ ∃ j, id = Uuid.newV4 db.stockMovements j
  | _, id => drawn id

/-- Whether a row posts a movement that was not drawn. -/
def Own (drawn : Uuid → Prop) : PushRow → Prop
  | .movement request => ∀ id, request.id = some id → ¬drawn id
  | _ => True

/-- Rows that carry changes are applied, one after another. -/
inductive AcceptedRun (contents : Contents α) : Db → (Uuid → Prop) →
    List (Uuid × QueuedChange α) → Db → (Uuid → Prop) → Prop where
  | nil {db : Db} {drawn : Uuid → Prop} : AcceptedRun contents db drawn [] db drawn
  | cons {now : Timestamp} {storeId : Uuid} {actor : Actor} {c : QueuedChange α} {row : PushRow}
      {db db₁ db' : Db} {drawn drawn' : Uuid → Prop} {id : Option Uuid}
      {rest : List (Uuid × QueuedChange α)} (carries : Carries contents c row)
      (own : Own drawn row) (applied : row.apply now storeId actor db = .ok (id, db₁))
      (others : AcceptedRun contents db₁ (drawnAfter drawn db row) rest db' drawn') :
      AcceptedRun contents db drawn ((storeId, c) :: rest) db' drawn'

section

variable {drawn : Uuid → Prop} {a b : Cloud} {storeId id : Uuid} {table : SyncTable}

theorem Agree.refl (drawn : Uuid → Prop) (a : Cloud) : Agree drawn a a := fun _ _ _ => rfl

theorem Agree.trans {c : Cloud} (hab : Agree drawn a b) (hbc : Agree drawn b c) : Agree drawn a c :=
  fun table id h => (hab table id h).trans (hbc table id h)

theorem Agree.mono {drawn' : Uuid → Prop} (h : Agree drawn a b) (hsub : ∀ id, drawn id → drawn' id) :
    Agree drawn' a b := fun table id hid => h table id fun ht hd => hid ht (hsub id hd)

theorem Agree.put (h : Agree drawn a b) (r : CloudRow) :
    Agree drawn (a.put table id r) (b.put table id r) := by
  intro table' id' hid
  by_cases hsame : table' = table ∧ id' = id
  · obtain ⟨rfl, rfl⟩ := hsame
    rw [put_self, put_self]
  · rw [put_of_ne _ hsame, put_of_ne _ hsame, h table' id' hid]

theorem Agree.retire (h : Agree drawn a b) (saleId : Uuid) :
    Agree drawn (OutboxDrain.retire storeId saleId a) (OutboxDrain.retire storeId saleId b) := by
  intro table id hid
  rw [OutboxDrain.retire, OutboxDrain.retire, h table id hid]

/-- What is written of a record that is no movement is not retired. -/
theorem retire_put (saleId : Uuid) (r : CloudRow) (htable : table ≠ .stockMovements) :
    OutboxDrain.retire storeId saleId (a.put table id r) =
      (OutboxDrain.retire storeId saleId a).put table id r := by
  funext table' id'
  by_cases hsame : table' = table ∧ id' = id
  · obtain ⟨rfl, rfl⟩ := hsame
    rw [retire_of_ne _ htable, put_self, put_self]
  · rw [put_of_ne _ hsame, OutboxDrain.retire, put_of_ne _ hsame, OutboxDrain.retire]

/-- Clouds that agree accept a version alike. -/
theorem Agree.acceptSaved (h : Agree drawn a b) (hid : table = .stockMovements → ¬drawn id)
    (note : Option String) {b' : Cloud} (hb : acceptSaved storeId table id note b = some b') :
    ∃ a', OutboxDrain.acceptSaved storeId table id note a = some a' ∧ Agree drawn a' b' := by
  unfold OutboxDrain.acceptSaved at hb ⊢
  rw [h table id hid]
  split at hb
  · cases hb
    exact ⟨_, rfl, h.put _⟩
  · split_ifs at hb ⊢
    · cases hb
      exact ⟨_, rfl, h⟩
    · cases hb
      exact ⟨_, rfl, (h.retire id).put _⟩
    · cases hb
      exact ⟨_, rfl, h⟩
    · cases hb
      exact ⟨_, rfl, h.put _⟩

/-- Clouds that agree accept a removal alike. -/
theorem Agree.acceptRemoved (h : Agree drawn a b) (htable : table ≠ .stockMovements) :
    Agree drawn (acceptRemoved storeId table id a) (OutboxDrain.acceptRemoved storeId table id b) := by
  have hlive : Live a (storeId, table, id) ↔ Live b (storeId, table, id) :=
    live_of_eq (k := (storeId, table, id)) (h table id fun ht => absurd ht htable)
  unfold OutboxDrain.acceptRemoved
  by_cases hl : Live b (storeId, table, id)
  · rw [if_pos hl, if_pos (hlive.mpr hl)]
    split_ifs
    · exact (h.retire id).put _
    · exact h.put _
  · rw [if_neg hl, if_neg (mt hlive.mp hl)]
    exact h

/-- Clouds that agree accept a change alike. -/
theorem Agree.acceptChange {contents : Contents α} {x : Uuid × QueuedChange α}
    (h : Agree drawn a b) (hown : ∀ s id, Saves (s, .stockMovements, id) x → ¬drawn id) {b' : Cloud}
    (hb : acceptChange contents b x = some b') :
    ∃ a', OutboxDrain.acceptChange contents a x = some a' ∧ Agree drawn a' b' := by
  obtain ⟨s, k, r⟩ := x
  unfold OutboxDrain.acceptChange at hb ⊢
  dsimp only at hb ⊢
  cases hp : r.payload with
  | record content =>
    cases ht : recordTable r.entity with
    | none =>
      rw [hp, ht] at hb
      cases hb
      exact ⟨_, rfl, h⟩
    | some table =>
      rw [hp, ht] at hb
      refine h.acceptSaved (fun hm => hown s _ ?_) _ hb
      simp [Saves, savedRecord, hp, ht, hm]
  | deletion entity target =>
    rw [hp] at hb
    cases hb
    refine ⟨_, rfl, h.acceptRemoved ?_⟩
    cases entity <;> decide

/-- A record that is neither a sale nor a movement is accepted into its store. -/
theorem acceptSaved_plain {note : Option String} (hmoved : table ≠ .stockMovements)
    (hsale : table ≠ .sales) (hown : ∀ r, a table id = some r → r.storeId = storeId) :
    acceptSaved storeId table id note a = some (a.put table id ⟨storeId, true, note⟩) := by
  unfold acceptSaved
  cases hr : a table id with
  | none => rfl
  | some r =>
    dsimp only
    rw [if_neg hmoved, if_neg (not_not_intro (hown r hr)), if_neg hsale]

end

section

variable {now : Timestamp} {storeId id : Uuid} {actor : Actor} {db db' : Db}

theorem cloudOf_of_sameRows (h : SameRows db db') : cloudOf db' = cloudOf db := by
  rw [h]
  funext table id
  cases table <;> rfl

theorem cloudOf_put_product (row : Product) :
    cloudOf { db with products := db.products.put id row } =
      (cloudOf db).put .products id ⟨row.storeId, row.deletedAt.isNone, none⟩ := by
  funext table id'
  by_cases hsame : table = .products ∧ id' = id
  · obtain ⟨rfl, rfl⟩ := hsame
    simp [cloudOf, put_self]
  · rw [put_of_ne _ hsame]
    cases table with
    | products => simp [cloudOf, Table.find?_put_ne _ _ fun he => hsame ⟨rfl, he⟩]
    | sales => rfl
    | expenses => rfl
    | withdrawals => rfl
    | stockMovements => rfl

theorem cloudOf_put_expense (row : Expense) :
    cloudOf { db with expenses := db.expenses.put id row } =
      (cloudOf db).put .expenses id ⟨row.storeId, row.deletedAt.isNone, none⟩ := by
  funext table id'
  by_cases hsame : table = .expenses ∧ id' = id
  · obtain ⟨rfl, rfl⟩ := hsame
    simp [cloudOf, put_self]
  · rw [put_of_ne _ hsame]
    cases table with
    | expenses => simp [cloudOf, Table.find?_put_ne _ _ fun he => hsame ⟨rfl, he⟩]
    | sales => rfl
    | products => rfl
    | withdrawals => rfl
    | stockMovements => rfl

theorem cloudOf_put_withdrawal (row : OwnerWithdrawal) :
    cloudOf { db with ownerWithdrawals := db.ownerWithdrawals.put id row } =
      (cloudOf db).put .withdrawals id ⟨row.storeId, row.deletedAt.isNone, none⟩ := by
  funext table id'
  by_cases hsame : table = .withdrawals ∧ id' = id
  · obtain ⟨rfl, rfl⟩ := hsame
    simp [cloudOf, put_self]
  · rw [put_of_ne _ hsame]
    cases table with
    | withdrawals => simp [cloudOf, Table.find?_put_ne _ _ fun he => hsame ⟨rfl, he⟩]
    | sales => rfl
    | products => rfl
    | expenses => rfl
    | stockMovements => rfl

theorem cloudOf_put_sale (row : Sale) :
    cloudOf { db with sales := db.sales.put id row } =
      (cloudOf db).put .sales id ⟨row.storeId, row.deletedAt.isNone, none⟩ := by
  funext table id'
  by_cases hsame : table = .sales ∧ id' = id
  · obtain ⟨rfl, rfl⟩ := hsame
    simp [cloudOf, put_self]
  · rw [put_of_ne _ hsame]
    cases table with
    | sales => simp [cloudOf, Table.find?_put_ne _ _ fun he => hsame ⟨rfl, he⟩]
    | withdrawals => rfl
    | products => rfl
    | expenses => rfl
    | stockMovements => rfl

/-- Undoing a sale retires its movements and removes nothing else. -/
theorem cloudOf_undoSale (now : Timestamp) (saleId : Uuid) :
    cloudOf (undoSale now saleId storeId db) = retire storeId saleId (cloudOf db) := by
  funext table id'
  cases table with
  | products =>
    rw [retire_of_ne _ (by decide), cloudOf, undoSale_products, Option.map_map, cloudOf]
    refine congrArg (Option.map · _) (funext fun p => ?_)
    rw [Function.comp_apply, restored_storeId, restored_deletedAt]
  | stockMovements =>
    rw [cloudOf, undoSale_stockMovements, OutboxDrain.retire, cloudOf, Option.map_map,
      Option.map_map]
    refine congrArg (Option.map · _) (funext fun m => ?_)
    simp only [Function.comp_apply, true_and]
    by_cases hretired : RetiredWith saleId storeId m
    · rw [retired, if_pos hretired, if_pos ⟨hretired.1, hretired.2.1⟩]
      rfl
    · rw [retired_of_not hretired]
      split_ifs with hnote
      · -- it was retired before
        have hgone : m.deletedAt ≠ none := fun hn => hretired ⟨hnote.1, hnote.2, hn⟩
        rw [Option.isNone_eq_false_iff.mpr (Option.isSome_iff_ne_none.mpr hgone)]
      · rfl
  | sales => rw [retire_of_ne _ (by decide)]; rfl
  | expenses => rw [retire_of_ne _ (by decide)]; rfl
  | withdrawals => rw [retire_of_ne _ (by decide)]; rfl

/-- Writing a sale makes it live; the movements it writes are drawn. -/
theorem agree_written {drawn : ℕ → Uuid} {sale : PreparedSale} {staffId : Option Uuid}
    (h : LinesWritten now drawn sale sale.lines 0 (readied now sale staffId db) db')
    (hlive : ∀ s, db.sales.find? sale.id = some s → s.storeId = sale.storeId ∧ s.deletedAt = none) :
    Agree (fun id => ∃ j, id = drawn j)
      ((cloudOf db).put .sales sale.id ⟨sale.storeId, true, none⟩) (cloudOf db') := by
  have hrow : (upsertedSale now sale staffId (db.sales.find? sale.id)).storeId = sale.storeId ∧
      (upsertedSale now sale staffId (db.sales.find? sale.id)).deletedAt = none := by
    cases hs : db.sales.find? sale.id with
    | none => exact ⟨rfl, rfl⟩
    | some s => exact hlive s hs
  have hput : (cloudOf db).put .sales sale.id ⟨sale.storeId, true, none⟩ =
      cloudOf (upsertSale now sale staffId db) := by
    rw [upsertSale, cloudOf_put_sale, hrow.1, hrow.2]
    rfl
  rw [hput]
  intro table id hid
  cases table with
  | products =>
    rw [cloudOf, cloudOf, h.products, Option.map_map]
    refine congrArg (Option.map · _) (funext fun p => ?_)
    rw [Function.comp_apply, deducted_storeId, deducted_deletedAt]
  | sales =>
    rw [cloudOf, cloudOf, h.sales]
    rfl
  | expenses =>
    rw [cloudOf, cloudOf, h.expenses]
    rfl
  | withdrawals =>
    rw [cloudOf, cloudOf, h.ownerWithdrawals]
    rfl
  | stockMovements =>
    rw [cloudOf, cloudOf]
    congr 1
    apply Option.ext
    intro m
    rw [h.stockMovements]
    constructor
    · exact Or.inr
    · rintro (⟨j, l, productId, -, -, rfl, -⟩ | hm)
      · exact absurd ⟨0 + j, rfl⟩ (hid rfl)
      · exact hm

/-- A row that carries a change of a movement. -/
theorem own_of_carries {contents : Contents α} {c : QueuedChange α} {row : PushRow}
    {drawn : Uuid → Prop} (hc : Carries contents c row) (hown : Own drawn row) (s id : Uuid)
    (hsaves : Saves (s, .stockMovements, id) (storeId, c)) : ¬drawn id := by
  unfold Saves savedRecord at hsaves
  cases row with
  | product request =>
    obtain ⟨he, -, content, hp⟩ := hc
    simp [hp, he, recordTable] at hsaves
  | sale request =>
    obtain ⟨he, -, content, hp⟩ := hc
    simp [hp, he, recordTable] at hsaves
  | movement request =>
    obtain ⟨he, hid, content, hp, -⟩ := hc
    simp only [hp, he, recordTable, Option.map_some, Option.some.injEq, Prod.mk.injEq,
      true_and] at hsaves
    exact hsaves.2 ▸ hown _ hid
  | expense request =>
    obtain ⟨he, -, content, hp⟩ := hc
    simp [hp, he, recordTable] at hsaves
  | withdrawal request =>
    obtain ⟨he, -, content, hp⟩ := hc
    simp [hp, he, recordTable] at hsaves
  | deletion request =>
    obtain ⟨entity, hp, -⟩ := hc
    simp [hp] at hsaves

/-- A product row is accepted. -/
theorem accepts_product {contents : Contents α} {c : QueuedChange α}
    {request : SaveProductRequest} {saved : Uuid × Product} {drawn : Uuid → Prop}
    (hc : Carries contents c (.product request))
    (h : save now storeId actor request db = .ok (saved, db')) :
    ∃ cloud', acceptChange contents (cloudOf db) (storeId, c) = some cloud' ∧
      Agree drawn cloud' (cloudOf db') := by
  obtain ⟨he, hid, content, hp⟩ := hc
  cases effect_of_save h with
  | saved may priced upserted coded effect =>
    rename_i row
    have hkey : savedId request db = c.row.entityId := by
      rw [savedId, hid]
      rfl
    rw [hkey] at upserted effect
    have hup := upsertRow_eq_some upserted
    have hown : ∀ r, cloudOf db .products c.row.entityId = some r → r.storeId = storeId := by
      intro r hr
      obtain ⟨p, hp, rfl⟩ := Option.map_eq_some_iff.mp hr
      exact hup.own p hp
    refine ⟨(cloudOf db).put .products c.row.entityId ⟨storeId, true, none⟩, ?_, ?_⟩
    · simp only [acceptChange, hp, he, recordTable, reduceCtorEq, if_false]
      exact acceptSaved_plain (by decide) (by decide) hown
    · rw [cloudOf_of_sameRows effect, cloudOf_put_product, hup.ofStore, hup.live]
      exact Agree.refl drawn _

/-- An expense row is accepted. -/
theorem accepts_expense {contents : Contents α} {c : QueuedChange α}
    {request : RecordExpenseRequest} {saved : Uuid × Expense} {drawn : Uuid → Prop}
    (hc : Carries contents c (.expense request))
    (h : ExpenseService.record now storeId actor request db = .ok (saved, db')) :
    ∃ cloud', acceptChange contents (cloudOf db) (storeId, c) = some cloud' ∧
      Agree drawn cloud' (cloudOf db') := by
  obtain ⟨he, hid, content, hp⟩ := hc
  cases effect_of_expense h with
  | spent may named category upserted effect =>
    rename_i id values row
    have hkey : id = c.row.entityId := by
      rw [named, hid]
      rfl
    subst hkey
    have hrow : row.storeId = storeId ∧ row.deletedAt = none ∧
        ∀ e, db.expenses.find? c.row.entityId = some e → e.storeId = storeId := by
      cases hfound : db.expenses.find? c.row.entityId with
      | none =>
        rw [hfound] at upserted
        cases upserted
        exact ⟨rfl, rfl, fun e he => by cases he⟩
      | some e =>
        rw [hfound, ExpenseService.upsertRow] at upserted
        split_ifs at upserted with hmay
        cases upserted
        exact ⟨hmay.1, rfl, fun e' he' => by cases he'; exact hmay.1⟩
    have hown : ∀ r, cloudOf db .expenses c.row.entityId = some r → r.storeId = storeId := by
      intro r hr
      obtain ⟨e, hfound, rfl⟩ := Option.map_eq_some_iff.mp hr
      exact hrow.2.2 e hfound
    refine ⟨(cloudOf db).put .expenses c.row.entityId ⟨storeId, true, none⟩, ?_, ?_⟩
    · simp only [acceptChange, hp, he, recordTable, reduceCtorEq, if_false]
      exact acceptSaved_plain (by decide) (by decide) hown
    · rw [cloudOf_of_sameRows effect, cloudOf_put_expense, hrow.1, hrow.2.1]
      exact Agree.refl drawn _

/-- A withdrawal row is accepted. -/
theorem accepts_withdrawal {contents : Contents α} {c : QueuedChange α}
    {request : RecordWithdrawalRequest} {saved : Uuid × OwnerWithdrawal} {drawn : Uuid → Prop}
    (hc : Carries contents c (.withdrawal request))
    (h : WithdrawalService.record now storeId actor request db = .ok (saved, db')) :
    ∃ cloud', acceptChange contents (cloudOf db) (storeId, c) = some cloud' ∧
      Agree drawn cloud' (cloudOf db') := by
  obtain ⟨he, hid, content, hp⟩ := hc
  cases effect_of_withdrawal h with
  | withdrawn may named upserted effect =>
    rename_i id values row
    have hkey : id = c.row.entityId := by
      rw [named, hid]
      rfl
    subst hkey
    have hrow : row.storeId = storeId ∧ row.deletedAt = none ∧
        ∀ w, db.ownerWithdrawals.find? c.row.entityId = some w → w.storeId = storeId := by
      cases hfound : db.ownerWithdrawals.find? c.row.entityId with
      | none =>
        rw [hfound] at upserted
        cases upserted
        exact ⟨rfl, rfl, fun w hw => by cases hw⟩
      | some w =>
        rw [hfound, WithdrawalService.upsertRow] at upserted
        split_ifs at upserted with hmay
        cases upserted
        exact ⟨hmay, rfl, fun w' hw' => by cases hw'; exact hmay⟩
    have hown : ∀ r, cloudOf db .withdrawals c.row.entityId = some r → r.storeId = storeId := by
      intro r hr
      obtain ⟨w, hfound, rfl⟩ := Option.map_eq_some_iff.mp hr
      exact hrow.2.2 w hfound
    refine ⟨(cloudOf db).put .withdrawals c.row.entityId ⟨storeId, true, none⟩, ?_, ?_⟩
    · simp only [acceptChange, hp, he, recordTable, reduceCtorEq, if_false]
      exact acceptSaved_plain (by decide) (by decide) hown
    · rw [cloudOf_of_sameRows effect, cloudOf_put_withdrawal, hrow.1, hrow.2.1]
      exact Agree.refl drawn _

/-- A sale row is accepted; a voided sale stays voided. -/
theorem accepts_sale {contents : Contents α} {c : QueuedChange α} {request : RecordSaleRequest}
    {detail : SaleDetail} (hc : Carries contents c (.sale request))
    (h : SaleService.record now storeId actor request db = .ok (detail, db')) :
    ∃ cloud', acceptChange contents (cloudOf db) (storeId, c) = some cloud' ∧
      Agree (fun id => ∃ j, id = Uuid.newV4 db.stockMovements j) cloud' (cloudOf db') := by
  obtain ⟨he, hid, content, hp⟩ := hc
  cases effect_of_sale h with
  | sold asked recorded effect =>
    rename_i sale db₁
    have hkey : sale.id = c.row.entityId := by
      rw [asked.id, hid]
      rfl
    rw [cloudOf_of_sameRows effect]
    simp only [acceptChange, hp, he, recordTable, reduceCtorEq, if_false, acceptSaved]
    rw [← hkey, ← asked.ofStore]
    cases recorded with
    | voided existing stored own gone same =>
      have hcloud : cloudOf db .sales sale.id = some ⟨existing.storeId, false, none⟩ := by
        rw [cloudOf, stored, Option.map_some, Option.isNone_eq_false_iff.mpr]
        exact Option.isSome_iff_ne_none.mpr gone
      rw [hcloud]
      exact ⟨cloudOf db, by simp [own], by rw [same]; exact Agree.refl _ _⟩
    | new unknown writable written =>
      have hcloud : cloudOf db .sales sale.id = none := by rw [cloudOf, unknown, Option.map_none]
      rw [hcloud]
      refine ⟨_, rfl, agree_written written fun s hs => ?_⟩
      rw [unknown] at hs
      cases hs
    | again existing stored own live may writable written =>
      have hcloud : cloudOf db .sales sale.id = some ⟨existing.storeId, true, none⟩ := by
        rw [cloudOf, stored, Option.map_some, live]
        rfl
      have hundone : ∀ s, (undoSale now sale.id sale.storeId db).sales.find? sale.id = some s →
          s.storeId = sale.storeId ∧ s.deletedAt = none := by
        intro s hs
        have he : some existing = some s := stored.symm.trans hs
        cases he
        exact ⟨own, live⟩
      rw [hcloud]
      refine ⟨(retire sale.storeId sale.id (cloudOf db)).put .sales sale.id
        ⟨sale.storeId, true, none⟩, by simp [own], ?_⟩
      rw [← cloudOf_undoSale now]
      exact agree_written written hundone

theorem cloudOf_put_movement (products : Table Uuid Product) (row : StockMovement)
    (hsame : ∀ id, (products.find? id).map (fun p => (p.storeId, p.deletedAt)) =
      (db.products.find? id).map fun p => (p.storeId, p.deletedAt)) :
    cloudOf { db with
        stockMovements := db.stockMovements.put id row
        products := products } =
      (cloudOf db).put .stockMovements id ⟨row.storeId, row.deletedAt.isNone, row.note⟩ := by
  funext table id'
  by_cases hkey : table = .stockMovements ∧ id' = id
  · obtain ⟨rfl, rfl⟩ := hkey
    simp [cloudOf, put_self]
  · rw [put_of_ne _ hkey]
    cases table with
    | stockMovements => simp [cloudOf, Table.find?_put_ne _ _ fun he => hkey ⟨rfl, he⟩]
    | products =>
      have h := congrArg (Option.map fun x : Uuid × Option Timestamp =>
        (⟨x.1, x.2.isNone, none⟩ : CloudRow)) (hsame id')
      rw [Option.map_map, Option.map_map] at h
      exact h
    | sales => rfl
    | expenses => rfl
    | withdrawals => rfl

/-- A movement row is accepted; a known movement stays as it is. -/
theorem accepts_movement {contents : Contents α} {c : QueuedChange α}
    {request : RecordMovementRequest} {drawn : Uuid → Prop}
    (hc : Carries contents c (.movement request))
    (h : InventoryService.record now storeId actor request db = .ok db') :
    ∃ cloud', acceptChange contents (cloudOf db) (storeId, c) = some cloud' ∧
      Agree drawn cloud' (cloudOf db') := by
  obtain ⟨he, hid, content, hp, hnote⟩ := hc
  obtain ⟨_, -, h⟩ := bind_eq_ok.mp h
  obtain ⟨⟨kind, effect⟩, heffect, h⟩ := bind_eq_ok.mp h
  dsimp only at h
  split_ifs at h
  obtain ⟨⟨moved, db₁⟩, hmove, h⟩ := bind_eq_ok.mp h
  have hkey : (entryOf now storeId actor request kind effect db).movementId = c.row.entityId := by
    change request.id.getD _ = _
    rw [hid]
    rfl
  simp only [acceptChange, hp, he, recordTable, if_true, acceptSaved]
  obtain ⟨q, hq, ⟨hknown, rfl, hdb⟩ | ⟨hnew, rfl, hdb⟩⟩ := recordMovement_eq_ok.mp hmove
  · rw [hkey] at hknown
    obtain ⟨m, hm⟩ := Option.isSome_iff_exists.mp hknown
    have hcloud : cloudOf db .stockMovements c.row.entityId =
        some ⟨m.storeId, m.deletedAt.isNone, m.note⟩ := by rw [cloudOf, hm, Option.map_some]
    rw [hcloud]
    refine ⟨cloudOf db, rfl, ?_⟩
    rw [hdb] at h
    cases h
    exact Agree.refl _ _
  · rw [hkey] at hnew
    have hcloud : cloudOf db .stockMovements c.row.entityId = none := by
      rw [cloudOf, hnew, Option.map_none]
    rw [hcloud]
    refine ⟨_, rfl, ?_⟩
    obtain ⟨events, hlog⟩ := logMovement_eq now actor
      (entryOf now storeId actor request kind effect db) (quantityFromF64 request.quantity)
      (some ⟨q.name, (entryOf now storeId actor request kind effect db).effect.delta
        q.stockQuantity⟩) db₁
    have hrows : SameRows db₁ db' := by
      rw [hlog] at h
      cases h
      rfl
    have hfound : db.products.find? request.productId = some q := (find_eq_some.mp hq).1
    have hcloud' : cloudOf db₁ = (cloudOf db).put .stockMovements c.row.entityId
        ⟨storeId, true, contents.note content⟩ := by
      rw [hdb, hkey, hnote]
      exact cloudOf_put_movement
        (db.products.put request.productId (movedProduct now (effect.delta q.stockQuantity)
          (entryOf now storeId actor request kind effect db).unitCost q))
        (ledgerRow now (entryOf now storeId actor request kind effect db)
          (effect.delta q.stockQuantity)) fun id => by
            by_cases hsame : id = request.productId
            · subst hsame
              rw [Table.find?_put_self, hfound]
              rfl
            · rw [Table.find?_put_ne _ _ hsame]
    rw [cloudOf_of_sameRows hrows, hcloud']
    exact Agree.refl drawn _

/-- A record is live in its store where the database has it so. -/
theorem live_cloudOf {ρ : Type} {t : Table Uuid ρ} {record : CloudRecord} {store : ρ → Uuid}
    {deletedAt : ρ → Option Timestamp} {note : ρ → Option String}
    (h : cloudOf db record.2.1 record.2.2 =
      (t.find? record.2.2).map fun r => ⟨store r, (deletedAt r).isNone, note r⟩) :
    Live (cloudOf db) record ↔
      ((t.find? record.2.2).filter fun r => store r == record.1 && (deletedAt r).isNone).isSome := by
  rw [Live, h]
  cases t.find? record.2.2 with
  | none => simp
  | some r => simp [Option.filter]

/-- What a deletion of a sale leaves. -/
theorem delete_sale {request : DeletionRequest} (he : request.entity = "sale")
    (h : delete now storeId actor request db = .ok db') :
    (findLive storeId request.id db = none ∧ db' = db) ∨
      ∃ s, findLive storeId request.id db = some s ∧
        SameRows (undoSale now request.id storeId (markVoided now request.id s db)) db' := by
  rw [delete, removeEntity, if_pos he, SaleService.void, Actor.require] at h
  split_ifs at h
  · cases hfound : findLive storeId request.id db with
    | none =>
      rw [SaleRepository.void, hfound] at h
      cases h
      exact Or.inl ⟨rfl, rfl⟩
    | some s =>
      rw [SaleRepository.void, hfound] at h
      cases h
      exact Or.inr ⟨s, rfl, rfl⟩
  · cases h

/-- What a deletion of an expense leaves. -/
theorem delete_expense {request : DeletionRequest} (he : request.entity = "expense")
    (h : delete now storeId actor request db = .ok db') :
    (ExpenseService.findLive storeId request.id db = none ∧ db' = db) ∨
      ∃ e, ExpenseService.findLive storeId request.id db = some e ∧
        SameRows { db with
          expenses := db.expenses.put request.id
            { e with deletedAt := some now, updatedAt := now } } db' := by
  rw [delete, removeEntity, if_neg (by rw [he]; decide), if_pos he, ExpenseService.remove,
    Actor.require] at h
  split_ifs at h
  · cases hfound : ExpenseService.findLive storeId request.id db with
    | none =>
      rw [ExpenseService.softDelete, hfound] at h
      cases h
      exact Or.inl ⟨rfl, rfl⟩
    | some e =>
      rw [ExpenseService.softDelete, hfound] at h
      cases h
      exact Or.inr ⟨e, rfl, rfl⟩
  · cases h

/-- What a deletion of a withdrawal leaves. -/
theorem delete_withdrawal {request : DeletionRequest} (he : request.entity = "withdrawal")
    (h : delete now storeId actor request db = .ok db') :
    (WithdrawalService.findLive storeId request.id db = none ∧ db' = db) ∨
      ∃ w, WithdrawalService.findLive storeId request.id db = some w ∧
        SameRows { db with
          ownerWithdrawals := db.ownerWithdrawals.put request.id
            { w with deletedAt := some now, updatedAt := now } } db' := by
  rw [delete, removeEntity, if_neg (by rw [he]; decide), if_neg (by rw [he]; decide), if_pos he,
    WithdrawalService.remove, Actor.requireOwner] at h
  split_ifs at h
  · cases hfound : WithdrawalService.findLive storeId request.id db with
    | none =>
      rw [WithdrawalService.softDelete, hfound] at h
      cases h
      exact Or.inl ⟨rfl, rfl⟩
    | some w =>
      rw [WithdrawalService.softDelete, hfound] at h
      cases h
      exact Or.inr ⟨w, rfl, rfl⟩
  · cases h

/-- What a deletion of a product leaves. -/
theorem delete_product {request : DeletionRequest} (he : request.entity = "product")
    (h : delete now storeId actor request db = .ok db') :
    (find storeId request.id db = none ∧ db' = db) ∨
      ∃ p, find storeId request.id db = some p ∧
        SameRows { db with
          products := db.products.put request.id
            { p with deletedAt := some now, isActive := false, updatedAt := now } } db' := by
  rw [delete, removeEntity, if_neg (by rw [he]; decide), if_neg (by rw [he]; decide),
    if_neg (by rw [he]; decide), if_pos he, ProductService.remove, Actor.require] at h
  split_ifs at h
  · cases hfound : find storeId request.id db with
    | none =>
      rw [softDelete, hfound] at h
      cases h
      exact Or.inl ⟨rfl, rfl⟩
    | some p =>
      rw [softDelete, hfound] at h
      cases h
      exact Or.inr ⟨p, rfl, rfl⟩
  · cases h

/-- A deletion row is accepted. -/
theorem accepts_deletion {contents : Contents α} {c : QueuedChange α} {request : DeletionRequest}
    {drawn : Uuid → Prop} (hc : Carries contents c (.deletion request))
    (h : delete now storeId actor request db = .ok db') :
    ∃ cloud', acceptChange contents (cloudOf db) (storeId, c) = some cloud' ∧
      Agree drawn cloud' (cloudOf db') := by
  obtain ⟨entity, hp, he⟩ := hc
  simp only [acceptChange, hp]
  refine ⟨_, rfl, ?_⟩
  unfold acceptRemoved
  cases entity with
  | sale =>
    have hlive : Live (cloudOf db) (storeId, deletedTable .sale, request.id) ↔
        (findLive storeId request.id db).isSome :=
      @live_cloudOf db Sale db.sales (storeId, .sales, request.id) Sale.storeId Sale.deletedAt
        (fun _ => none) rfl
    rcases delete_sale he h with ⟨hnone, rfl⟩ | ⟨s, hs, hrows⟩
    · rw [if_neg (by rw [hlive, hnone]; exact Bool.false_ne_true)]
      exact Agree.refl drawn _
    · rw [if_pos (by rw [hlive, hs]; rfl), cloudOf_of_sameRows hrows, cloudOf_undoSale, markVoided,
        cloudOf_put_sale, retire_put _ _ (by decide)]
      dsimp only
      rw [(findLive_eq_some.mp hs).2.1]
      exact Agree.refl drawn _
  | expense =>
    have hlive : Live (cloudOf db) (storeId, deletedTable .expense, request.id) ↔
        (ExpenseService.findLive storeId request.id db).isSome :=
      @live_cloudOf db Expense db.expenses (storeId, .expenses, request.id) Expense.storeId
        Expense.deletedAt (fun _ => none) rfl
    rcases delete_expense he h with ⟨hnone, rfl⟩ | ⟨e, hfound, hrows⟩
    · rw [if_neg (by rw [hlive, hnone]; exact Bool.false_ne_true)]
      exact Agree.refl drawn _
    · have hstore : e.storeId = storeId := by
        have hf := Option.filter_eq_some_iff.mp hfound
        simp only [Bool.and_eq_true, beq_iff_eq] at hf
        exact hf.2.1
      rw [if_pos (by rw [hlive, hfound]; rfl), if_neg (by decide), cloudOf_of_sameRows hrows,
        cloudOf_put_expense]
      dsimp only
      rw [hstore]
      exact Agree.refl drawn _
  | withdrawal =>
    have hlive : Live (cloudOf db) (storeId, deletedTable .withdrawal, request.id) ↔
        (WithdrawalService.findLive storeId request.id db).isSome :=
      @live_cloudOf db OwnerWithdrawal db.ownerWithdrawals (storeId, .withdrawals, request.id)
        OwnerWithdrawal.storeId OwnerWithdrawal.deletedAt (fun _ => none) rfl
    rcases delete_withdrawal he h with ⟨hnone, rfl⟩ | ⟨w, hfound, hrows⟩
    · rw [if_neg (by rw [hlive, hnone]; exact Bool.false_ne_true)]
      exact Agree.refl drawn _
    · have hstore : w.storeId = storeId := by
        have hf := Option.filter_eq_some_iff.mp hfound
        simp only [Bool.and_eq_true, beq_iff_eq] at hf
        exact hf.2.1
      rw [if_pos (by rw [hlive, hfound]; rfl), if_neg (by decide), cloudOf_of_sameRows hrows,
        cloudOf_put_withdrawal]
      dsimp only
      rw [hstore]
      exact Agree.refl drawn _
  | product =>
    have hlive : Live (cloudOf db) (storeId, deletedTable .product, request.id) ↔
        (find storeId request.id db).isSome :=
      @live_cloudOf db Product db.products (storeId, .products, request.id) Product.storeId
        Product.deletedAt (fun _ => none) rfl
    rcases delete_product he h with ⟨hnone, rfl⟩ | ⟨p, hfound, hrows⟩
    · rw [if_neg (by rw [hlive, hnone]; exact Bool.false_ne_true)]
      exact Agree.refl drawn _
    · rw [if_pos (by rw [hlive, hfound]; rfl), if_neg (by decide), cloudOf_of_sameRows hrows,
        cloudOf_put_product]
      dsimp only
      rw [(find_eq_some.mp hfound).2.1]
      exact Agree.refl drawn _

/-- A row that is applied does to the cloud what accepting its change does. -/
theorem accepts_of_apply {contents : Contents α} {c : QueuedChange α} {row : PushRow}
    {rowId : Option Uuid} {drawn : Uuid → Prop} (hc : Carries contents c row)
    (h : row.apply now storeId actor db = .ok (rowId, db')) :
    ∃ cloud', acceptChange contents (cloudOf db) (storeId, c) = some cloud' ∧
      Agree (drawnAfter drawn db row) cloud' (cloudOf db') := by
  cases row with
  | product request =>
    obtain ⟨saved, hr⟩ := PushRow.apply_eq_ok h
    exact accepts_product hc hr
  | sale request =>
    obtain ⟨detail, hr⟩ := PushRow.apply_eq_ok h
    obtain ⟨cloud', haccept, hagree⟩ := accepts_sale hc hr
    exact ⟨cloud', haccept, hagree.mono fun id hid => Or.inr hid⟩
  | movement request => exact accepts_movement hc (PushRow.apply_eq_ok h)
  | expense request =>
    obtain ⟨saved, hr⟩ := PushRow.apply_eq_ok h
    exact accepts_expense hc hr
  | withdrawal request =>
    obtain ⟨saved, hr⟩ := PushRow.apply_eq_ok h
    exact accepts_withdrawal hc hr
  | deletion request =>
    obtain ⟨db₁, hr, he⟩ := map_eq_ok.mp h
    cases he
    exact accepts_deletion hc hr

end

/-- Lists that correspond are sorted alike. -/
theorem forall₂_insertionSort {β γ : Type*} {R : β → γ → Prop} {r : β → β → Prop}
    {s : γ → γ → Prop} [DecidableRel r] [DecidableRel s]
    (hrs : ∀ b c b' c', R b c → R b' c' → (r b b' ↔ s c c')) {bs : List β} {cs : List γ}
    (h : List.Forall₂ R bs cs) : List.Forall₂ R (bs.insertionSort r) (cs.insertionSort s) := by
  have hinsert : ∀ {b c} {bs : List β} {cs : List γ}, R b c → List.Forall₂ R bs cs →
      List.Forall₂ R (bs.orderedInsert r b) (cs.orderedInsert s c) := by
    intro b c bs cs hbc h
    induction h with
    | nil => exact .cons hbc .nil
    | @cons b' c' bs cs hbc' hrest ih =>
      rw [List.orderedInsert, List.orderedInsert]
      by_cases hle : r b b'
      · rw [if_pos hle, if_pos ((hrs b c b' c' hbc hbc').mp hle)]
        exact .cons hbc (.cons hbc' hrest)
      · rw [if_neg hle, if_neg (mt (hrs b c b' c' hbc hbc').mpr hle)]
        exact .cons hbc' ih
  induction h with
  | nil => exact .nil
  | cons hbc hrest ih => exact hinsert hbc ih

/-- A request carries the changes of a batch for a store, kind by kind. -/
structure CarriesAll (contents : Contents α) (now : Timestamp) (changes : List (QueuedChange α))
    (request : PushRequest) : Prop where
  /-- Its products. -/
  products : List.Forall₂ (fun c r => Carries contents c (.product r))
    (changes.filter fun c => c.row.entity = .products) request.products
  /-- Its sales, with their dates. -/
  sales : List.Forall₂ (fun c r => Carries contents c (.sale r) ∧
      happenedAt contents c = r.occurredAt.getD now)
    (changes.filter fun c => c.row.entity = .sales) request.sales
  /-- Its movements, with theirs. -/
  stockMovements : List.Forall₂ (fun c r => Carries contents c (.movement r) ∧
      happenedAt contents c = r.occurredAt.getD now)
    (changes.filter fun c => c.row.entity = .stockMovements) request.stockMovements
  /-- Its expenses. -/
  expenses : List.Forall₂ (fun c r => Carries contents c (.expense r))
    (changes.filter fun c => c.row.entity = .expenses) request.expenses
  /-- Its withdrawals. -/
  withdrawals : List.Forall₂ (fun c r => Carries contents c (.withdrawal r))
    (changes.filter fun c => c.row.entity = .withdrawals) request.withdrawals
  /-- Its removals. -/
  deletions : List.Forall₂ (fun c r => Carries contents c (.deletion r))
    (changes.filter fun c => c.row.entity = .deletions) request.deletions

/-- The server applies the rows of a request in the order of their changes. -/
theorem carries_rows {contents : Contents α} {now : Timestamp} {changes : List (QueuedChange α)}
    {request : PushRequest} (h : CarriesAll contents now changes request) :
    List.Forall₂ (Carries contents) (applied contents changes) (SyncPush.rows now request) := by
  have hevents : List.Forall₂ (fun c e => Carries contents c (.ofEvent e) ∧
      happenedAt contents c = e.occurredAt now)
      ((changes.filter fun c => c.row.entity = .sales) ++
        changes.filter fun c => c.row.entity = .stockMovements)
      (request.sales.map StockEvent.sale ++ request.stockMovements.map StockEvent.movement) :=
    List.rel_append (List.forall₂_map_right_iff.mpr h.sales)
      (List.forall₂_map_right_iff.mpr h.stockMovements)
  have htimeline : List.Forall₂ (fun c e => Carries contents c (.ofEvent e) ∧
      happenedAt contents c = e.occurredAt now) _ (intoTimeline now request.sales request.stockMovements) :=
    forall₂_insertionSort (r := fun a b => happenedAt contents a ≤ happenedAt contents b)
      (fun b c b' c' hbc hbc' => by rw [hbc.2, hbc'.2]; rfl) hevents
  unfold applied SyncPush.rows
  refine List.rel_append (List.rel_append (List.rel_append (List.rel_append ?_ ?_) ?_) ?_) ?_
  · exact List.forall₂_map_right_iff.mpr h.products
  · exact List.forall₂_map_right_iff.mpr (htimeline.imp fun _ _ hc => hc.1)
  · exact List.forall₂_map_right_iff.mpr h.expenses
  · exact List.forall₂_map_right_iff.mpr h.withdrawals
  · exact List.forall₂_map_right_iff.mpr h.deletions

/-- Rows that the server applies, one after another, leave what accepting their
changes leaves, but for the movements it drew. -/
theorem accepted_of_run {contents : Contents α} {db db' : Db} {drawn drawn' : Uuid → Prop}
    {sent : List (Uuid × QueuedChange α)} (h : AcceptedRun contents db drawn sent db' drawn')
    {cloud : Cloud} (hagree : Agree drawn cloud (cloudOf db)) :
    ∃ cloud', sent.foldlM (acceptChange contents) cloud = some cloud' ∧
      Agree drawn' cloud' (cloudOf db') := by
  induction h generalizing cloud with
  | nil => exact ⟨cloud, rfl, hagree⟩
  | @cons now storeId actor c row db db₁ db' drawn drawn' id rest hcarries hown happly others ih =>
    have happlied : ∃ after, acceptChange contents (cloudOf db) (storeId, c) = some after ∧
        Agree (drawnAfter drawn db row) after (cloudOf db₁) := accepts_of_apply hcarries happly
    obtain ⟨after, hafter, hsame⟩ := happlied
    obtain ⟨mid, hmid, hclose⟩ := hagree.acceptChange
      (fun s id hsaves => own_of_carries hcarries hown s id hsaves) hafter
    have hsub : ∀ id, drawn id → drawnAfter drawn db row id := by
      intro id hid
      cases row with
      | sale request => exact Or.inl hid
      | product request => exact hid
      | movement request => exact hid
      | expense request => exact hid
      | withdrawal request => exact hid
      | deletion request => exact hid
    obtain ⟨cloud', hrest, hdone⟩ := ih ((hclose.mono hsub).trans hsame)
    exact ⟨cloud', by rw [List.foldlM_cons, hmid]; exact hrest, hdone⟩

/-- A record is live in the database once the server applied every row that
waited, exactly if what waited leaves it live. -/
theorem live_of_accepted_run {contents : Contents α} {activeStoreId : Uuid} {q : Queue α}
    {db db' : Db} {drawn : Uuid → Prop}
    (h : AcceptedRun contents db (fun _ => False) (uploads contents activeStoreId q) db' drawn)
    {record : CloudRecord} (hown : record.2.1 = .stockMovements → ¬drawn record.2.2) :
    Live (cloudOf db') record ↔
      SentLive contents (cloudOf db) (uploads contents activeStoreId q) record := by
  obtain ⟨cloud', haccepted, hagree⟩ := accepted_of_run h (Agree.refl _ (cloudOf db))
  rw [← live_run haccepted]
  exact (live_of_eq (hagree record.2.1 record.2.2 hown)).symm

end Kitaza.CloudAcceptance
