import Kitaza.DeletionFinality

/-!
# What the activity log accounts for

The run is that of pushes from any phones, row after row. Each row writes at
most one event. A record that comes into being, comes back or goes has exactly
one, which names whoever sent the row; a record that stays as it is has none
that says so. The rows that break this are the expenses and withdrawals that
bring a removed record back: they write nothing.
-/

namespace Kitaza.ActivityLog

open KeyedTable Primitives Access Schema Payloads ProductService SaleRepository SaleService
  SaleEffects InventoryService SyncPush RowEffects Catalogue DeletionFinality

/-- Where a record is in its life. -/
inductive Status where
  | absent
  | live
  | deleted
  deriving DecidableEq, Repr

/-- The status of a row, by its deletion mark. -/
def statusOf : Option (Option Timestamp) → Status
  | none => .absent
  | some none => .live
  | some (some _) => .deleted

/-- The deletion mark of a record, if there is a row. -/
def mark (db : Db) (id : Uuid) : Deletable → Option (Option Timestamp)
  | .product => (db.products.find? id).map Product.deletedAt
  | .sale => (db.sales.find? id).map Sale.deletedAt
  | .expense => (db.expenses.find? id).map Expense.deletedAt
  | .withdrawal => (db.ownerWithdrawals.find? id).map OwnerWithdrawal.deletedAt

/-- The status of a record. -/
def status (db : Db) (id : Uuid) (kind : Deletable) : Status := statusOf (mark db id kind)

/-- The kind of record an action is about. -/
def recordOf : AuditAction → Deletable
  | .saleRecorded => .sale
  | .saleVoided => .sale
  | .expenseRecorded => .expense
  | .expenseDeleted => .expense
  | .withdrawalRecorded => .withdrawal
  | .withdrawalDeleted => .withdrawal
  | .productAdded => .product
  | .productChanged => .product
  | .productRemoved => .product
  | .stockReceived => .product
  | .stockRemoved => .product
  | .stockCounted => .product
  | .stockSpoiled => .product

/-- What an action says has become of the record; absent where it says nothing
of the kind. -/
def saysStatus : AuditAction → Option Status
  | .saleRecorded => some .live
  | .saleVoided => some .deleted
  | .expenseRecorded => some .live
  | .expenseDeleted => some .deleted
  | .withdrawalRecorded => some .live
  | .withdrawalDeleted => some .deleted
  | .productAdded => some .live
  | .productRemoved => some .deleted
  | _ => none

/-- An event is about a record. -/
def About (id : Uuid) (kind : Deletable) (e : AuditEvent) : Bool :=
  e.entry.entityId == id && recordOf e.entry.action == kind

/-- An event names whoever acted. -/
def NamesActor (actor : Actor) (e : AuditEvent) : Prop :=
  e.ownerId = actor.ownerId ∧ e.staffId = actor.staffId ∧ e.actorName = actor.name ∧
    e.deviceName = actor.deviceName

/-- What a row writes to the log accounts for what it does: one event for each
record whose status changes, which says so and names the sender; and none that
says so of a record whose status does not change. -/
def Accounted (sent : SentRow) (db : Db) : Prop :=
  ∃ news, (sent.apply db).auditEvents = db.auditEvents ++ news ∧ ∀ id kind,
    (status (sent.apply db) id kind = status db id kind →
      ∀ e ∈ news, About id kind e = true → saysStatus e.entry.action = none) ∧
    (status (sent.apply db) id kind ≠ status db id kind → ∃ e, news.filter (About id kind) = [e] ∧
      NamesActor sent.actor e ∧ e.entry.storeId = sent.storeId ∧
        saysStatus e.entry.action = some (status (sent.apply db) id kind))

/-- Every row of a run is accounted for. -/
def AccountedRun (db : Db) (sent : List SentRow) : Prop :=
  ∀ before row rest, sent = before ++ row :: rest → Accounted row (runRows db before)

/-- A row brings a removed expense or withdrawal back. -/
def RevivesUnseen (sent : SentRow) (db : Db) : Prop :=
  match sent.row with
  | .expense _ => ∃ id, sent.Revives db id
  | .withdrawal _ => ∃ id, sent.Revives db id
  | _ => False

/-- The event of an entry. -/
def eventOf (now : Timestamp) (actor : Actor) (entry : AuditEntry) : AuditEvent :=
  ⟨actor.ownerId, actor.staffId, actor.name, actor.deviceName, entry, now⟩

/-- The log has an entry more, if there is one. -/
def Logs (now : Timestamp) (actor : Actor) (db db' : Db) (entry : Option AuditEntry) : Prop :=
  db'.auditEvents = db.auditEvents ++ (entry.map (eventOf now actor)).toList

/-- An entry says what has become of one record, and nothing has of any
other. -/
structure Explains (storeId : Uuid) (db db' : Db) (entry : Option AuditEntry) (id : Uuid)
    (kind : Deletable) : Prop where
  /-- The other records stay as they are. -/
  others : ∀ other otherKind, ¬ (other = id ∧ otherKind = kind) →
    status db' other otherKind = status db other otherKind
  /-- The entry is about the record, in the store. -/
  about : ∀ e, entry = some e → e.entityId = id ∧ recordOf e.action = kind ∧ e.storeId = storeId
  /-- It says nothing of the record's status if that stays as it is. -/
  same : status db' id kind = status db id kind → ∀ e, entry = some e → saysStatus e.action = none
  /-- It says the new one if not. -/
  other : status db' id kind ≠ status db id kind →
    ∃ e, entry = some e ∧ saysStatus e.action = some (status db' id kind)

variable {now : Timestamp} {storeId : Uuid} {actor : Actor} {db db' : Db}

theorem accounted_of_explains {row : PushRow} {entry : Option AuditEntry} {id : Uuid}
    {kind : Deletable} (happly : SentRow.apply ⟨now, storeId, actor, row⟩ db = db')
    (hlogs : Logs now actor db db' entry) (h : Explains storeId db db' entry id kind) :
    Accounted ⟨now, storeId, actor, row⟩ db := by
  refine ⟨_, happly ▸ hlogs, fun other otherKind => ⟨?_, ?_⟩⟩
  · rw [happly]
    intro hsame e he habout
    obtain ⟨entry', hentry', rfl⟩ := Option.map_eq_some_iff.mp (Option.mem_toList.mp he)
    obtain ⟨hid, hkind, _⟩ := h.about entry' hentry'
    obtain ⟨hother, hotherKind⟩ := Bool.and_eq_true_iff.mp habout
    have hrecord : other = id := (beq_iff_eq.mp hother).symm.trans hid
    have hrecordKind : otherKind = kind := (beq_iff_eq.mp hotherKind).symm.trans hkind
    rw [hrecord, hrecordKind] at hsame
    exact h.same hsame entry' hentry'
  · rw [happly]
    intro hchanged
    have hrecord : other = id ∧ otherKind = kind := by
      by_contra hne
      exact hchanged (h.others other otherKind hne)
    obtain ⟨rfl, rfl⟩ := hrecord
    obtain ⟨entry', hentry', htold⟩ := h.other hchanged
    obtain ⟨hid, hkind, hstore⟩ := h.about entry' hentry'
    refine ⟨eventOf now actor entry', ?_, ⟨rfl, rfl, rfl, rfl⟩, hstore, htold⟩
    have habout : About other otherKind (eventOf now actor entry') = true :=
      Bool.and_eq_true_iff.mpr ⟨beq_iff_eq.mpr hid, beq_iff_eq.mpr hkind⟩
    rw [hentry', Option.map_some, Option.toList_some, List.filter_cons_of_pos habout,
      List.filter_nil]

/-- A row that leaves every record as it is and says nothing of any is accounted
for. -/
theorem accounted_of_same {row : PushRow} {entry : Option AuditEntry}
    (happly : SentRow.apply ⟨now, storeId, actor, row⟩ db = db')
    (hlogs : Logs now actor db db' entry)
    (hsame : ∀ id kind, status db' id kind = status db id kind)
    (hsilent : ∀ e, entry = some e → saysStatus e.action = none) :
    Accounted ⟨now, storeId, actor, row⟩ db := by
  refine ⟨_, happly ▸ hlogs, fun id kind => ⟨?_, ?_⟩⟩
  · intro _ e he _
    obtain ⟨entry', hentry', rfl⟩ := Option.map_eq_some_iff.mp (Option.mem_toList.mp he)
    exact hsilent entry' hentry'
  · rw [happly]
    exact fun hchanged => absurd (hsame id kind) hchanged

theorem logs_recordAudit (entry : AuditEntry) (h : db'.auditEvents = db.auditEvents) :
    Logs now actor db (recordAudit now actor entry db') (some entry) := by
  rw [Logs, recordAudit, h]
  rfl

theorem logs_recordAudit? (entry : Option AuditEntry) (h : db'.auditEvents = db.auditEvents) :
    Logs now actor db (recordAudit? now actor entry db') entry := by
  cases entry with
  | none =>
    rw [Logs, recordAudit?, h]
    exact (List.append_nil _).symm
  | some entry => exact logs_recordAudit entry h

theorem logs_nothing (h : db'.auditEvents = db.auditEvents) : Logs now actor db db' none := by
  rw [Logs, h]
  exact (List.append_nil _).symm

/-- What logging leaves as it is. -/
theorem status_sameRows {db₁ : Db} (h : SameRows db₁ db') (id : Uuid) (kind : Deletable) :
    status db' id kind = status db₁ id kind := by
  rw [h]
  cases kind <;> rfl

theorem status_put_product (db : Db) (key : Uuid) (row : Product) (id : Uuid) (kind : Deletable) :
    status { db with products := db.products.put key row } id kind =
      if id = key ∧ kind = .product then statusOf (some row.deletedAt) else status db id kind := by
  cases kind <;> simp only [status, mark, Table.find?_put, reduceCtorEq, and_false, if_false, and_true]
  split_ifs <;> rfl

theorem status_put_sale (db : Db) (key : Uuid) (row : Sale) (id : Uuid) (kind : Deletable) :
    status { db with sales := db.sales.put key row } id kind =
      if id = key ∧ kind = .sale then statusOf (some row.deletedAt) else status db id kind := by
  cases kind <;> simp only [status, mark, Table.find?_put, reduceCtorEq, and_false, if_false, and_true]
  split_ifs <;> rfl

theorem status_put_expense (db : Db) (key : Uuid) (row : Expense) (id : Uuid) (kind : Deletable) :
    status { db with expenses := db.expenses.put key row } id kind =
      if id = key ∧ kind = .expense then statusOf (some row.deletedAt) else status db id kind := by
  cases kind <;> simp only [status, mark, Table.find?_put, reduceCtorEq, and_false, if_false, and_true]
  split_ifs <;> rfl

theorem status_put_withdrawal (db : Db) (key : Uuid) (row : OwnerWithdrawal) (id : Uuid)
    (kind : Deletable) :
    status { db with ownerWithdrawals := db.ownerWithdrawals.put key row } id kind =
      if id = key ∧ kind = .withdrawal then statusOf (some row.deletedAt) else status db id kind := by
  cases kind <;> simp only [status, mark, Table.find?_put, reduceCtorEq, and_false, if_false, and_true]
  split_ifs <;> rfl

/-- A record that was written, and the entry about it. -/
theorem explains_of_written {entry : Option AuditEntry} {id : Uuid} {kind : Deletable}
    {row : Option Timestamp}
    (hwritten : ∀ other otherKind, status db' other otherKind =
      if other = id ∧ otherKind = kind then statusOf (some row) else status db other otherKind)
    (habout : ∀ e, entry = some e → e.entityId = id ∧ recordOf e.action = kind ∧ e.storeId = storeId)
    (hsame : statusOf (some row) = status db id kind → ∀ e, entry = some e → saysStatus e.action = none)
    (hother : statusOf (some row) ≠ status db id kind →
      ∃ e, entry = some e ∧ saysStatus e.action = some (statusOf (some row))) :
    Explains storeId db db' entry id kind := by
  have hhere : status db' id kind = statusOf (some row) := by
    rw [hwritten, if_pos ⟨rfl, rfl⟩]
  refine ⟨fun other otherKind hne => ?_, habout, ?_, ?_⟩
  · rw [hwritten, if_neg hne]
  · rw [hhere]
    exact hsame
  · rw [hhere]
    exact hother

/-- The status of a row in its table. -/
theorem status_product {id : Uuid} {p : Product} (h : db.products.find? id = some p) :
    status db id .product = statusOf (some p.deletedAt) := by
  rw [status, mark, h]
  rfl

theorem status_sale {id : Uuid} {s : Sale} (h : db.sales.find? id = some s) :
    status db id .sale = statusOf (some s.deletedAt) := by
  rw [status, mark, h]
  rfl

theorem status_expense {id : Uuid} {e : Expense} (h : db.expenses.find? id = some e) :
    status db id .expense = statusOf (some e.deletedAt) := by
  rw [status, mark, h]
  rfl

theorem status_withdrawal {id : Uuid} {w : OwnerWithdrawal}
    (h : db.ownerWithdrawals.find? id = some w) :
    status db id .withdrawal = statusOf (some w.deletedAt) := by
  rw [status, mark, h]
  rfl

/-- What describes a save is about the product and in its store. -/
theorem describeSave_about {id : Uuid} {before : Option Product} {after : Product}
    {entry : AuditEntry} (h : describeSave now storeId id before after = some entry) :
    entry.entityId = id ∧ recordOf entry.action = .product ∧ entry.storeId = storeId := by
  unfold describeSave at h
  cases before with
  | none =>
    cases h
    exact ⟨rfl, rfl, rfl⟩
  | some before =>
    dsimp only at h
    split_ifs at h
    cases h
    exact ⟨rfl, rfl, rfl⟩

/-- A save of a listed product says nothing of its status. -/
theorem describeSave_some {id : Uuid} {before after : Product} {entry : AuditEntry}
    (h : describeSave now storeId id (some before) after = some entry) :
    saysStatus entry.action = none := by
  unfold describeSave at h
  dsimp only at h
  split_ifs at h
  cases h
  rfl

/-- A save lists the product: an event says so unless it was listed. -/
theorem accounted_save {request : SaveProductRequest} {saved : Uuid × Product}
    (h : save now storeId actor request db = .ok (saved, db'))
    (happly : SentRow.apply ⟨now, storeId, actor, .product request⟩ db = db') :
    Accounted ⟨now, storeId, actor, .product request⟩ db := by
  obtain ⟨-, -, row, hrow, -, -, rfl⟩ := save_eq_ok.mp h
  have hup := upsertRow_eq_some hrow
  have hlive : statusOf (some row.deletedAt) = .live := by
    rw [hup.live]
    rfl
  refine accounted_of_explains happly (logs_recordAudit? _ rfl)
    (@explains_of_written storeId db _ _ (savedId request db) .product row.deletedAt
      (fun id kind => ?_) (fun e he => describeSave_about he) (fun hsame e he => ?_) fun hchanged => ?_)
  · rw [status_sameRows (sameRows_recordAudit? _ _), status_put_product]
  · -- The row was live, and of the store: the save found it listed.
    cases hfound : find storeId (savedId request db) db with
    | none =>
      exfalso
      rw [hlive] at hsame
      cases hp : db.products.find? (savedId request db) with
      | none =>
        rw [status, mark, hp] at hsame
        cases hsame
      | some p =>
        rw [status_product hp] at hsame
        cases hdeleted : p.deletedAt with
        | none =>
          have hlisted := find_eq_some.mpr ⟨hp, hup.own p hp, hdeleted⟩
          rw [hfound] at hlisted
          cases hlisted
        | some gone =>
          rw [hdeleted] at hsame
          cases hsame
    | some before =>
      rw [hfound] at he
      exact describeSave_some he
  · cases hfound : find storeId (savedId request db) db with
    | none => exact ⟨_, rfl, hlive ▸ rfl⟩
    | some before =>
      obtain ⟨hp, -, hwas⟩ := find_eq_some.mp hfound
      rw [status_product hp, hwas, hlive] at hchanged
      exact absurd rfl hchanged

/-- Products that are catalogued alike are removed alike. -/
theorem status_catalogue (h : catalogue db' = catalogue db) (id : Uuid) :
    status db' id .product = status db id .product := by
  have hmark : ∀ d : Db, mark d id .product = ((catalogue d).find? id).map Product.deletedAt := by
    intro d
    rw [find?_catalogue, Option.map_map]
    rfl
  rw [status, status, hmark, hmark, h]

/-- Writing a sale's lines leaves the records but for the products as the sale's
own row does. -/
theorem status_written {drawn : ℕ → Uuid} {sale : PreparedSale} {staffId : Option Uuid}
    (h : LinesWritten now drawn sale sale.lines 0 (readied now sale staffId db) db') (id : Uuid)
    {kind : Deletable} (hkind : kind ≠ .product) :
    status db' id kind = if id = sale.id ∧ kind = .sale then
      statusOf (some (upsertedSale now sale staffId (db.sales.find? sale.id)).deletedAt)
      else status db id kind := by
  rw [← status_put_sale]
  cases kind with
  | product => exact absurd rfl hkind
  | sale =>
    rw [status, mark, h.sales]
    rfl
  | expense =>
    rw [status, mark, h.expenses]
    rfl
  | withdrawal =>
    rw [status, mark, h.ownerWithdrawals]
    rfl

/-- What recording a sale does to the records: a sale that was unknown is live
afterwards. -/
theorem status_recorded {drawn : ℕ → Uuid} {sale : PreparedSale} {recorder : Recorder}
    (h : SaleRecorded now drawn sale recorder db db') :
    db'.auditEvents = db.auditEvents ∧
      (∀ id kind, ¬(id = sale.id ∧ kind = .sale) → status db' id kind = status db id kind) ∧
      status db' sale.id .sale =
        if (db.sales.find? sale.id).isNone then .live else status db sale.id .sale := by
  have hproduct := status_catalogue (catalogue_recorded h)
  have hsale : Deletable.sale ≠ .product := by decide
  cases h with
  | voided existing stored own gone same =>
    rw [same, stored]
    exact ⟨rfl, fun _ _ _ => rfl, rfl⟩
  | new unknown writable written =>
    refine ⟨written.auditEvents, fun id kind hne => ?_, ?_⟩
    · by_cases hkind : kind = .product
      · rw [hkind]
        exact hproduct id
      · rw [status_written written id hkind, if_neg hne]
    · rw [status_written written _ hsale, if_pos ⟨rfl, rfl⟩, unknown]
      rfl
  | again existing stored own live may writable written =>
    have hundone : ∀ id, (undoSale now sale.id sale.storeId db).sales.find? id =
      db.sales.find? id := fun _ => rfl
    refine ⟨written.auditEvents, fun id kind hne => ?_, ?_⟩
    · by_cases hkind : kind = .product
      · rw [hkind]
        exact hproduct id
      · rw [status_written written id hkind, if_neg hne]
        cases kind with
        | product => exact absurd rfl hkind
        | sale => rfl
        | expense => rfl
        | withdrawal => rfl
    · rw [status_written written _ hsale, if_pos ⟨rfl, rfl⟩, hundone, stored,
        status_sale stored]
      rfl

/-- A sale is logged when its row was unknown. -/
theorem accounted_sale {request : RecordSaleRequest} {detail : SaleDetail}
    (h : SaleService.record now storeId actor request db = .ok (detail, db'))
    (happly : SentRow.apply ⟨now, storeId, actor, .sale request⟩ db = db') :
    Accounted ⟨now, storeId, actor, .sale request⟩ db := by
  obtain ⟨method, hmethod, h⟩ := bind_eq_ok.mp h
  obtain ⟨lines, hlines, h⟩ := bind_eq_ok.mp h
  obtain ⟨⟨recorded, db₁⟩, hrecord, h⟩ := bind_eq_ok.mp h
  obtain ⟨haudit, hothers, hhere⟩ := status_recorded
    (saleRecorded_of_ok (Uuid.newV4_injective db.stockMovements)
      (Uuid.find?_newV4 db.stockMovements) hrecord)
  obtain ⟨hid, hcreated⟩ := created_of_record hrecord
  cases h
  rw [hcreated] at happly
  dsimp only [prepareSale] at haudit hothers hhere hid hcreated happly
  cases hnew : (db.sales.find? (request.id.getD (Uuid.newV4 db.sales 0))).isNone with
  | true =>
    have hwas : status db (request.id.getD (Uuid.newV4 db.sales 0)) .sale = .absent := by
      rw [status, mark, Option.isNone_iff_eq_none.mp hnew]
      rfl
    have hlive := hhere.trans (if_pos hnew)
    refine @accounted_of_explains now storeId actor db _ _ _
      (request.id.getD (Uuid.newV4 db.sales 0)) .sale (happly.trans (if_pos hnew))
      (logs_recordAudit _ haudit)
      ⟨fun id kind hne => ?_, fun e he => ?_, fun hsame => ?_, fun _ => ?_⟩
    · rw [status_sameRows (sameRows_recordAudit _ _), hothers id kind hne]
    · cases he
      exact ⟨hid, rfl, rfl⟩
    · rw [status_sameRows (sameRows_recordAudit _ _), hlive, hwas] at hsame
      cases hsame
    · rw [status_sameRows (sameRows_recordAudit _ _), hlive]
      exact ⟨_, rfl, rfl⟩
  | false =>
    have hstays := hhere.trans (if_neg (hnew ▸ Bool.false_ne_true))
    refine accounted_of_same (happly.trans (if_neg (hnew ▸ Bool.false_ne_true)))
      (logs_nothing haudit) (fun id kind => ?_) fun e he => by cases he
    by_cases hrecord : id = request.id.getD (Uuid.newV4 db.sales 0) ∧ kind = .sale
    · rw [hrecord.1, hrecord.2]
      exact hstays
    · exact hothers id kind hrecord

/-- A movement says what became of the stock, never of the product. -/
theorem saysStatus_of_forMovement {kind : MovementKind} {action : AuditAction}
    (h : AuditAction.forMovement kind = some action) : saysStatus action = none := by
  cases kind <;> cases h <;> rfl

/-- A stock movement leaves every record as it is. -/
theorem accounted_movement {request : RecordMovementRequest}
    (h : InventoryService.record now storeId actor request db = .ok db')
    (happly : SentRow.apply ⟨now, storeId, actor, .movement request⟩ db = db') :
    Accounted ⟨now, storeId, actor, .movement request⟩ db := by
  obtain ⟨_, hcan, h⟩ := bind_eq_ok.mp h
  obtain ⟨⟨kind, effect⟩, heffect, h⟩ := bind_eq_ok.mp h
  dsimp only at h
  split_ifs at h
  obtain ⟨⟨applied, db₁⟩, hmove, h⟩ := bind_eq_ok.mp h
  have hsame : ∀ id kind, status db₁ id kind = status db id kind ∧
      db₁.auditEvents = db.auditEvents := by
    intro id kind'
    obtain ⟨p, hp, ⟨-, -, rfl⟩ | ⟨-, -, rfl⟩⟩ := recordMovement_eq_ok.mp hmove
    · exact ⟨rfl, rfl⟩
    · refine ⟨?_, rfl⟩
      obtain ⟨hfound, -, -⟩ := find_eq_some.mp hp
      refine (status_put_product db _ _ id kind').trans ?_
      split_ifs with hrecord
      · rw [hrecord.1, hrecord.2, status_product hfound]
        rfl
      · rfl
  have haudit := (hsame request.productId .product).2
  cases h
  unfold logMovement at happly
  split at happly
  · rename_i moved action haction
    refine accounted_of_same happly (logs_recordAudit _ haudit)
      (fun id kind => ((status_sameRows (sameRows_recordAudit _ _) id kind).trans (hsame id kind).1))
      fun e he => ?_
    cases he
    exact saysStatus_of_forMovement haction
  · exact accounted_of_same happly (logs_nothing haudit) (fun id kind => (hsame id kind).1)
      fun e he => by cases he

/-- A record that was written live, an event saying so if there was none: the
log accounts for it unless it had been removed. -/
theorem accounted_upserted {row : PushRow} {entry : AuditEntry} {inserted : Bool} {id : Uuid}
    {kind : Deletable}
    (happly : SentRow.apply ⟨now, storeId, actor, row⟩ db =
      if inserted then recordAudit now actor entry db' else db')
    (haudit : db'.auditEvents = db.auditEvents)
    (hwritten : ∀ other otherKind, status db' other otherKind =
      if other = id ∧ otherKind = kind then .live else status db other otherKind)
    (hinserted : inserted = true ↔ status db id kind = .absent)
    (habout : entry.entityId = id ∧ recordOf entry.action = kind ∧ entry.storeId = storeId)
    (htold : saysStatus entry.action = some .live) :
    Accounted ⟨now, storeId, actor, row⟩ db ↔ status db id kind ≠ .deleted := by
  have hhere : status db' id kind = .live := by
    rw [hwritten, if_pos ⟨rfl, rfl⟩]
  have hothers : ∀ other otherKind, ¬(other = id ∧ otherKind = kind) →
      status db' other otherKind = status db other otherKind := by
    intro other otherKind hne
    rw [hwritten, if_neg hne]
  cases hstatus : status db id kind with
  | absent =>
    have hlogged := happly.trans (if_pos (hinserted.mpr hstatus))
    refine iff_of_true (@accounted_of_explains now storeId actor db _ _ _ id kind hlogged
      (logs_recordAudit _ haudit) ⟨fun other otherKind hne => ?_, fun e he => ?_, fun hsame => ?_,
        fun _ => ?_⟩) (by decide)
    · exact (status_sameRows (sameRows_recordAudit _ _) _ _).trans (hothers other otherKind hne)
    · cases he
      exact habout
    · rw [status_sameRows (sameRows_recordAudit _ _), hhere, hstatus] at hsame
      cases hsame
    · rw [status_sameRows (sameRows_recordAudit _ _), hhere]
      exact ⟨_, rfl, htold⟩
  | live =>
    have hsilent := happly.trans (if_neg fun h => by
      have habsent := hinserted.mp h
      rw [hstatus] at habsent
      cases habsent)
    refine iff_of_true (accounted_of_same hsilent (logs_nothing haudit) (fun other otherKind => ?_)
      fun e he => by cases he) (by decide)
    by_cases hrecord : other = id ∧ otherKind = kind
    · rw [hrecord.1, hrecord.2, hhere, hstatus]
    · exact hothers other otherKind hrecord
  | deleted =>
    have hsilent := happly.trans (if_neg fun h => by
      have habsent := hinserted.mp h
      rw [hstatus] at habsent
      cases habsent)
    refine iff_of_false (fun haccounted => ?_) (fun hne => hne rfl)
    obtain ⟨news, hnews, hevery⟩ := haccounted
    rw [hsilent, haudit] at hnews
    have hnone : news = [] := List.self_eq_append_right.mp hnews
    obtain ⟨e, he, -⟩ := (hevery id kind).2 (by rw [hsilent, hhere, hstatus]; decide)
    rw [hnone] at he
    cases he

/-- A record is absent when its table has no row for it. -/
theorem statusOf_eq_absent {deleted : Option (Option Timestamp)} :
    statusOf deleted = .absent ↔ deleted = none := by
  cases deleted with
  | none => exact ⟨fun _ => rfl, fun _ => rfl⟩
  | some gone =>
    cases gone <;> exact ⟨(fun h => by cases h), (fun h => by cases h)⟩

/-- A record is deleted when its row is marked so. -/
theorem statusOf_eq_deleted {ρ : Type} {row : Option ρ} {deletedAt : ρ → Option Timestamp} :
    statusOf (row.map deletedAt) = .deleted ↔ ∃ r, row = some r ∧ deletedAt r ≠ none := by
  cases row with
  | none => exact ⟨(fun h => by cases h), (fun ⟨_, h, _⟩ => by cases h)⟩
  | some r =>
    rw [Option.map_some]
    cases hgone : deletedAt r with
    | none =>
      refine ⟨(fun h => by cases h), fun ⟨r', hr', hne⟩ => ?_⟩
      cases hr'
      exact absurd hgone hne
    | some at' =>
      exact ⟨fun _ => ⟨r, rfl, by rw [hgone]; exact Option.some_ne_none at'⟩, fun _ => rfl⟩

/-- An expense that is recorded is logged unless it had been removed. -/
theorem accounted_expense {request : RecordExpenseRequest} {saved : Uuid × Expense}
    (h : ExpenseService.record now storeId actor request db = .ok (saved, db'))
    (happly : SentRow.apply ⟨now, storeId, actor, .expense request⟩ db = db') :
    Accounted ⟨now, storeId, actor, .expense request⟩ db ↔
      status db (request.id.getD (Uuid.newV4 db.expenses 0)) .expense ≠ .deleted := by
  obtain ⟨_, hcan, h⟩ := bind_eq_ok.mp h
  obtain ⟨category, hcategory, h⟩ := bind_eq_ok.mp h
  dsimp only [ExpenseService.upsert] at h
  cases hrow : ExpenseService.upsertRow now storeId
      ⟨category, trimmed request.description, moneyFromF64 request.amount,
        request.occurredAt.getD now⟩ actor
      (db.expenses.find? (request.id.getD (Uuid.newV4 db.expenses 0))) with
  | none =>
    rw [hrow] at h
    cases h
  | some row =>
    rw [hrow] at h
    have hlive : row.deletedAt = none := by
      unfold ExpenseService.upsertRow at hrow
      split at hrow
      · cases hrow
        rfl
      · split_ifs at hrow
        cases hrow
        rfl
    cases h
    refine accounted_upserted happly rfl (fun other otherKind => ?_) ?_ ⟨rfl, rfl, rfl⟩ rfl
    · rw [status_put_expense, hlive]
      rfl
    · rw [status, statusOf_eq_absent, mark, Option.map_eq_none_iff, Option.isNone_iff_eq_none]

/-- So is a withdrawal. -/
theorem accounted_withdrawal {request : RecordWithdrawalRequest} {saved : Uuid × OwnerWithdrawal}
    (h : WithdrawalService.record now storeId actor request db = .ok (saved, db'))
    (happly : SentRow.apply ⟨now, storeId, actor, .withdrawal request⟩ db = db') :
    Accounted ⟨now, storeId, actor, .withdrawal request⟩ db ↔
      status db (request.id.getD (Uuid.newV4 db.ownerWithdrawals 0)) .withdrawal ≠ .deleted := by
  obtain ⟨_, hcan, h⟩ := bind_eq_ok.mp h
  dsimp only [WithdrawalService.upsert] at h
  cases hrow : WithdrawalService.upsertRow now storeId
      ⟨moneyFromF64 request.amount, trimmed request.reason, request.occurredAt.getD now⟩
      (db.ownerWithdrawals.find? (request.id.getD (Uuid.newV4 db.ownerWithdrawals 0))) with
  | none =>
    rw [hrow] at h
    cases h
  | some row =>
    rw [hrow] at h
    have hlive : row.deletedAt = none := by
      unfold WithdrawalService.upsertRow at hrow
      split at hrow
      · cases hrow
        rfl
      · split_ifs at hrow
        cases hrow
        rfl
    cases h
    refine accounted_upserted happly rfl (fun other otherKind => ?_) ?_ ⟨rfl, rfl, rfl⟩ rfl
    · rw [status_put_withdrawal, hlive]
      rfl
    · rw [status, statusOf_eq_absent, mark, Option.map_eq_none_iff, Option.isNone_iff_eq_none]

/-- A live record that was removed, and the event that says so. -/
theorem accounted_removed {row : PushRow} {entry : AuditEntry} {id : Uuid} {kind : Deletable}
    (happly : SentRow.apply ⟨now, storeId, actor, row⟩ db = recordAudit now actor entry db')
    (haudit : db'.auditEvents = db.auditEvents)
    (hremoved : ∀ other otherKind, status db' other otherKind =
      if other = id ∧ otherKind = kind then .deleted else status db other otherKind)
    (hwas : status db id kind = .live)
    (habout : entry.entityId = id ∧ recordOf entry.action = kind ∧ entry.storeId = storeId)
    (htold : saysStatus entry.action = some .deleted) :
    Accounted ⟨now, storeId, actor, row⟩ db := by
  have his : status db' id kind = .deleted := by
    rw [hremoved, if_pos ⟨rfl, rfl⟩]
  refine @accounted_of_explains now storeId actor db _ _ _ id kind happly
    (logs_recordAudit _ haudit) ⟨fun other otherKind hne => ?_, fun e he => ?_, fun hsame => ?_,
      fun _ => ?_⟩
  · rw [status_sameRows (sameRows_recordAudit _ _), hremoved, if_neg hne]
  · cases he
    exact habout
  · rw [status_sameRows (sameRows_recordAudit _ _), his, hwas] at hsame
    cases hsame
  · rw [status_sameRows (sameRows_recordAudit _ _), his]
    exact ⟨_, rfl, htold⟩

/-- A voided sale is removed, and nothing else is. -/
theorem status_voided {id : Uuid} {sale : Sale} (other : Uuid) (otherKind : Deletable) :
    status (undoSale now id storeId (markVoided now id sale db)) other otherKind =
      if other = id ∧ otherKind = .sale then .deleted else status db other otherKind := by
  have hput := status_put_sale db id { sale with deletedAt := some now, updatedAt := now } other
    otherKind
  have hcatalogue : catalogue (undoSale now id storeId (markVoided now id sale db)) =
      catalogue (markVoided now id sale db) := catalogue_undoSale _
  cases otherKind with
  | product => exact (status_catalogue hcatalogue other).trans hput
  | sale => exact hput
  | expense => exact hput
  | withdrawal => exact hput

/-- Every removal is logged. -/
theorem accounted_removal {request : DeletionRequest}
    (h : removeEntity now storeId actor request db = .ok db')
    (happly : SentRow.apply ⟨now, storeId, actor, .deletion request⟩ db = db') :
    Accounted ⟨now, storeId, actor, .deletion request⟩ db := by
  unfold removeEntity at h
  split_ifs at h with hsale hexpense hwithdrawal hproduct
  · obtain ⟨_, hcan, h⟩ := bind_eq_ok.mp h
    unfold SaleRepository.void at h
    cases hfound : findLive storeId request.id db with
    | none =>
      rw [hfound] at h
      cases h
    | some sale =>
      obtain ⟨hrow, -, hlive⟩ := SaleRepository.findLive_eq_some.mp hfound
      rw [hfound] at h
      cases h
      refine accounted_removed happly rfl status_voided ?_ ⟨rfl, rfl, rfl⟩ rfl
      rw [status_sale hrow, hlive]
      rfl
  · obtain ⟨_, hcan, h⟩ := bind_eq_ok.mp h
    unfold ExpenseService.softDelete at h
    cases hfound : ExpenseService.findLive storeId request.id db with
    | none =>
      rw [hfound] at h
      cases h
    | some e =>
      obtain ⟨hrow, hlive⟩ := Option.filter_eq_some_iff.mp hfound
      rw [hfound] at h
      cases h
      refine accounted_removed happly rfl (status_put_expense db request.id _) ?_ ⟨rfl, rfl, rfl⟩ rfl
      rw [status_expense hrow, Option.isNone_iff_eq_none.mp (Bool.and_eq_true_iff.mp hlive).2]
      rfl
  · obtain ⟨_, hcan, h⟩ := bind_eq_ok.mp h
    unfold WithdrawalService.softDelete at h
    cases hfound : WithdrawalService.findLive storeId request.id db with
    | none =>
      rw [hfound] at h
      cases h
    | some w =>
      obtain ⟨hrow, hlive⟩ := Option.filter_eq_some_iff.mp hfound
      rw [hfound] at h
      cases h
      refine accounted_removed happly rfl (status_put_withdrawal db request.id _) ?_ ⟨rfl, rfl, rfl⟩ rfl
      rw [status_withdrawal hrow, Option.isNone_iff_eq_none.mp (Bool.and_eq_true_iff.mp hlive).2]
      rfl
  · obtain ⟨_, hcan, h⟩ := bind_eq_ok.mp h
    unfold softDelete at h
    cases hfound : find storeId request.id db with
    | none =>
      rw [hfound] at h
      cases h
    | some p =>
      obtain ⟨hrow, -, hlive⟩ := find_eq_some.mp hfound
      rw [hfound] at h
      cases h
      refine accounted_removed happly rfl (status_put_product db request.id _) ?_ ⟨rfl, rfl, rfl⟩ rfl
      rw [status_product hrow, hlive]
      rfl

/-- A row that writes nothing is accounted for. -/
theorem accounted_of_unchanged {sent : SentRow} (happly : sent.apply db = db) : Accounted sent db :=
  accounted_of_same happly (logs_nothing rfl) (fun _ _ => rfl) fun _ he => by cases he

/-- What a row writes is accounted for, unless it brings an expense or a
withdrawal back. -/
theorem accounted_iff (sent : SentRow) (db : Db) : Accounted sent db ↔ ¬RevivesUnseen sent db := by
  obtain ⟨now, storeId, actor, row⟩ := sent
  cases hok : row.apply now storeId actor db with
  | error e =>
    have happly : SentRow.apply ⟨now, storeId, actor, row⟩ db = db := by
      rw [SentRow.apply, pushRow_of_error (Outcome.empty, db) hok]
    refine iff_of_true (accounted_of_unchanged happly) fun hunseen => ?_
    have hrevives : ∃ id, SentRow.Revives ⟨now, storeId, actor, row⟩ db id := by
      cases row <;> first | exact hunseen | exact hunseen.elim
    obtain ⟨id, hrevives⟩ := hrevives
    obtain ⟨kind, hgone, hback⟩ := removed_of_revives hrevives
    rw [happly] at hback
    exact hback hgone
  | ok result =>
    obtain ⟨rowId, db'⟩ := result
    have happly : SentRow.apply ⟨now, storeId, actor, row⟩ db = db' := by
      rw [SentRow.apply, pushRow_of_ok (Outcome.empty, db) hok]
    have heffect := effect_of_apply hok
    have hdone := PushRow.apply_eq_ok hok
    cases row with
    | product request =>
      obtain ⟨saved, h⟩ := hdone
      exact iff_of_true (accounted_save h happly) not_false
    | sale request =>
      obtain ⟨detail, h⟩ := hdone
      exact iff_of_true (accounted_sale h happly) not_false
    | movement request => exact iff_of_true (accounted_movement hdone happly) not_false
    | expense request =>
      obtain ⟨saved, h⟩ := hdone
      rw [accounted_expense h happly]
      refine not_congr (statusOf_eq_deleted.trans ⟨?_, ?_⟩)
      · rintro ⟨e, he, hgone⟩
        cases heffect with
        | spent may named category upserted effect =>
          subst named
          rw [he, ExpenseService.upsertRow] at upserted
          split_ifs at upserted with hmay
          exact ⟨_, named_of_find he, e, he, hgone, hmay.1, may, hmay.2, _, category⟩
      · rintro ⟨id, hid, e, he, hgone, -⟩
        have hkey : request.id.getD (Uuid.newV4 db.expenses 0) = id := by
          rw [show request.id = some id from hid]
          rfl
        exact ⟨e, by rw [hkey, he], hgone⟩
    | withdrawal request =>
      obtain ⟨saved, h⟩ := hdone
      rw [accounted_withdrawal h happly]
      refine not_congr (statusOf_eq_deleted.trans ⟨?_, ?_⟩)
      · rintro ⟨w, hw, hgone⟩
        cases heffect with
        | withdrawn may named upserted effect =>
          subst named
          rw [hw, WithdrawalService.upsertRow] at upserted
          split_ifs at upserted with hown
          exact ⟨_, named_of_find hw, w, hw, hgone, hown, may⟩
      · rintro ⟨id, hid, w, hw, hgone, -⟩
        have hkey : request.id.getD (Uuid.newV4 db.ownerWithdrawals 0) = id := by
          rw [show request.id = some id from hid]
          rfl
        exact ⟨w, by rw [hkey, hw], hgone⟩
    | deletion request =>
      rcases hdone with h | rfl
      · exact iff_of_true (accounted_removal h happly) not_false
      · exact iff_of_true (accounted_of_unchanged happly) not_false

/-- The log accounts for a run of pushes exactly when none of their rows brings
an expense or a withdrawal back. -/
theorem accountedRun_iff (db : Db) (batches : List Batch) :
    AccountedRun db (sentRows batches) ↔ ∀ before row rest, sentRows batches = before ++ row :: rest →
      ¬RevivesUnseen row (runRows db before) := by
  constructor
  · intro h before row rest hsplit
    exact (accounted_iff row _).mp (h before row rest hsplit)
  · intro h before row rest hsplit
    exact (accounted_iff row _).mpr (h before row rest hsplit)

/-- An expense comes back with a batch that is sent again, and the log still
ends with its removal. -/
theorem resent_expense_unlogged :
    ¬AccountedRun Db.empty (sentRows [supplies, suppliesRemoved, { supplies with now := 7 }]) := by
  intro haccounted
  have hbefore : status (runRows Db.empty (supplies.rows ++ suppliesRemoved.rows)) ⟨12⟩ .expense =
    .deleted := by decide +kernel
  have hafter : ∀ row, Batch.rows { supplies with now := 7 } = [row] →
      status (row.apply (runRows Db.empty (supplies.rows ++ suppliesRemoved.rows))) ⟨12⟩ .expense =
        .live ∧
      (row.apply (runRows Db.empty (supplies.rows ++ suppliesRemoved.rows))).auditEvents =
        (runRows Db.empty (supplies.rows ++ suppliesRemoved.rows)).auditEvents := by
    intro row hrow
    have hone : row = ⟨7, ⟨1⟩, phoneOwner,
        .expense ⟨some ⟨12⟩, "supplies", none, 30, some 4⟩⟩ := by
      rw [show Batch.rows { supplies with now := 7 } = [⟨7, ⟨1⟩, phoneOwner,
        .expense ⟨some ⟨12⟩, "supplies", none, 30, some 4⟩⟩] by decide +kernel] at hrow
      exact (List.singleton_injective hrow).symm
    rw [hone]
    decide +kernel
  obtain ⟨news, hnews, hevery⟩ := haccounted (supplies.rows ++ suppliesRemoved.rows) _ [] rfl
  obtain ⟨hlive, hsilent⟩ := hafter _ rfl
  rw [hsilent] at hnews
  obtain ⟨e, he, -⟩ := (hevery ⟨12⟩ .expense).2 (by rw [hlive, hbefore]; decide)
  rw [List.self_eq_append_right.mp hnews] at he
  cases he

end Kitaza.ActivityLog
