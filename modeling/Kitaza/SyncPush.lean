import Mathlib.Data.List.Sort
import Kitaza.SaleService
import Kitaza.InventoryService
import Kitaza.ExpenseService
import Kitaza.WithdrawalService

/-!
# Pushing a device's queued changes

A push applies its rows one by one: products, then sales and stock
movements in the order they happened on the device, then expenses,
withdrawals and deletions. A row that fails is reported and leaves the
database as it was. The whole push reads one clock value.
-/

namespace Kitaza.SyncPush

open KeyedTable Primitives Access Schema Payloads

/-- A queued change that moves stock. -/
inductive StockEvent where
  | sale (request : RecordSaleRequest)
  | movement (request : RecordMovementRequest)
  deriving DecidableEq, Repr

/-- When a queued change happened. -/
def StockEvent.occurredAt (fallback : Timestamp) : StockEvent → Timestamp
  | .sale request => request.occurredAt.getD fallback
  | .movement request => request.occurredAt.getD fallback

/-- Whether one change comes no later than another. -/
def StockEvent.NoLater (fallback : Timestamp) (a b : StockEvent) : Prop :=
  a.occurredAt fallback ≤ b.occurredAt fallback

instance (fallback : Timestamp) : DecidableRel (StockEvent.NoLater fallback) :=
  fun a b => inferInstanceAs (Decidable (a.occurredAt fallback ≤ b.occurredAt fallback))

instance (fallback : Timestamp) : Std.Total (StockEvent.NoLater fallback) :=
  ⟨fun a b => le_total (a.occurredAt fallback) (b.occurredAt fallback)⟩

instance (fallback : Timestamp) : IsTrans StockEvent (StockEvent.NoLater fallback) :=
  ⟨fun _ _ _ => le_trans⟩

/-- Sales and stock movements by when they happened on the device; a
stable sort, sales before movements of the same instant. -/
def intoTimeline (now : Timestamp) (sales : List RecordSaleRequest)
    (movements : List RecordMovementRequest) : List StockEvent :=
  (sales.map StockEvent.sale ++ movements.map StockEvent.movement).insertionSort
    (StockEvent.NoLater now)

/-- The kind of row a push result refers to. -/
inductive PushedEntity where
  | product
  | stockMovement
  | sale
  | expense
  | withdrawal
  | deletion
  deriving DecidableEq, Repr

/-- A row that was applied. -/
structure PushedRow where
  /-- Its kind. -/
  entity : PushedEntity
  /-- Its identifier. -/
  id : Uuid
  deriving DecidableEq, Repr

/-- A row that was refused. -/
structure RejectedRow where
  /-- Its kind. -/
  entity : PushedEntity
  /-- Its identifier, where the device sent one. -/
  id : Option Uuid
  /-- What the owner is told. -/
  reason : String
  deriving DecidableEq, Repr

/-- What became of the rows so far. -/
structure Outcome where
  /-- The applied rows, in order. -/
  applied : List PushedRow
  /-- The refused rows, in order. -/
  rejected : List RejectedRow
  deriving DecidableEq, Repr

/-- The outcome of a push without rows. -/
def Outcome.empty : Outcome := ⟨[], []⟩

/-- Note an applied row. -/
def Outcome.addApplied (o : Outcome) (entity : PushedEntity) (id : Uuid) : Outcome :=
  { o with applied := o.applied ++ [⟨entity, id⟩] }

/-- Note an applied row if the device named it. -/
def Outcome.addAppliedIfKnown (o : Outcome) (entity : PushedEntity) : Option Uuid → Outcome
  | some id => o.addApplied entity id
  | none => o

/-- What the device is told about an error. -/
def reasonOf : ApiError → String
  | .internal _ => "could not be saved right now; it will be retried"
  | other => other.message

/-- Note a refused row. -/
def Outcome.addRejected (o : Outcome) (entity : PushedEntity) (id : Option Uuid)
    (error : ApiError) : Outcome :=
  { o with rejected := o.rejected ++ [⟨entity, id, reasonOf error⟩] }

/-- The outcome so far and the database. -/
abbrev PushState := Outcome × Db

/-- Apply one product. -/
def pushProduct (now : Timestamp) (storeId : Uuid) (actor : Actor) (s : PushState)
    (request : SaveProductRequest) : PushState :=
  match ProductService.save now storeId actor request s.2 with
  | .ok (saved, db) => (s.1.addApplied .product saved.1, db)
  | .error e => (s.1.addRejected .product request.id e, s.2)

/-- Apply one sale. -/
def pushSale (now : Timestamp) (storeId : Uuid) (actor : Actor) (s : PushState)
    (request : RecordSaleRequest) : PushState :=
  match SaleService.record now storeId actor request s.2 with
  | .ok (saved, db) => (s.1.addApplied .sale saved.id, db)
  | .error e => (s.1.addRejected .sale request.id e, s.2)

/-- Apply one stock movement. -/
def pushMovement (now : Timestamp) (storeId : Uuid) (actor : Actor) (s : PushState)
    (request : RecordMovementRequest) : PushState :=
  match InventoryService.record now storeId actor request s.2 with
  | .ok db => (s.1.addAppliedIfKnown .stockMovement request.id, db)
  | .error e => (s.1.addRejected .stockMovement request.id e, s.2)

/-- Apply one entry of the timeline. -/
def pushEvent (now : Timestamp) (storeId : Uuid) (actor : Actor) (s : PushState) :
    StockEvent → PushState
  | .sale request => pushSale now storeId actor s request
  | .movement request => pushMovement now storeId actor s request

/-- Apply one expense. -/
def pushExpense (now : Timestamp) (storeId : Uuid) (actor : Actor) (s : PushState)
    (request : RecordExpenseRequest) : PushState :=
  match ExpenseService.record now storeId actor request s.2 with
  | .ok (saved, db) => (s.1.addApplied .expense saved.1, db)
  | .error e => (s.1.addRejected .expense request.id e, s.2)

/-- Apply one withdrawal. -/
def pushWithdrawal (now : Timestamp) (storeId : Uuid) (actor : Actor) (s : PushState)
    (request : RecordWithdrawalRequest) : PushState :=
  match WithdrawalService.record now storeId actor request s.2 with
  | .ok (saved, db) => (s.1.addApplied .withdrawal saved.1, db)
  | .error e => (s.1.addRejected .withdrawal request.id e, s.2)

/-- The removal a deletion asks for. -/
def removeEntity (now : Timestamp) (storeId : Uuid) (actor : Actor) (deletion : DeletionRequest)
    (db : Db) : Except ApiError Db :=
  if deletion.entity = "sale" then SaleService.void now storeId actor deletion.id db
  else if deletion.entity = "expense" then ExpenseService.remove now storeId actor deletion.id db
  else if deletion.entity = "withdrawal" then
    WithdrawalService.remove now storeId actor deletion.id db
  else if deletion.entity = "product" then
    ProductService.remove now storeId actor deletion.id db
  else .error (.badRequest ("cannot delete unknown entity '" ++ deletion.entity ++ "'"))

/-- Removing something that is already gone counts as success: the device
may be retrying a deletion the server accepted last time. -/
def delete (now : Timestamp) (storeId : Uuid) (actor : Actor) (deletion : DeletionRequest)
    (db : Db) : Except ApiError Db :=
  match removeEntity now storeId actor deletion db with
  | .error (.notFound _) => .ok db
  | other => other

/-- A deletion that succeeds removed something or found nothing to remove. -/
theorem removeEntity_of_delete {now : Timestamp} {storeId : Uuid} {actor : Actor}
    {deletion : DeletionRequest} {db db' : Db}
    (h : delete now storeId actor deletion db = .ok db') :
    removeEntity now storeId actor deletion db = .ok db' ∨ db' = db := by
  unfold delete at h
  cases hremoved : removeEntity now storeId actor deletion db with
  | ok db₁ =>
    rw [hremoved] at h
    exact Or.inl h
  | error e =>
    rw [hremoved] at h
    cases e with
    | notFound what =>
      cases h
      exact Or.inr rfl
    | badRequest message => cases h
    | forbidden message => cases h
    | conflict message => cases h
    | internal cause => cases h

/-- Apply one deletion. -/
def pushDeletion (now : Timestamp) (storeId : Uuid) (actor : Actor) (s : PushState)
    (request : DeletionRequest) : PushState :=
  match delete now storeId actor request s.2 with
  | .ok db => (s.1.addApplied .deletion request.id, db)
  | .error e => (s.1.addRejected .deletion (some request.id) e, s.2)

/-- What a push answers. -/
structure PushOutcome where
  /-- The applied rows, in the order they were applied. -/
  applied : List PushedRow
  /-- The refused rows, with reasons. -/
  rejected : List RejectedRow
  /-- The server's clock. -/
  serverTime : Timestamp
  deriving DecidableEq, Repr

/-- Apply everything a device queued. Figures are taken to fit the decimal type and
the columns here; `DecimalRange.push` is the push where some do not. -/
def push (now : Timestamp) (storeId : Uuid) (actor : Actor) (request : PushRequest) (db : Db) :
    PushOutcome × Db :=
  let s : PushState := (Outcome.empty, db)
  -- Products first: a queued sale or count may refer to one of them.
  let s := request.products.foldl (pushProduct now storeId actor) s
  let s := (intoTimeline now request.sales request.stockMovements).foldl
    (pushEvent now storeId actor) s
  let s := request.expenses.foldl (pushExpense now storeId actor) s
  let s := request.withdrawals.foldl (pushWithdrawal now storeId actor) s
  -- Deletions last: what was created and removed in one batch ends up removed.
  let s := request.deletions.foldl (pushDeletion now storeId actor) s
  (⟨s.1.applied, s.1.rejected, now⟩, s.2)

/-- The endpoint: field validation of the whole body, then the push. -/
def pushChanges (now : Timestamp) (storeId : Uuid) (actor : Actor) (body : PushRequest)
    (db : Db) : Except ApiError (PushOutcome × Db) := do
  let request ← validatedJson body
  .ok (push now storeId actor request db)

/-- A row of a push, of any kind. -/
inductive PushRow where
  | product (request : SaveProductRequest)
  | sale (request : RecordSaleRequest)
  | movement (request : RecordMovementRequest)
  | expense (request : RecordExpenseRequest)
  | withdrawal (request : RecordWithdrawalRequest)
  | deletion (request : DeletionRequest)
  deriving DecidableEq, Repr

namespace PushRow

/-- The row of a timeline entry. -/
def ofEvent : StockEvent → PushRow
  | .sale request => .sale request
  | .movement request => .movement request

/-- The kind under which the row is reported. -/
def entity : PushRow → PushedEntity
  | .product _ => .product
  | .sale _ => .sale
  | .movement _ => .stockMovement
  | .expense _ => .expense
  | .withdrawal _ => .withdrawal
  | .deletion _ => .deletion

/-- The identifier the device sent. -/
def id? : PushRow → Option Uuid
  | .product request => request.id
  | .sale request => request.id
  | .movement request => request.id
  | .expense request => request.id
  | .withdrawal request => request.id
  | .deletion request => some request.id

/-- The field rules of the row. -/
def Valid : PushRow → Prop
  | .product request => request.Valid
  | .sale request => request.Valid
  | .movement request => request.Valid
  | .expense request => request.Valid
  | .withdrawal request => request.Valid
  | .deletion request => request.Valid

instance : (row : PushRow) → Decidable row.Valid
  | .product request => inferInstanceAs (Decidable request.Valid)
  | .sale request => inferInstanceAs (Decidable request.Valid)
  | .movement request => inferInstanceAs (Decidable request.Valid)
  | .expense request => inferInstanceAs (Decidable request.Valid)
  | .withdrawal request => inferInstanceAs (Decidable request.Valid)
  | .deletion request => inferInstanceAs (Decidable request.Valid)

/-- What applying the row writes, and the identifier it is reported under;
an error writes nothing. -/
def apply (now : Timestamp) (storeId : Uuid) (actor : Actor) (row : PushRow) (db : Db) :
    Except ApiError (Option Uuid × Db) :=
  match row with
  | .product request =>
    (ProductService.save now storeId actor request db).map fun r => (some r.1.1, r.2)
  | .sale request =>
    (SaleService.record now storeId actor request db).map fun r => (some r.1.id, r.2)
  | .movement request =>
    (InventoryService.record now storeId actor request db).map fun r => (request.id, r)
  | .expense request =>
    (ExpenseService.record now storeId actor request db).map fun r => (some r.1.1, r.2)
  | .withdrawal request =>
    (WithdrawalService.record now storeId actor request db).map fun r => (some r.1.1, r.2)
  | .deletion request =>
    (delete now storeId actor request db).map fun r => (some request.id, r)

/-- A row that is applied, by its kind. -/
theorem apply_eq_ok {now : Timestamp} {storeId : Uuid} {actor : Actor} {row : PushRow} {db db' : Db}
    {id : Option Uuid} (h : row.apply now storeId actor db = .ok (id, db')) :
    match row with
    | .product request => ∃ saved, ProductService.save now storeId actor request db = .ok (saved, db')
    | .sale request => ∃ detail, SaleService.record now storeId actor request db = .ok (detail, db')
    | .movement request => InventoryService.record now storeId actor request db = .ok db'
    | .expense request =>
      ∃ saved, ExpenseService.record now storeId actor request db = .ok (saved, db')
    | .withdrawal request =>
      ∃ saved, WithdrawalService.record now storeId actor request db = .ok (saved, db')
    | .deletion request => removeEntity now storeId actor request db = .ok db' ∨ db' = db := by
  cases row with
  | product request =>
    obtain ⟨⟨saved, db₁⟩, hr, he⟩ := map_eq_ok.mp h
    cases he
    exact ⟨saved, hr⟩
  | sale request =>
    obtain ⟨⟨detail, db₁⟩, hr, he⟩ := map_eq_ok.mp h
    cases he
    exact ⟨detail, hr⟩
  | movement request =>
    obtain ⟨db₁, hr, he⟩ := map_eq_ok.mp h
    cases he
    exact hr
  | expense request =>
    obtain ⟨⟨saved, db₁⟩, hr, he⟩ := map_eq_ok.mp h
    cases he
    exact ⟨saved, hr⟩
  | withdrawal request =>
    obtain ⟨⟨saved, db₁⟩, hr, he⟩ := map_eq_ok.mp h
    cases he
    exact ⟨saved, hr⟩
  | deletion request =>
    obtain ⟨db₁, hr, he⟩ := map_eq_ok.mp h
    cases he
    exact removeEntity_of_delete hr

end PushRow

/-- Apply one row of any kind. -/
def pushRow (now : Timestamp) (storeId : Uuid) (actor : Actor) (s : PushState) (row : PushRow) :
    PushState :=
  match row.apply now storeId actor s.2 with
  | .ok (id, db) => (s.1.addAppliedIfKnown row.entity id, db)
  | .error e => (s.1.addRejected row.entity row.id? e, s.2)

/-- The rows of a push in the order they are applied. -/
def rows (now : Timestamp) (request : PushRequest) : List PushRow :=
  request.products.map .product ++
    (intoTimeline now request.sales request.stockMovements).map .ofEvent ++
    request.expenses.map .expense ++ request.withdrawals.map .withdrawal ++
    request.deletions.map .deletion

/-- The deletions among the rows are those of the push. -/
theorem mem_rows_deletion {now : Timestamp} {request : PushRequest} {deletion : DeletionRequest}
    (h : PushRow.deletion deletion ∈ rows now request) : deletion ∈ request.deletions := by
  simp only [rows, List.mem_append, List.mem_map] at h
  rcases h with (((⟨r, -, he⟩ | ⟨event, -, he⟩) | ⟨r, -, he⟩) | ⟨r, -, he⟩) | ⟨r, hr, he⟩
  · cases he
  · cases event <;> cases he
  · cases he
  · cases he
  · cases he
    exact hr

theorem pushProduct_eq (now : Timestamp) (storeId : Uuid) (actor : Actor) (s : PushState)
    (request : SaveProductRequest) :
    pushProduct now storeId actor s request = pushRow now storeId actor s (.product request) := by
  unfold pushProduct pushRow PushRow.apply
  dsimp only
  cases ProductService.save now storeId actor request s.2 <;> rfl

theorem pushEvent_eq (now : Timestamp) (storeId : Uuid) (actor : Actor) (s : PushState)
    (event : StockEvent) :
    pushEvent now storeId actor s event = pushRow now storeId actor s (.ofEvent event) := by
  cases event with
  | sale request =>
    unfold pushEvent pushSale pushRow PushRow.apply PushRow.ofEvent
    dsimp only
    cases SaleService.record now storeId actor request s.2 <;> rfl
  | movement request =>
    unfold pushEvent pushMovement pushRow PushRow.apply PushRow.ofEvent
    dsimp only
    cases InventoryService.record now storeId actor request s.2 <;> rfl

theorem pushExpense_eq (now : Timestamp) (storeId : Uuid) (actor : Actor) (s : PushState)
    (request : RecordExpenseRequest) :
    pushExpense now storeId actor s request = pushRow now storeId actor s (.expense request) := by
  unfold pushExpense pushRow PushRow.apply
  dsimp only
  cases ExpenseService.record now storeId actor request s.2 <;> rfl

theorem pushWithdrawal_eq (now : Timestamp) (storeId : Uuid) (actor : Actor) (s : PushState)
    (request : RecordWithdrawalRequest) :
    pushWithdrawal now storeId actor s request =
      pushRow now storeId actor s (.withdrawal request) := by
  unfold pushWithdrawal pushRow PushRow.apply
  dsimp only
  cases WithdrawalService.record now storeId actor request s.2 <;> rfl

theorem pushDeletion_eq (now : Timestamp) (storeId : Uuid) (actor : Actor) (s : PushState)
    (request : DeletionRequest) :
    pushDeletion now storeId actor s request =
      pushRow now storeId actor s (.deletion request) := by
  unfold pushDeletion pushRow PushRow.apply
  dsimp only
  cases delete now storeId actor request s.2 <;> rfl

/-- Applying rows of any kind one after another. -/
def pushRows (now : Timestamp) (storeId : Uuid) (actor : Actor) (s : PushState)
    (rows : List PushRow) : PushState := rows.foldl (pushRow now storeId actor) s

/-- A push is one pass over its rows. -/
theorem push_eq_pushRows (now : Timestamp) (storeId : Uuid) (actor : Actor)
    (request : PushRequest) (db : Db) :
    push now storeId actor request db =
      let s := pushRows now storeId actor (Outcome.empty, db) (rows now request)
      (⟨s.1.applied, s.1.rejected, now⟩, s.2) := by
  simp only [push, pushRows, rows, List.foldl_append, List.foldl_map, ← pushProduct_eq,
    ← pushEvent_eq, ← pushExpense_eq, ← pushWithdrawal_eq, ← pushDeletion_eq]

theorem pushRow_of_ok {now : Timestamp} {storeId : Uuid} {actor : Actor} (s : PushState)
    {row : PushRow} {id : Option Uuid} {db : Db}
    (h : row.apply now storeId actor s.2 = .ok (id, db)) :
    pushRow now storeId actor s row = (s.1.addAppliedIfKnown row.entity id, db) := by
  rw [pushRow, h]

theorem pushRow_of_error {now : Timestamp} {storeId : Uuid} {actor : Actor} (s : PushState)
    {row : PushRow} {e : ApiError} (h : row.apply now storeId actor s.2 = .error e) :
    pushRow now storeId actor s row = (s.1.addRejected row.entity row.id? e, s.2) := by
  rw [pushRow, h]

/-- What was reported before some rows, followed by what they report. -/
def Outcome.append (o o' : Outcome) : Outcome :=
  ⟨o.applied ++ o'.applied, o.rejected ++ o'.rejected⟩

theorem Outcome.append_assoc (a b c : Outcome) :
    (a.append b).append c = a.append (b.append c) := by
  simp [Outcome.append]

@[simp] theorem Outcome.append_empty (o : Outcome) : o.append Outcome.empty = o := by
  simp [Outcome.append, Outcome.empty]

theorem Outcome.append_addRejected (o o' : Outcome) (entity : PushedEntity) (id : Option Uuid)
    (e : ApiError) :
    o.append (o'.addRejected entity id e) = (o.append o').addRejected entity id e := by
  simp [Outcome.append, Outcome.addRejected]

theorem Outcome.append_addAppliedIfKnown (o o' : Outcome) (entity : PushedEntity)
    (id : Option Uuid) :
    o.append (o'.addAppliedIfKnown entity id) = (o.append o').addAppliedIfKnown entity id := by
  cases id <;> simp [Outcome.append, Outcome.addAppliedIfKnown, Outcome.addApplied]

/-- One row reports after what was reported before it and reads only the
database. -/
theorem pushRow_append (now : Timestamp) (storeId : Uuid) (actor : Actor) (o o' : Outcome)
    (db : Db) (row : PushRow) :
    pushRow now storeId actor (o.append o', db) row =
      (o.append (pushRow now storeId actor (o', db) row).1,
        (pushRow now storeId actor (o', db) row).2) := by
  cases h : row.apply now storeId actor db with
  | ok r =>
    rw [pushRow_of_ok (o', db) h, pushRow_of_ok (o.append o', db) h,
      Outcome.append_addAppliedIfKnown]
  | error e =>
    rw [pushRow_of_error (o', db) h, pushRow_of_error (o.append o', db) h,
      Outcome.append_addRejected]

/-- Rows report after what was reported before them and read only the
database. -/
theorem pushRows_append (now : Timestamp) (storeId : Uuid) (actor : Actor) (o o' : Outcome)
    (db : Db) (rows : List PushRow) :
    pushRows now storeId actor (o.append o', db) rows =
      (o.append (pushRows now storeId actor (o', db) rows).1,
        (pushRows now storeId actor (o', db) rows).2) := by
  induction rows generalizing o' db with
  | nil => rfl
  | cons row rows ih =>
    unfold pushRows at ih ⊢
    rw [List.foldl_cons, List.foldl_cons, pushRow_append, ih]

/-- Every refusal reported names a row of the push. -/
theorem rejected_mem_rows {now : Timestamp} {storeId : Uuid} {actor : Actor} {s : PushState}
    {rows : List PushRow} {x : RejectedRow}
    (hx : x ∈ (pushRows now storeId actor s rows).1.rejected) :
    x ∈ s.1.rejected ∨ ∃ row ∈ rows, x.entity = row.entity ∧ x.id = row.id? := by
  induction rows generalizing s with
  | nil => exact Or.inl hx
  | cons row rows ih =>
    have htail : x ∈ (pushRows now storeId actor (pushRow now storeId actor s row)
        rows).1.rejected := hx
    rcases ih htail with h | ⟨r, hr, hid⟩
    · cases ha : row.apply now storeId actor s.2 with
      | ok r =>
        obtain ⟨id, db⟩ := r
        rw [pushRow_of_ok s ha] at h
        left
        cases id <;> exact h
      | error e =>
        rw [pushRow_of_error s ha] at h
        rcases List.mem_append.mp h with h | h
        · exact Or.inl h
        · rw [List.mem_singleton] at h
          subst h
          exact Or.inr ⟨row, List.mem_cons_self, rfl, rfl⟩
    · exact Or.inr ⟨r, List.mem_cons_of_mem _ hr, hid⟩

end Kitaza.SyncPush
