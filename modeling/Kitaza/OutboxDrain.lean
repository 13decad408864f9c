import Kitaza.SyncPull
import Kitaza.StoreRefusal

/-!
# Draining the outbox into the cloud

Against a server that accepts every row, batch after batch of the oldest
waiting rows leaves the outbox. What an accepted row does depends on what the
cloud holds: a version of a product, an expense or a withdrawal makes it live, a
movement that is known stays as it is, and a sale that was voided stays voided.
Recording or voiding a live sale retires the movements that carry its note.
-/

namespace Kitaza.OutboxDrain

open KeyedTable Primitives SyncPull SyncQueue OutboxDelivery SyncCoordinator StoreRefusal

variable {α : Type*}

/-- A record in the cloud: its store, its table and its identifier. -/
abbrev CloudRecord := Uuid × SyncTable × Uuid

/-- What the cloud has of a record. -/
structure CloudRow where
  /-- The store it is in. -/
  storeId : Uuid
  /-- Whether it is live: neither removed nor voided nor retired. -/
  live : Bool
  /-- The note of a stock movement. -/
  note : Option String
  deriving DecidableEq, Repr

/-- The records of every store. Movements that the server draws itself for the
lines of a sale are left out: no phone has sent them. -/
abbrev Cloud := SyncTable → Uuid → Option CloudRow

/-- Whether a record is live in its store. -/
def Live (cloud : Cloud) (record : CloudRecord) : Prop :=
  ∃ r, cloud record.2.1 record.2.2 = some r ∧ r.storeId = record.1 ∧ r.live = true

instance (cloud : Cloud) (record : CloudRecord) : Decidable (Live cloud record) :=
  inferInstanceAs (Decidable (∃ r, cloud record.2.1 record.2.2 = some r ∧ _))

/-- Write what the cloud has of a record. -/
def Cloud.put (table : SyncTable) (id : Uuid) (r : CloudRow) (cloud : Cloud) : Cloud :=
  Function.update cloud table (Function.update (cloud table) id (some r))

/-- What the server reads in the contents of a sale or a stock movement. -/
structure Contents (α : Type*) where
  /-- When it happened. -/
  occurredAt : α → Timestamp
  /-- The note of a movement. -/
  note : α → Option String

/-- The table a kind of change writes; a removal names its own. -/
def recordTable : QueuedEntity → Option SyncTable
  | .products => some .products
  | .stockMovements => some .stockMovements
  | .sales => some .sales
  | .expenses => some .expenses
  | .withdrawals => some .withdrawals
  | .deletions => none

/-- The table of the target of a removal. -/
def deletedTable : DeletedEntity → SyncTable
  | .sale => .sales
  | .expense => .expenses
  | .withdrawal => .withdrawals
  | .product => .products

/-- The record that a change of a store sends a version of. -/
def savedRecord (storeId : Uuid) (c : QueuedChange α) : Option CloudRecord :=
  match c.row.payload with
  | .record _ => (recordTable c.row.entity).map fun table => (storeId, table, c.row.entityId)
  | .deletion _ _ => none

/-- The record that a change of a store removes. -/
def removedRecord (storeId : Uuid) (c : QueuedChange α) : Option CloudRecord :=
  match c.row.payload with
  | .record _ => none
  | .deletion entity id => some (storeId, deletedTable entity, id)

/-- Retire the movements of a store that carry a sale's note. -/
def retire (storeId saleId : Uuid) (cloud : Cloud) : Cloud := fun table id =>
  (cloud table id).map fun r =>
    if table = .stockMovements ∧ r.storeId = storeId ∧ r.note = some (saleNote saleId) then
      { r with live := false }
    else r

/-- What an accepted version of a record leaves. A record of another store is
never accepted, but for a known movement, which is left as it is. -/
def acceptSaved (storeId : Uuid) (table : SyncTable) (id : Uuid) (note : Option String)
    (cloud : Cloud) : Option Cloud :=
  match cloud table id with
  | none => some (cloud.put table id ⟨storeId, true, note⟩)
  | some r =>
    if table = .stockMovements then some cloud
    else if r.storeId ≠ storeId then none
    else if table = .sales then
      if r.live then some ((retire storeId id cloud).put table id ⟨storeId, true, note⟩)
      else some cloud
    else some (cloud.put table id ⟨storeId, true, note⟩)

/-- What an accepted removal leaves: one that finds nothing live in its store
counts as done. -/
def acceptRemoved (storeId : Uuid) (table : SyncTable) (id : Uuid) (cloud : Cloud) : Cloud :=
  if Live cloud (storeId, table, id) then
    (if table = .sales then retire storeId id cloud else cloud).put table id ⟨storeId, false, none⟩
  else cloud

/-- What an accepted change leaves; there is nothing where the server cannot
accept it. -/
def acceptChange (contents : Contents α) (cloud : Cloud) (sent : Uuid × QueuedChange α) :
    Option Cloud :=
  match sent.2.row.payload, recordTable sent.2.row.entity with
  | .record content, some table =>
    acceptSaved sent.1 table sent.2.row.entityId
      (if table = .stockMovements then contents.note content else none) cloud
  | .record _, none => some cloud
  | .deletion entity id, _ => some (acceptRemoved sent.1 (deletedTable entity) id cloud)

/-- When the change of a sale or a stock movement happened. -/
def happenedAt (contents : Contents α) (c : QueuedChange α) : Timestamp :=
  match c.row.payload with
  | .record content => contents.occurredAt content
  | .deletion _ _ => 0

/-- The changes of a request in the order the server applies them: products,
sales and movements by when they happened, expenses, withdrawals, removals. -/
def applied (contents : Contents α) (changes : List (QueuedChange α)) : List (QueuedChange α) :=
  let of := fun entity : QueuedEntity => changes.filter fun c => c.row.entity = entity
  of .products ++
    (of .sales ++ of .stockMovements).insertionSort
      (fun a b => happenedAt contents a ≤ happenedAt contents b) ++
    of .expenses ++ of .withdrawals ++ of .deletions

/-- A server that accepts every row. -/
def accepting : Server α := ⟨fun _ _ => .ok ⟨fun _ => true, fun _ => none⟩, fun _ => .ok false⟩

/-- The requests of so many batches. -/
def requests (activeStoreId : Uuid) : ℕ → Queue α → List (Uuid × List (QueuedChange α))
  | 0, _ => []
  | batches + 1, q =>
    let batch := byStore activeStoreId (pending pushBatchSize q)
    batch ++ requests activeStoreId batches (pushStores accepting batch false q).1

/-- The outbox after so many batches. -/
def drain (activeStoreId : Uuid) : ℕ → Queue α → Queue α
  | 0, q => q
  | batches + 1, q =>
    drain activeStoreId batches
      (pushStores accepting (byStore activeStoreId (pending pushBatchSize q)) false q).1

/-- Push until nothing waits to be sent: every batch takes a row at least. -/
def drained (activeStoreId : Uuid) (q : Queue α) : Queue α :=
  drain activeStoreId q.rows.entries.length q

/-- What waits to be sent, each change with its store, in the order the server
applies it. -/
def uploads (contents : Contents α) (activeStoreId : Uuid) (q : Queue α) :
    List (Uuid × QueuedChange α) :=
  (requests activeStoreId q.rows.entries.length q).flatMap fun request =>
    (applied contents request.2).map fun c => (request.1, c)

/-- What the cloud holds once all of it was accepted. -/
def uploaded (contents : Contents α) (activeStoreId : Uuid) (q : Queue α) (cloud : Cloud) :
    Option Cloud := (uploads contents activeStoreId q).foldlM (acceptChange contents) cloud

/-- Every row that waits to be sent, oldest first. -/
def waiting (q : Queue α) : List (QueuedChange α) :=
  (q.rows.entries.filter fun e => e.2.attempts < maxAttempts).map fun e => ⟨e.1, e.2⟩

theorem pending_eq (limit : ℕ) (q : Queue α) : pending limit q = (waiting q).take limit := by
  rw [pending, waiting, List.map_take]

theorem mem_waiting {q : Queue α} {c : QueuedChange α} :
    c ∈ waiting q ↔ q.rows.find? c.rowId = some c.row ∧ c.row.attempts < maxAttempts := by
  simp only [waiting, List.mem_map, List.mem_filter, decide_eq_true_eq]
  constructor
  · rintro ⟨e, ⟨he, hw⟩, rfl⟩
    exact ⟨Table.mem_entries.mp he, hw⟩
  · rintro ⟨hr, hw⟩
    exact ⟨(c.rowId, c.row), ⟨Table.mem_entries.mpr hr, hw⟩, rfl⟩

/-- Rows wait under different identifiers. -/
theorem nodup_waiting (q : Queue α) : ((waiting q).map QueuedChange.rowId).Nodup := by
  rw [waiting, List.map_map]
  refine List.Pairwise.map _ ?_ ((Table.entries_ascending q.rows).filter _)
  intro a b h
  exact h.ne

theorem clearRows_nil (q : Queue α) : clearRows [] q = q := by
  have h : q.rows.filter (fun k _ => !(([] : List ℕ).contains k)) = q.rows := by
    apply Table.ext_find?
    intro k
    cases hr : q.rows.find? k <;> simp [hr]
  rw [clearRows, h]

theorem clearRows_clearRows (a b : List ℕ) (q : Queue α) :
    clearRows b (clearRows a q) = clearRows (a ++ b) q := by
  simp only [clearRows, Queue.mk.injEq, and_true]
  apply Table.ext_find?
  intro k
  simp only [Table.find?_filter, List.contains_eq_mem, List.mem_append]
  cases q.rows.find? k with
  | none => rfl
  | some r => by_cases ha : k ∈ a <;> by_cases hb : k ∈ b <;> simp [ha, hb]

/-- An answer that accepts every row of a request clears every row. -/
theorem readAnswer_of_applied {answer : Answer} {changes : List (QueuedChange α)}
    (h : ∀ c ∈ changes, answer.applied (key c) = true ∧ answer.rejected (key c) = none)
    (q : Queue α) : readAnswer answer changes q = (q, changes.map QueuedChange.rowId) := by
  induction changes with
  | nil => rfl
  | cons change changes ih =>
    obtain ⟨happlied, hrejected⟩ := h change List.mem_cons_self
    rw [readAnswer, hrejected]
    dsimp only
    rw [ih fun c hc => h c (List.mem_cons_of_mem _ hc), if_pos happlied]
    rfl

theorem pushStores_accepting (requests : List (Uuid × List (QueuedChange α))) (acceptedAny : Bool)
    (q : Queue α) : (pushStores accepting requests acceptedAny q).1 =
      clearRows (requests.flatMap fun r => r.2.map QueuedChange.rowId) q := by
  induction requests generalizing acceptedAny q with
  | nil => rw [pushStores, List.flatMap_nil, clearRows_nil]
  | cons request rest ih =>
    rw [pushStores, pushStore, accepting]
    dsimp only
    rw [readAnswer_of_applied fun _ _ => ⟨rfl, rfl⟩]
    dsimp only
    rw [← accepting, ih, clearRows_clearRows, List.flatMap_cons]

/-- Clearing rows takes them off those that wait. -/
theorem waiting_clearRows (rowIds : List ℕ) (q : Queue α) :
    waiting (clearRows rowIds q) = (waiting q).filter fun c => !(rowIds.contains c.rowId) := by
  rw [waiting, waiting, clearRows, Table.entries_filter, List.filter_filter, List.filter_map,
    List.filter_filter]
  congr 1
  apply List.filter_congr
  intro e _
  exact Bool.and_comm _ _

/-- The first rows of a list are what its own keys pick out of it. -/
theorem filter_notMem_take {β γ : Type*} [DecidableEq γ] (key : β → γ) {l : List β}
    (hd : (l.map key).Nodup) (n : ℕ) :
    l.filter (fun b => decide (key b ∉ (l.take n).map key)) = l.drop n := by
  have hsplit : ((l.take n).map key ++ (l.drop n).map key).Nodup := by
    rwa [← List.map_append, List.take_append_drop]
  conv_lhs => rw [← List.take_append_drop n l]
  rw [List.filter_append, List.filter_eq_nil_iff.mpr, List.filter_eq_self.mpr, List.nil_append]
  · intro b hb
    rw [List.take_append_drop, decide_eq_true_eq]
    exact fun ha => (List.nodup_append.mp hsplit).2.2 _ ha _ (List.mem_map_of_mem hb) rfl
  · intro b hb
    rw [List.take_append_drop, decide_eq_true_eq, not_not]
    exact List.mem_map_of_mem hb

/-- A batch that is accepted no longer waits. -/
theorem waiting_pushStores (activeStoreId : Uuid) (limit : ℕ) (q : Queue α) :
    waiting (pushStores accepting (byStore activeStoreId (pending limit q)) false q).1 =
      (waiting q).drop limit := by
  rw [pushStores_accepting, waiting_clearRows, ← filter_notMem_take _ (nodup_waiting q) limit]
  apply List.filter_congr
  intro c _
  have hmem : c.rowId ∈ (byStore activeStoreId (pending limit q)).flatMap
      (fun r => r.2.map QueuedChange.rowId) ↔
        c.rowId ∈ ((waiting q).take limit).map QueuedChange.rowId := by
    obtain ⟨stores, _, hstores, hb⟩ := byStore_eq activeStoreId (pending limit q)
    rw [hb, ← pending_eq]
    simp only [List.mem_flatMap, List.mem_map]
    constructor
    · rintro ⟨_, ⟨s, _, rfl⟩, d, hd, he⟩
      exact ⟨d, (List.mem_filter.mp hd).1, he⟩
    · rintro ⟨d, hd, he⟩
      exact ⟨_, ⟨_, (hstores _).mpr ⟨d, hd, rfl⟩, rfl⟩, d,
        List.mem_filter.mpr ⟨hd, decide_eq_true rfl⟩, he⟩
  rw [List.contains_eq_mem, ← decide_not]
  exact decide_eq_decide.mpr (not_congr hmem)

theorem waiting_drain (activeStoreId : Uuid) (batches : ℕ) (q : Queue α) :
    waiting (drain activeStoreId batches q) = (waiting q).drop (pushBatchSize * batches) := by
  induction batches generalizing q with
  | zero => rfl
  | succ batches ih => rw [drain, ih, waiting_pushStores, List.drop_drop, Nat.mul_succ, add_comm]

theorem length_waiting_le (q : Queue α) : (waiting q).length ≤ q.rows.entries.length := by
  rw [waiting, List.length_map]
  exact List.length_filter_le _ _

/-- Once it is drained, nothing in the outbox waits to be sent. -/
theorem waiting_drained (activeStoreId : Uuid) (q : Queue α) :
    waiting (drained activeStoreId q) = [] := by
  rw [drained, waiting_drain, List.drop_eq_nil_iff]
  have h := length_waiting_le q
  rw [pushBatchSize]
  omega

/-- Rows only leave the outbox. -/
theorem find?_drain {activeStoreId : Uuid} {batches : ℕ} {q : Queue α} {k : ℕ}
    {r : QueueRow α} (h : (drain activeStoreId batches q).rows.find? k = some r) :
    q.rows.find? k = some r := by
  induction batches generalizing q with
  | zero => exact h
  | succ batches ih =>
    have hq := ih h
    rw [pushStores_accepting, clearRows, Table.find?_filter_eq_some] at hq
    exact hq.1

/-- A parked row is in no batch. -/
theorem find?_drain_of_parked (activeStoreId : Uuid) (batches : ℕ) {q : Queue α}
    {k : ℕ} {r : QueueRow α} (hr : q.rows.find? k = some r) (hparked : maxAttempts ≤ r.attempts) :
    (drain activeStoreId batches q).rows.find? k = some r := by
  induction batches generalizing q with
  | zero => exact hr
  | succ batches ih =>
    apply ih
    rw [pushStores_accepting, clearRows, Table.find?_filter_eq_some]
    refine ⟨hr, ?_⟩
    simp only [List.contains_eq_mem, Bool.not_eq_true', decide_eq_false_iff_not,
      List.mem_flatMap, List.mem_map]
    rintro ⟨request, hrequest, c, hc, rfl⟩
    obtain ⟨hstored, hwait⟩ := mem_pending (mem_byStore hrequest hc)
    rw [hr, Option.some.injEq] at hstored
    subst hstored
    omega

/-- What draining leaves is what was parked. -/
theorem find?_drained {activeStoreId : Uuid} {q : Queue α} {k : ℕ} {r : QueueRow α} :
    (drained activeStoreId q).rows.find? k = some r ↔
      q.rows.find? k = some r ∧ maxAttempts ≤ r.attempts := by
  constructor
  · intro h
    refine ⟨find?_drain h, not_lt.mp fun hwait => ?_⟩
    have hmem : (⟨k, r⟩ : QueuedChange α) ∈ waiting (drained activeStoreId q) :=
      mem_waiting.mpr ⟨h, hwait⟩
    rw [waiting_drained] at hmem
    cases hmem
  · rintro ⟨hr, hparked⟩
    exact find?_drain_of_parked _ _ hr hparked

end Kitaza.OutboxDrain
