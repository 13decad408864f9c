import Kitaza.Primitives

/-!
# The phone's outbox table

Every local write lands in the outbox and waits until the cloud has
accepted it. Row identifiers come from an auto-increment sequence that
never hands out one twice; a unique index on entity and identifier makes
queueing the same record again replace its old row.
-/

namespace Kitaza.SyncQueue

open KeyedTable Primitives

/-- What kind of change a queue row carries. -/
inductive QueuedEntity where
  | products
  | stockMovements
  | sales
  | expenses
  | withdrawals
  | deletions
  deriving DecidableEq, Repr

/-- What a deletion names as its target. -/
inductive DeletedEntity where
  | sale
  | expense
  | withdrawal
  | product
  deriving DecidableEq, Repr

/-- The name of the target in a request. -/
def DeletedEntity.text : DeletedEntity → String
  | .sale => "sale"
  | .expense => "expense"
  | .withdrawal => "withdrawal"
  | .product => "product"

/-- What a queue row sends: a version of a record, or its removal. -/
inductive Payload (α : Type*) where
  | record (content : α)
  | deletion (entity : DeletedEntity) (id : Uuid)
  deriving DecidableEq, Repr

/-- A row of `sync_queue`; its identifier is its key. -/
structure QueueRow (α : Type*) where
  /-- The store the change was made in; absent in rows of old versions. -/
  storeId : Option Uuid
  /-- The kind of change. -/
  entity : QueuedEntity
  /-- The record changed. -/
  entityId : Uuid
  /-- What is sent. -/
  payload : Payload α
  /-- Refusals so far. -/
  attempts : ℕ
  /-- The latest refusal's reason. -/
  lastError : Option String
  deriving DecidableEq, Repr

/-- A queue row as a push has read it. -/
structure QueuedChange (α : Type*) where
  /-- The row's identifier. -/
  rowId : ℕ
  /-- The row. -/
  row : QueueRow α
  deriving DecidableEq, Repr

/-- The table and the last identifier its sequence has handed out. -/
structure Queue (α : Type*) where
  /-- The stored rows. -/
  rows : Table ℕ (QueueRow α)
  /-- The auto-increment sequence. -/
  sequence : ℕ

/-- A queue nothing was ever written to. -/
def Queue.empty (α : Type*) : Queue α := ⟨Table.empty, 0⟩

/-- Refusals after which a row is parked. -/
def maxAttempts : ℕ := 5

/-- Drop the row of a record and kind, if there is one. -/
def discard {α : Type*} (entity : QueuedEntity) (entityId : Uuid) (q : Queue α) : Queue α :=
  { q with rows := q.rows.filter fun _ r => !(r.entity == entity && r.entityId == entityId) }

theorem find?_discard {α : Type*} {entity : QueuedEntity} {entityId : Uuid} {q : Queue α} {k : ℕ}
    {r : QueueRow α} : (discard entity entityId q).rows.find? k = some r ↔
      q.rows.find? k = some r ∧ ¬(entity = r.entity ∧ entityId = r.entityId) := by
  rw [discard, Table.find?_filter_eq_some, @eq_comm _ entity, @eq_comm _ entityId]
  simp [← not_and_or]

/-- Queue a change: the row of the same record and kind is replaced, and
the new row takes the next identifier of the sequence. -/
def enqueue {α : Type*} (entity : QueuedEntity) (entityId : Uuid) (payload : Payload α)
    (storeId : Option Uuid) (q : Queue α) : Queue α where
  rows := (discard entity entityId q).rows.put (q.sequence + 1)
    ⟨storeId, entity, entityId, payload, 0, none⟩
  sequence := q.sequence + 1

theorem find?_enqueue_ne {α : Type*} {entity : QueuedEntity} {entityId : Uuid}
    {payload : Payload α} {storeId : Option Uuid} {q : Queue α} {k : ℕ} (h : k ≠ q.sequence + 1) :
    (enqueue entity entityId payload storeId q).rows.find? k =
      (discard entity entityId q).rows.find? k :=
  Table.find?_put_ne _ _ h

/-- Queue a removal and drop any unsent version of the record. -/
def enqueueDeletion {α : Type*} (deletedEntity : DeletedEntity) (queuedEntity : QueuedEntity)
    (id : Uuid) (storeId : Option Uuid) (q : Queue α) : Queue α :=
  enqueue .deletions id (.deletion deletedEntity id) storeId (discard queuedEntity id q)

/-- Rows ready to send, oldest first; parked rows are left out. -/
def pending {α : Type*} (limit : ℕ) (q : Queue α) : List (QueuedChange α) :=
  ((q.rows.entries.filter fun e => e.2.attempts < maxAttempts).take limit).map fun e =>
    ⟨e.1, e.2⟩

/-- Remove exactly the given rows. -/
def clearRows {α : Type*} (rowIds : List ℕ) (q : Queue α) : Queue α :=
  { q with rows := q.rows.filter fun k _ => !(rowIds.contains k) }

/-- Count a refusal against a row. -/
def recordFailure {α : Type*} (rowId : ℕ) (reason : String) (q : Queue α) : Queue α :=
  { q with
    rows := q.rows.mapRows fun k r =>
      if k = rowId then { r with attempts := r.attempts + 1, lastError := some reason } else r }

/-- Give a parked row another chance. -/
def retry {α : Type*} (rowId : ℕ) (q : Queue α) : Queue α :=
  { q with
    rows := q.rows.mapRows fun k r =>
      if k = rowId then { r with attempts := 0, lastError := none } else r }

/-- Drop a row the owner gives up on. -/
def drop {α : Type*} (rowId : ℕ) (q : Queue α) : Queue α :=
  { q with rows := q.rows.filter fun k _ => !(k == rowId) }

/-- A row read by a push is a stored row. -/
theorem mem_pending {α : Type*} {limit : ℕ} {q : Queue α} {c : QueuedChange α}
    (h : c ∈ pending limit q) : q.rows.find? c.rowId = some c.row ∧ c.row.attempts < maxAttempts := by
  obtain ⟨e, he, rfl⟩ := List.mem_map.mp h
  have hm := List.mem_filter.mp (List.mem_of_mem_take he)
  exact ⟨Table.mem_entries.mp hm.1, by simpa using hm.2⟩

/-- The rows of one request: changes by store, in the order their store
was first met. -/
def addToStore {α : Type*} (storeId : Uuid) (change : QueuedChange α) :
    List (Uuid × List (QueuedChange α)) → List (Uuid × List (QueuedChange α))
  | [] => [(storeId, [change])]
  | (s, changes) :: rest =>
    if s = storeId then (s, changes ++ [change]) :: rest
    else (s, changes) :: addToStore storeId change rest

/-- Split the rows of a batch by the store they belong to; rows without one
go to the open store. -/
def byStore {α : Type*} (activeStoreId : Uuid) (changes : List (QueuedChange α)) :
    List (Uuid × List (QueuedChange α)) :=
  changes.foldl
    (fun groups change => addToStore (change.row.storeId.getD activeStoreId) change groups) []

theorem mem_addToStore {α : Type*} {storeId : Uuid} {change c : QueuedChange α}
    {groups : List (Uuid × List (QueuedChange α))} {g : Uuid × List (QueuedChange α)}
    (hg : g ∈ addToStore storeId change groups) (hc : c ∈ g.2) :
    c = change ∨ ∃ g' ∈ groups, c ∈ g'.2 := by
  induction groups with
  | nil =>
    rw [addToStore, List.mem_singleton] at hg
    subst hg
    exact Or.inl (List.mem_singleton.mp hc)
  | cons head rest ih =>
    rw [addToStore] at hg
    split_ifs at hg with hs
    · rcases List.mem_cons.mp hg with rfl | hg
      · rcases List.mem_append.mp hc with hc | hc
        · exact Or.inr ⟨head, List.mem_cons_self, hc⟩
        · exact Or.inl (List.mem_singleton.mp hc)
      · exact Or.inr ⟨g, List.mem_cons_of_mem _ hg, hc⟩
    · rcases List.mem_cons.mp hg with rfl | hg
      · exact Or.inr ⟨head, List.mem_cons_self, hc⟩
      · rcases ih hg with h | ⟨g', hg', hc'⟩
        · exact Or.inl h
        · exact Or.inr ⟨g', List.mem_cons_of_mem _ hg', hc'⟩

/-- Splitting a batch by store brings in no other rows. -/
theorem mem_byStore {α : Type*} {activeStoreId : Uuid} {changes : List (QueuedChange α)}
    {g : Uuid × List (QueuedChange α)} {c : QueuedChange α}
    (hg : g ∈ byStore activeStoreId changes) (hc : c ∈ g.2) : c ∈ changes := by
  induction changes using List.reverseRecOn generalizing g with
  | nil => cases hg
  | append_singleton changes last ih =>
    rw [byStore, List.foldl_append] at hg
    rcases mem_addToStore hg hc with rfl | ⟨g', hg', hc'⟩
    · exact List.mem_append_right _ List.mem_cons_self
    · exact List.mem_append_left _ (ih hg' hc')

/-- A change joins the changes of its store, or starts them. -/
theorem addToStore_map {α : Type*} (storeId : Uuid) (change : QueuedChange α)
    {stores : List Uuid} (f : Uuid → List (QueuedChange α)) (hd : stores.Nodup)
    (hf : storeId ∉ stores → f storeId = []) :
    addToStore storeId change (stores.map fun s => (s, f s)) =
      (if storeId ∈ stores then stores else stores ++ [storeId]).map fun s =>
        (s, f s ++ if s = storeId then [change] else []) := by
  induction stores with
  | nil => simp [addToStore, hf]
  | cons s rest ih =>
    obtain ⟨hs, hd⟩ := List.nodup_cons.mp hd
    rw [List.map_cons, addToStore]
    by_cases h : s = storeId
    · subst h
      rw [if_pos rfl, if_pos List.mem_cons_self, List.map_cons, if_pos rfl]
      congr 1
      apply List.map_congr_left
      intro s' hs'
      have hne : s' ≠ s := fun he => hs (he ▸ hs')
      rw [if_neg hne, List.append_nil]
    · have hmem : storeId ∈ s :: rest ↔ storeId ∈ rest := by simp [Ne.symm h]
      rw [if_neg h, ih hd fun hn => hf (mt hmem.mp hn)]
      by_cases hr : storeId ∈ rest
      · simp [hr, h]
      · simp [hr, h, Ne.symm h]

/-- A batch splits into the changes of each of its stores. -/
theorem byStore_eq {α : Type*} (activeStoreId : Uuid) (changes : List (QueuedChange α)) :
    ∃ stores : List Uuid, stores.Nodup ∧
      (∀ s, s ∈ stores ↔ ∃ c ∈ changes, c.row.storeId.getD activeStoreId = s) ∧
      byStore activeStoreId changes = stores.map fun s =>
        (s, changes.filter fun c => c.row.storeId.getD activeStoreId = s) := by
  induction changes using List.reverseRecOn with
  | nil => exact ⟨[], List.nodup_nil, by simp, rfl⟩
  | append_singleton changes last ih =>
    obtain ⟨stores, hd, hmem, hmap⟩ := ih
    have hstep : byStore activeStoreId (changes ++ [last]) =
        addToStore (last.row.storeId.getD activeStoreId) last (byStore activeStoreId changes) := by
      rw [byStore, List.foldl_append]
      rfl
    refine ⟨if last.row.storeId.getD activeStoreId ∈ stores then stores
      else stores ++ [last.row.storeId.getD activeStoreId], ?_, ?_, ?_⟩
    · split_ifs with h
      · exact hd
      · exact List.nodup_append.mpr ⟨hd, List.nodup_singleton _, by
          rintro a ha b hb rfl
          exact h (List.mem_singleton.mp hb ▸ ha)⟩
    · intro s
      simp only [List.mem_append, List.mem_singleton, or_and_right, exists_or, exists_eq_left,
        ← hmem]
      split_ifs with h
      · exact ⟨Or.inl, fun hs => hs.elim id fun he => he ▸ h⟩
      · rw [List.mem_append, List.mem_singleton, @eq_comm _ s]
    · rw [hstep, hmap, addToStore_map _ _ _ hd]
      · apply List.map_congr_left
        intro s _
        rw [List.filter_append]
        by_cases h : s = last.row.storeId.getD activeStoreId
        · simp [h]
        · simp [h, Ne.symm h]
      · intro hn
        rw [List.filter_eq_nil_iff]
        intro c hc he
        exact hn ((hmem _).mpr ⟨c, hc, of_decide_eq_true he⟩)

end Kitaza.SyncQueue
