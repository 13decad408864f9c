import Kitaza.PhoneStorage
import Kitaza.UploadedRecords

/-!
# Moving a phone to the cloud

The upgrade re-scopes the rows of the open store to the first store of the
account and uploads nothing itself: what was written before reaches the cloud
only through the outbox. So the history is complete exactly if what waits there
leaves every live row live, or the cloud has it already, and if the phone held
no rows of a store the account does not own. A sale the cloud knows as voided
is reported as applied and stays voided.
-/

namespace Kitaza.CloudUpgrade

open KeyedTable Primitives Access SyncPull SyncQueue OutboxDelivery SyncCoordinator StoreRefusal
  PhoneStorage OutboxDrain UploadedRecords

variable {α : Type*}

/-- What a table keeps of a record beside its contents. -/
structure Row where
  /-- The store the record is in. -/
  storeId : Uuid
  /-- Set once the record was removed. -/
  deletedAt : Option Timestamp
  deriving DecidableEq

/-- The phone's database, or a backup of one. -/
structure Database (α : Type*) where
  /-- The tables of records. -/
  rows : SyncTable → Table Uuid Row
  /-- The table `sync_queue`. -/
  queue : Queue α
  /-- The rows of `owners`. -/
  owners : List Uuid
  /-- The rows of `stores`. -/
  stores : List Uuid

/-- The database of an app just installed. -/
def Database.empty (α : Type*) : Database α := ⟨fun _ => Table.empty, Queue.empty α, [], []⟩

/-- A phone: its database and its settings. -/
structure Phone (α : Type*) where
  /-- The database. -/
  db : Database α
  /-- The settings. -/
  preferences : Preferences

/-- A phone nothing was set up on. -/
def Phone.empty (α : Type*) : Phone α := ⟨Database.empty α, Preferences.empty⟩

/-- Insert a row; one of the same identifier is replaced, and comes last. -/
def insertOrReplace (id : Uuid) (ids : List Uuid) : List Uuid := ids.filter (· ≠ id) ++ [id]

/-- The kind of change that carries a version of a record. -/
def queuedEntity : DeletedEntity → QueuedEntity
  | .sale => .sales
  | .expense => .expenses
  | .withdrawal => .withdrawals
  | .product => .products

namespace Database

/-- Write a live row of a record. -/
def upsert (table : SyncTable) (id storeId : Uuid) (db : Database α) : Database α :=
  { db with rows := Function.update db.rows table ((db.rows table).put id ⟨storeId, none⟩) }

/-- Mark a record removed. -/
def softDelete (now : Timestamp) (table : SyncTable) (id : Uuid) (db : Database α) : Database α :=
  { db with
    rows := Function.update db.rows table
      ((db.rows table).mapRows fun k r => if k = id then { r with deletedAt := some now } else r) }

/-- Save a product, or record a sale, an expense or a withdrawal. -/
def save (storeId : Uuid) (kind : DeletedEntity) (id : Uuid) (content : α) (db : Database α) :
    Database α :=
  { db.upsert (deletedTable kind) id storeId with
    queue := enqueue (queuedEntity kind) id (.record content) (some storeId) db.queue }

/-- Record a stock movement. The movement of an unknown product is queued
without a row, and one of a known identifier leaves the row as it is. -/
def recordMovement (storeId id productId : Uuid) (content : α) (db : Database α) : Database α :=
  { (if ((db.rows .products).find? productId).isSome ∧
        ((db.rows .stockMovements).find? id).isNone then
      db.upsert .stockMovements id storeId else db) with
    queue := enqueue .stockMovements id (.record content) (some storeId) db.queue }

/-- Remove a product, a sale, an expense or a withdrawal. -/
def remove (storeId : Uuid) (now : Timestamp) (kind : DeletedEntity) (id : Uuid)
    (db : Database α) : Database α :=
  { db.softDelete now (deletedTable kind) id with
    queue := enqueueDeletion kind (queuedEntity kind) id (some storeId) db.queue }

/-- Server rows win over local copies of the same identifier. -/
def applyPage (storeId : Uuid) (page : List (SyncTable × Uuid × Option Timestamp))
    (db : Database α) : Database α :=
  { db with
    rows := fun table => (db.rows table).putAll
      ((page.filter fun row => row.1 = table).map fun row => (row.2.1, ⟨storeId, row.2.2⟩)) }

/-- Remember an owner. -/
def saveOwner (owner : Uuid) (db : Database α) : Database α :=
  { db with owners := insertOrReplace owner db.owners }

/-- Remember a store. -/
def saveStore (store : Uuid) (db : Database α) : Database α :=
  { db with stores := insertOrReplace store db.stores }

/-- Remember several. -/
def saveStores (stores : List Uuid) (db : Database α) : Database α :=
  stores.foldl (fun db store => db.saveStore store) db

/-- Remove the records of a store in one table, except those with an entry
still queued. -/
def forget (entity : QueuedEntity) (table : SyncTable) (storeId : Uuid) (db : Database α) :
    Database α :=
  { db with
    rows := Function.update db.rows table ((db.rows table).filter fun id r =>
      !(r.storeId == storeId && !(db.queue.rows.entries.any fun e =>
        e.2.entity == entity && e.2.entityId == id))) }

/-- Remove what a staff member may no longer see. -/
def forgetPrivateRecords (storeId : Uuid) (db : Database α) : Database α :=
  (db.forget .expenses .expenses storeId).forget .withdrawals .withdrawals storeId

/-- Delete everything; the sequence of the outbox goes on. -/
def wipe (db : Database α) : Database α :=
  ⟨fun _ => Table.empty, { db.queue with rows := Table.empty }, [], []⟩

/-- Move every row of one store to another. An absent store is written as
the empty text, and matches the queue rows that have none. -/
def adoptCloudStore (fromStoreId : Option Uuid) (store owner : Uuid) (db : Database α) :
    Database α where
  rows table := (db.rows table).mapRows fun _ r =>
    if some r.storeId = fromStoreId then { r with storeId := store } else r
  queue := { db.queue with
    rows := db.queue.rows.mapRows fun _ r =>
      if r.storeId = fromStoreId then { r with storeId := some store } else r }
  owners := [owner]
  stores := [store]

end Database

/-- What the server answers to a registration, a sign-in or a question about
the account. -/
structure Account where
  /-- The owner. -/
  owner : Uuid
  /-- The stores this person may use. -/
  stores : List Uuid
  /-- What they may do. -/
  access : AccessGrant
  deriving DecidableEq

/-- The session of an account, in the store preferred if it is one of them. -/
def Account.session (account : Account) (preferredStoreId : Option Uuid) : AuthSession :=
  ⟨account.owner, pickStore account.stores preferredStoreId, account.stores, account.access⟩

/-- Remove every download cursor. -/
def clearAllSyncCursors (p : Preferences) : Preferences :=
  { p with cursors := Table.empty, legacyCursor := none }

namespace Phone

/-- Remember a session. -/
def persist (owner : Uuid) (stores : List Uuid) (active : Uuid) (mode : StorageMode)
    (access : Option AccessGrant) (p : Phone α) : Phone α where
  db := (p.db.saveOwner owner).saveStores (if stores.isEmpty then [active] else stores)
  preferences :=
    { p.preferences with
      access := access.or p.preferences.access
      storageMode := mode
      activeStoreId := some active
      onboarded := true }

/-- Set up a phone that talks to no server, with a drawn owner and store. -/
def startLocal (owner store : Uuid) (p : Phone α) : Phone α :=
  p.persist owner [store] store .local none

/-- Forget who was signed in, with their records. -/
def clearDevice (p : Phone α) : Phone α where
  db := p.db.wipe
  preferences := clearAllSyncCursors
    { p.preferences with activeStoreId := none, onboarded := false, access := none }

/-- Whether an incoming session is of the person the phone was set up for. -/
def isSamePersonAsBefore (incoming : AuthSession) (p : Phone α) : Bool :=
  if !p.preferences.onboarded then true
  else
    match p.db.owners.head? with
    | none => true
    | some previousOwner =>
      p.preferences.storageMode == .cloud && previousOwner == incoming.owner &&
        (p.preferences.access.getD AccessGrant.owner).isSamePersonAs incoming.access

/-- Accept a session from the server, clearing the phone unless the same
person comes back. -/
def acceptCloudSession (account : Account) (p : Phone α) : Phone α :=
  let session := account.session p.preferences.activeStoreId
  (if p.isSamePersonAsBefore session then p else p.clearDevice).persist session.owner
    session.stores session.store .cloud (some session.access)

/-- Take over what the server says about the account. -/
def refreshAccount (account : Account) (p : Phone α) : Phone α :=
  let fresh := account.session p.preferences.activeStoreId
  let before := p.preferences.access.getD AccessGrant.owner
  let seesCostsChanged := before.can .viewProfit != fresh.access.can .viewProfit
  let p : Phone α :=
    if fresh.access.isStaff && seesCostsChanged then
      { db := if fresh.access.can .viewProfit then p.db else p.db.forgetPrivateRecords fresh.store
        preferences := p.preferences.clearSyncCursor fresh.store }
    else p
  { db := (p.db.saveStores fresh.stores).saveOwner fresh.owner
    preferences :=
      { p.preferences with access := some fresh.access, activeStoreId := some fresh.store } }

/-- Take the phone off the cloud with every record on it. -/
def leaveCloud (p : Phone α) : Phone α :=
  { p with
    preferences :=
      { clearAllSyncCursors p.preferences with access := none, storageMode := .local } }

/-- Open another store. -/
def switchStore (store : Uuid) (p : Phone α) : Phone α where
  db := p.db.saveStore store
  preferences := { p.preferences with activeStoreId := some store }

/-- Put a backup in place of the database. A file without a store is not
accepted as a backup. -/
def installBackup (backup : Database α) (p : Phone α) : Phone α :=
  match backup.stores with
  | [] => p
  | store :: _ =>
    { db := backup
      preferences := { clearAllSyncCursors p.preferences with
        storageMode := .local
        activeStoreId := some store
        onboarded := true
        access := none } }

/-- Move the store that is open into the cloud, into the first store of an
account. An account without a store fails before anything is written. -/
def upgradeToCloud (account : Account) (p : Phone α) : Option (Phone α) :=
  match account.stores with
  | [] => none
  | store :: _ =>
    some (Phone.persist account.owner account.stores store .cloud (some account.access)
      { db := p.db.adoptCloudStore p.preferences.activeStoreId store account.owner
        preferences := clearAllSyncCursors p.preferences })

end Phone

/-- What can happen on a phone. A push and a page belong to the store that
was open when their cycle began. -/
inductive Step (α : Type*) where
  | startLocal (owner store : Uuid)
  | save (kind : DeletedEntity) (id : Uuid) (content : α)
  | recordMovement (id productId : Uuid) (content : α)
  | remove (now : Timestamp) (kind : DeletedEntity) (id : Uuid)
  | switchStore (store : Uuid)
  | rememberStore (store : Uuid)
  | acceptCloudSession (account : Account)
  | refreshAccount (account : Account)
  | push (server : Server α) (storeId : Uuid)
  | pull (storeId : Uuid) (page : List (SyncTable × Uuid × Option Timestamp))
  | retry (rowId : ℕ)
  | drop (rowId : ℕ)
  | leaveCloud
  | signOut
  | installBackup (backup : Database α)
  | upgradeToCloud (account : Account)

/-- Write in the store that is open; without one there is no screen to
write on. -/
def Phone.write (f : Uuid → Database α → Database α) (p : Phone α) : Phone α :=
  match p.preferences.activeStoreId with
  | none => p
  | some storeId => { p with db := f storeId p.db }

/-- Change the outbox. -/
def Phone.withQueue (f : Queue α → Queue α) (p : Phone α) : Phone α :=
  { p with db := { p.db with queue := f p.db.queue } }

/-- One step. -/
def step (p : Phone α) : Step α → Phone α
  | .startLocal owner store => p.startLocal owner store
  | .save kind id content => p.write fun storeId => Database.save storeId kind id content
  | .recordMovement id productId content =>
    p.write fun storeId => Database.recordMovement storeId id productId content
  | .remove now kind id => p.write fun storeId => Database.remove storeId now kind id
  | .switchStore store => p.switchStore store
  | .rememberStore store => { p with db := p.db.saveStore store }
  | .acceptCloudSession account => p.acceptCloudSession account
  | .refreshAccount account => p.refreshAccount account
  | .push server storeId => p.withQueue fun q => (pushOutbox server storeId q).1
  | .pull storeId page => { p with db := p.db.applyPage storeId page }
  | .retry rowId => p.withQueue (retry rowId)
  | .drop rowId => p.withQueue (drop rowId)
  | .leaveCloud => p.leaveCloud
  | .signOut => p.clearDevice
  | .installBackup backup => p.installBackup backup
  | .upgradeToCloud account => (p.upgradeToCloud account).getD p

/-- One step after another. -/
def run (steps : List (Step α)) (p : Phone α) : Phone α := steps.foldl step p

/-- The complete history is in the cloud: every live record the phone held
is in the store it was moved to, and nothing is left of other accounts'
stores. -/
structure HistoryUploaded (account : Account) (before after : Phone α) (cloud : Cloud)
    (outbox : Queue α) : Prop where
  /-- Live records are in the cloud store they were moved to. -/
  live : ∀ table id r, (before.db.rows table).find? id = some r → r.deletedAt = none →
    ∃ r', (after.db.rows table).find? id = some r' ∧ Live cloud (r'.storeId, table, id)
  /-- The rows are of stores of the account. -/
  rows : ∀ table id r, (after.db.rows table).find? id = some r → r.storeId ∈ account.stores
  /-- So is what is left in the outbox. -/
  queued : ∀ k r s, outbox.rows.find? k = some r → r.storeId = some s → s ∈ account.stores

/-- Where an upgrade moves what is written under a store. -/
def destination (activeStoreId : Option Uuid) (store : Uuid) (storeId : Option Uuid) : Uuid :=
  if storeId = activeStoreId then store else storeId.getD store

/-- A queue row under the store it is moved to. -/
def adopt (activeStoreId : Option Uuid) (store : Uuid) (r : QueueRow α) : QueueRow α :=
  if r.storeId = activeStoreId then { r with storeId := some store } else r

/-- The outbox under the stores its rows are moved to. -/
def adopted (activeStoreId : Option Uuid) (store : Uuid) (q : Queue α) : Queue α :=
  { q with rows := q.rows.mapRows fun _ r => adopt activeStoreId store r }

/-- What the phone has to be like before it moves to the first store of an
account. -/
structure Uploadable (contents : Contents α) (account : Account) (store : Uuid) (cloud : Cloud)
    (p : Phone α) : Prop where
  /-- What waits in the outbox leaves every live record live. -/
  live : ∀ table id r, (p.db.rows table).find? id = some r → r.deletedAt = none →
    SentLive contents cloud
      (uploads contents store (adopted p.preferences.activeStoreId store p.db.queue))
      (destination p.preferences.activeStoreId store (some r.storeId), table, id)
  /-- The rows are of the open store or of the account's. -/
  rows : ∀ table id r, (p.db.rows table).find? id = some r →
    some r.storeId = p.preferences.activeStoreId ∨ r.storeId ∈ account.stores
  /-- So are the parked rows of the outbox. -/
  parked : ∀ k r s, p.db.queue.rows.find? k = some r → maxAttempts ≤ r.attempts →
    r.storeId = some s → r.storeId = p.preferences.activeStoreId ∨ s ∈ account.stores

theorem payload_adopt (activeStoreId : Option Uuid) (store : Uuid) (r : QueueRow α) :
    (adopt activeStoreId store r).payload = r.payload ∧
      (adopt activeStoreId store r).entity = r.entity ∧
      (adopt activeStoreId store r).entityId = r.entityId ∧
      (adopt activeStoreId store r).attempts = r.attempts := by
  unfold adopt
  split_ifs <;> exact ⟨rfl, rfl, rfl, rfl⟩

/-- What an upgrade leaves on the phone. -/
structure Upgraded (account : Account) (store : Uuid) (before after : Phone α) : Prop where
  /-- The store is the account's first. -/
  first : account.stores.head? = some store
  /-- It is open. -/
  active : after.preferences.activeStoreId = some store
  /-- The rows were moved. -/
  rows : ∀ table id, (after.db.rows table).find? id =
    ((before.db.rows table).find? id).map fun r =>
      { r with storeId := destination before.preferences.activeStoreId store (some r.storeId) }
  /-- So was the outbox. -/
  queue : after.db.queue = adopted before.preferences.activeStoreId store before.db.queue

theorem saveStores_spec (stores : List Uuid) (db : Database α) :
    (db.saveStores stores).rows = db.rows ∧ (db.saveStores stores).queue = db.queue := by
  induction stores generalizing db with
  | nil => exact ⟨rfl, rfl⟩
  | cons store rest ih => exact ih (db.saveStore store)

theorem upgradeToCloud_spec {account : Account} {before after : Phone α}
    (h : before.upgradeToCloud account = some after) :
    ∃ store, Upgraded account store before after := by
  unfold Phone.upgradeToCloud at h
  split at h
  · cases h
  · rename_i store rest hstores
    cases h
    obtain ⟨hrows, hqueue⟩ := saveStores_spec
      (if account.stores.isEmpty then [store] else account.stores)
      ((before.db.adoptCloudStore before.preferences.activeStoreId store
        account.owner).saveOwner account.owner)
    refine ⟨store, by rw [hstores, List.head?_cons], rfl, fun table id => ?_, ?_⟩
    · rw [Phone.persist, hrows]
      change Table.find? (Table.mapRows _ _) id = _
      rw [Table.find?_mapRows]
      congr 1
      funext r
      unfold destination
      split_ifs <;> rfl
    · rw [Phone.persist, hqueue]
      rfl

/-- The outbox after an upgrade and the uploads: the rows that were parked,
under their new stores. -/
theorem find?_drained_upgraded {account : Account} {store : Uuid} {before after : Phone α}
    (hup : Upgraded account store before after) (k : ℕ) (r' : QueueRow α) :
    (drained store after.db.queue).rows.find? k = some r' ↔
      ∃ r, before.db.queue.rows.find? k = some r ∧ maxAttempts ≤ r.attempts ∧
        adopt before.preferences.activeStoreId store r = r' := by
  rw [find?_drained, hup.queue, adopted, Table.find?_mapRows, Option.map_eq_some_iff]
  constructor
  · rintro ⟨⟨r, hr, rfl⟩, hparked⟩
    exact ⟨r, hr, (payload_adopt _ store r).2.2.2 ▸ hparked, rfl⟩
  · rintro ⟨r, hr, hparked, rfl⟩
    exact ⟨⟨r, hr, rfl⟩, (payload_adopt _ store r).2.2.2.symm ▸ hparked⟩

/-- An adopted row is under a store of the account exactly if it was, or was
of the open store. -/
theorem owned_adopt {stores : List Uuid} {store : Uuid} (hstore : store ∈ stores)
    (activeStoreId : Option Uuid) (r : QueueRow α) :
    (∀ s, (adopt activeStoreId store r).storeId = some s → s ∈ stores) ↔
      ∀ s, r.storeId = some s → r.storeId = activeStoreId ∨ s ∈ stores := by
  unfold adopt
  by_cases h : r.storeId = activeStoreId
  · simp [h, hstore]
  · simp [h]

theorem owned_destination {stores : List Uuid} {store : Uuid} (hstore : store ∈ stores)
    (activeStoreId : Option Uuid) (s : Uuid) :
    destination activeStoreId store (some s) ∈ stores ↔ some s = activeStoreId ∨ s ∈ stores := by
  unfold destination
  by_cases h : some s = activeStoreId
  · simp [h, hstore]
  · simp [h]

/-- Once the outbox is drained after an upgrade, the cloud has the complete
history exactly if the phone was uploadable. -/
theorem historyUploaded_iff {contents : Contents α} {account : Account} {store : Uuid}
    {before after : Phone α} (hup : Upgraded account store before after) {cloud cloud' : Cloud}
    (haccepted : uploaded contents store after.db.queue cloud = some cloud') :
    HistoryUploaded account before after cloud' (drained store after.db.queue) ↔
      Uploadable contents account store cloud before := by
  have hstore : store ∈ account.stores := List.mem_of_mem_head? hup.first
  have hlive : ∀ record, Live cloud' record ↔ SentLive contents cloud
      (uploads contents store (adopted before.preferences.activeStoreId store before.db.queue))
        record := by
    intro record
    rw [live_run haccepted, hup.queue]
  constructor
  · rintro ⟨hl, hr, hq⟩
    refine ⟨?_, ?_, ?_⟩
    · intro table id r hfind hdeleted
      obtain ⟨r', hr', hmem⟩ := hl table id r hfind hdeleted
      rw [hup.rows, hfind, Option.map_some, Option.some.injEq] at hr'
      subst hr'
      exact (hlive _).mp hmem
    · intro table id r hfind
      have h := hr table id _ (by rw [hup.rows, hfind, Option.map_some])
      exact (owned_destination hstore _ _).mp h
    · intro k r s hfind hparked hs
      refine (owned_adopt hstore _ r).mp (fun s' hs' => ?_) s hs
      exact hq k _ s' ((find?_drained_upgraded hup _ _).mpr ⟨r, hfind, hparked, rfl⟩) hs'
  · rintro ⟨hl, hr, hq⟩
    refine ⟨?_, ?_, ?_⟩
    · intro table id r hfind hdeleted
      refine ⟨_, by rw [hup.rows, hfind, Option.map_some], ?_⟩
      exact (hlive _).mpr (hl table id r hfind hdeleted)
    · intro table id r' hfind
      rw [hup.rows, Option.map_eq_some_iff] at hfind
      obtain ⟨r, hfind, rfl⟩ := hfind
      exact (owned_destination hstore _ _).mpr (hr table id r hfind)
    · intro k r' s hfind hs
      obtain ⟨r, hstored, hparked, rfl⟩ := (find?_drained_upgraded hup _ _).mp hfind
      exact (owned_adopt hstore _ r).mpr (fun s hs => hq k r s hstored hparked hs) s hs

/-- Moving to the cloud uploads the complete history of a phone, to a server that
accepts every row, exactly if what waits in the outbox leaves every live row live
in the cloud, and every row left is of the open store or of the account's. -/
theorem upgradeToCloud_uploads_iff (contents : Contents α) (steps : List (Step α))
    {account : Account} {store : Uuid} (hfirst : account.stores.head? = some store)
    {after : Phone α} (h : (run steps (Phone.empty α)).upgradeToCloud account = some after)
    {cloud cloud' : Cloud}
    (haccepted : uploaded contents store after.db.queue cloud = some cloud') :
    pending pushBatchSize (drained store after.db.queue) = [] ∧
      (HistoryUploaded account (run steps (Phone.empty α)) after cloud'
          (drained store after.db.queue) ↔
        Uploadable contents account store cloud (run steps (Phone.empty α))) := by
  obtain ⟨store', hup⟩ := upgradeToCloud_spec h
  have hs : store = store' := Option.some.inj (hfirst.symm.trans hup.first)
  subst hs
  refine ⟨?_, historyUploaded_iff hup haccepted⟩
  rw [pending_eq, waiting_drained, List.take_nil]

/-- Contents with a date and no note. -/
def dated : Contents Timestamp := ⟨id, fun _ => none⟩

/-- A store set up on the phone, with a product, a sale and a delivery of it, a
second sale that was removed again, and an expense. -/
def smallHistory : List (Step Timestamp) :=
  [.startLocal ⟨1⟩ ⟨2⟩, .save .product ⟨3⟩ 1, .recordMovement ⟨4⟩ ⟨3⟩ 2, .save .sale ⟨5⟩ 3,
    .save .sale ⟨6⟩ 4, .remove 5 .sale ⟨6⟩, .save .expense ⟨7⟩ 6]

/-- Another account. -/
def otherAccount : Account := ⟨⟨20⟩, [⟨21⟩], AccessGrant.owner⟩

/-- A cloud nobody has used. -/
def noCloud : Cloud := fun _ _ => none

theorem upgradeToCloud_uploads_smallHistory : ∃ after cloud',
    (run smallHistory (Phone.empty Timestamp)).upgradeToCloud otherAccount = some after ∧
      uploaded dated ⟨21⟩ after.db.queue noCloud = some cloud' ∧
      Live cloud' (⟨21⟩, .sales, ⟨5⟩) ∧
      (HistoryUploaded otherAccount (run smallHistory (Phone.empty Timestamp)) after cloud'
          (drained ⟨21⟩ after.db.queue) ↔
        Uploadable dated otherAccount ⟨21⟩ noCloud (run smallHistory (Phone.empty Timestamp))) := by
  obtain ⟨after, hafter⟩ : ∃ after,
      (run smallHistory (Phone.empty Timestamp)).upgradeToCloud otherAccount = some after := ⟨_, rfl⟩
  obtain ⟨cloud', haccepted, hlive⟩ : ∃ cloud', uploaded dated ⟨21⟩ after.db.queue noCloud =
      some cloud' ∧ Live cloud' (⟨21⟩, .sales, ⟨5⟩) := by
    cases hafter
    exact ⟨_, rfl, by decide +kernel⟩
  exact ⟨after, cloud', hafter, haccepted, hlive,
    (upgradeToCloud_uploads_iff dated smallHistory rfl hafter haccepted).2⟩

/-- One product, moved to one account and off it again. -/
def movedAndBack : List (Step Timestamp) :=
  [.startLocal ⟨1⟩ ⟨2⟩, .save .product ⟨3⟩ 1] ++ [.upgradeToCloud ⟨⟨10⟩, [⟨11⟩], AccessGrant.owner⟩, .push accepting ⟨11⟩,
    .leaveCloud]

/-- The product of a phone that was in the cloud before is in no store of
the account it moves to. -/
theorem not_upgradeToCloud_uploads : ¬ ∀ (steps : List (Step Timestamp)) (account : Account)
    (store : Uuid) (cloud cloud' : Cloud) (after : Phone Timestamp),
      account.stores.head? = some store →
      (run steps (Phone.empty Timestamp)).upgradeToCloud account = some after →
      uploaded dated store after.db.queue cloud = some cloud' →
        HistoryUploaded account (run steps (Phone.empty Timestamp)) after cloud'
          (drained store after.db.queue) := by
  intro h
  obtain ⟨after, hafter⟩ : ∃ after,
      (run movedAndBack (Phone.empty Timestamp)).upgradeToCloud otherAccount = some after := ⟨_, rfl⟩
  have haccepted : uploaded dated ⟨21⟩ after.db.queue (noCloud.put .products ⟨3⟩ ⟨⟨11⟩, true, none⟩) =
      some (noCloud.put .products ⟨3⟩ ⟨⟨11⟩, true, none⟩) := by
    cases hafter
    rfl
  have hlive := (h movedAndBack otherAccount ⟨21⟩ _ _ after rfl hafter haccepted).live
    .products ⟨3⟩ ⟨⟨11⟩, none⟩ (by decide +kernel) rfl
  cases hafter
  revert hlive
  decide +kernel

end Kitaza.CloudUpgrade
