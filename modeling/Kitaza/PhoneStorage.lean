import Kitaza.SyncPull

/-!
# What a phone keeps, and who uses it

Rows live in SQLite; the download cursors and the session live in the
preferences. The operations on the session write both, one step at a time,
and wait between the steps.
-/

namespace Kitaza.PhoneStorage

open KeyedTable Primitives Access Schema SyncPull

/-- A row on the phone: a copy of the server's, or what was written here over the
last copy, if there was one. Which copy that was is for the statements only. -/
inductive LocalRow (table : SyncTable) where
  | pulled (row : table.Row)
  | written (row : table.Row) (copy : Option table.Row)

/-- The row itself. -/
def LocalRow.row {table : SyncTable} : LocalRow table → table.Row
  | .pulled row => row
  | .written row _ => row

/-- The last copy of the server's row. -/
def LocalRow.copy {table : SyncTable} : LocalRow table → Option table.Row
  | .pulled row => some row
  | .written _ copy => copy

/-- The phone's database. -/
structure LocalDb where
  /-- The synced tables. -/
  rows : (table : SyncTable) → Table Uuid (LocalRow table)
  /-- The table `sale_items`. -/
  saleItems : Table Uuid SaleItem
  /-- Records with a row in `sync_queue`. -/
  queued : SyncTable → Finset Uuid
  /-- The row of `owners`. -/
  owner : Option Uuid
  /-- The rows of `stores`. -/
  stores : List Uuid

namespace LocalDb

/-- A database nothing was written to. -/
def empty : LocalDb := ⟨fun _ => Table.empty, Table.empty, fun _ => ∅, none, []⟩

/-- Write a record on this phone and queue it. A sale is written with its
complete set of lines. -/
def write (db : LocalDb) (table : SyncTable) (id : Uuid) (row : table.Row)
    (items : List (Uuid × SaleItem)) : LocalDb :=
  { db with
    rows := Function.update db.rows table ((db.rows table).put id
      (.written row (((db.rows table).find? id).bind LocalRow.copy)))
    saleItems := if table = .sales then
      (db.saleItems.filter fun _ item => !(item.saleId == id)).putAll items
      else db.saleItems
    queued := Function.update db.queued table (insert id (db.queued table)) }

/-- Take a record that was accepted out of the outbox. -/
def uploaded (db : LocalDb) (table : SyncTable) (id : Uuid) : LocalDb :=
  { db with queued := Function.update db.queued table ((db.queued table).erase id) }

/-- Server rows win over local copies of the same id, and a pulled sale
carries its complete set of lines. -/
def applyPage (db : LocalDb) (page : PullResponse) : LocalDb :=
  { db with
    rows := fun table =>
      (db.rows table).putAll ((page.pages table).map fun e => (e.1, .pulled e.2))
    saleItems := (db.saleItems.filter fun _ item =>
      !(((page.pages .sales).map Prod.fst).contains item.saleId)).putAll page.saleItems }

/-- Drop a store's rows of a table, except those still waiting to upload. -/
def forgetPrivateRecords (db : LocalDb) (table : SyncTable) (storeId : Uuid) : LocalDb :=
  { db with
    rows := Function.update db.rows table ((db.rows table).filter fun id r =>
      !(table.storeId r.row == storeId && decide (id ∉ db.queued table))) }

/-- Remember a store's profile. -/
def saveStore (db : LocalDb) (storeId : Uuid) : LocalDb :=
  { db with stores := if storeId ∈ db.stores then db.stores else db.stores ++ [storeId] }

end LocalDb

/-- Whether a phone syncs at all. -/
inductive StorageMode where
  | local
  | cloud
  deriving DecidableEq, Repr

/-- Whether a session is an owner's or a staff member's. -/
inductive MemberRole where
  | owner
  | staff
  deriving DecidableEq, Repr

/-- Who is using this phone and what they may do, as the server last said. -/
structure AccessGrant where
  /-- Owner or staff. -/
  role : MemberRole
  /-- The staff member. -/
  staffId : Option Uuid
  /-- What is switched on. -/
  permissions : Permissions
  deriving DecidableEq, Repr

namespace AccessGrant

/-- The owner can do everything. -/
def owner : AccessGrant := ⟨.owner, none, Permissions.ALL⟩

/-- Whether the grant is an owner's. -/
def isOwner (g : AccessGrant) : Bool := g.role == .owner

/-- Whether the grant is a staff member's. -/
def isStaff (g : AccessGrant) : Bool := g.role == .staff

/-- What the grant allows. -/
def can (g : AccessGrant) (permission : Permission) : Bool :=
  g.isOwner || g.permissions.allows permission

/-- Whether the same person is signed in, whatever their permissions now. -/
def isSamePersonAs (g other : AccessGrant) : Bool :=
  g.role == other.role && g.staffId == other.staffId

end AccessGrant

/-- The signed-in state of a phone. -/
structure AuthSession where
  /-- The account. -/
  owner : Uuid
  /-- The store the phone is working in. -/
  store : Uuid
  /-- Every store this person may switch to. -/
  stores : List Uuid
  /-- What they may do. -/
  access : AccessGrant
  deriving DecidableEq, Repr

/-- The preferred store if this person may use it, otherwise their first. -/
def pickStore (stores : List Uuid) (preferred : Option Uuid) : Uuid :=
  (stores.find? fun store => some store == preferred).getD (stores.headD Uuid.nil)

/-- Device settings that outlive the app. -/
structure Preferences where
  /-- Whether the phone syncs. -/
  storageMode : StorageMode
  /-- The store that is open. -/
  activeStoreId : Option Uuid
  /-- Whether the phone was set up. -/
  onboarded : Bool
  /-- The access last described by the server. -/
  access : Option AccessGrant
  /-- Where the phone is up to in each store's changes. -/
  cursors : Table Uuid String
  /-- The single cursor of phones from before stores could be switched. -/
  legacyCursor : Option String

namespace Preferences

/-- The settings of a phone just installed. -/
def empty : Preferences := ⟨.local, none, false, none, Table.empty, none⟩

/-- A store's cursor; the old single cursor is handed to the store asked
for first. -/
def readSyncCursor (p : Preferences) (storeId : Uuid) : Option String × Preferences :=
  match p.cursors.find? storeId with
  | some own => (some own, p)
  | none =>
    match p.legacyCursor with
    | some legacy =>
      (some legacy, { p with cursors := p.cursors.put storeId legacy, legacyCursor := none })
    | none => (none, p)

/-- Remember how far a store was downloaded. -/
def writeSyncCursor (p : Preferences) (storeId : Uuid) (value : String) : Preferences :=
  { p with cursors := p.cursors.put storeId value }

/-- The next sync downloads that store in full. -/
def clearSyncCursor (p : Preferences) (storeId : Uuid) : Preferences :=
  { p with cursors := p.cursors.filter fun id _ => !(id == storeId) }

end Preferences

/-- The person a token was given to. -/
structure Person where
  /-- The account. -/
  ownerId : Uuid
  /-- The staff member, unless it is the owner. -/
  staffId : Option Uuid
  deriving DecidableEq, Repr

/-- One step of a session operation; the phone waits after each. -/
inductive Effect where
  | clearTokens
  | saveTokens (person : Person)
  | removeActiveStore
  | removeOnboarded
  | removeAccess
  | removeLegacyCursor
  | listSyncCursors
  | clearSyncCursor (storeId : Uuid)
  | wipe
  | forgetPrivateRecords (table : SyncTable) (withheld : table.withheld = true) (storeId : Uuid)
  | saveOwner (owner : Uuid)
  | saveStore (storeId : Uuid)
  | writeAccess (access : AccessGrant)
  | writeStorageMode (mode : StorageMode)
  | writeActiveStoreId (storeId : Uuid)
  | writeOnboarded
  | select (session : Option AuthSession)
  | selectRefreshed (session : AuthSession)

/-- Remove every cursor: the keys are listed, then removed one by one. -/
def clearAllSyncCursors : List Effect := [.removeLegacyCursor, .listSyncCursors]

/-- Forget who was signed in. -/
def clearSession : List Effect :=
  [.removeActiveStore, .removeOnboarded, .removeAccess] ++ clearAllSyncCursors

/-- Clear everything of the person who was signed in. -/
def clearDevice : List Effect := .clearTokens :: clearSession ++ [.wipe]

/-- Signing out always clears the phone. -/
def signOut : List Effect := clearDevice ++ [.select none]

/-- Remember a session. -/
def persist (session : AuthSession) : List Effect :=
  [.saveOwner session.owner] ++
    (if session.stores.isEmpty then [session.store] else session.stores).map .saveStore ++
    [.writeAccess session.access, .writeStorageMode .cloud, .writeActiveStoreId session.store,
      .writeOnboarded]

/-- The person a session belongs to. -/
def AuthSession.person (session : AuthSession) : Person := ⟨session.owner, session.access.staffId⟩

/-- Accept a session from the server, clearing the phone unless the same
person comes back. -/
def acceptCloudSession (same : Bool) (session : AuthSession) : List Effect :=
  (if same then [] else clearDevice) ++ [.saveTokens session.person] ++ persist session ++
    [.select (some session)]

/-- Take over what the server says about the account: when a staff member
gains or loses profit access, their store is downloaded again. -/
def refreshAccount (current fresh : AuthSession) : List Effect :=
  (if fresh.access.isStaff &&
      current.access.can .viewProfit != fresh.access.can .viewProfit then
    (if fresh.access.can .viewProfit then []
      else [.forgetPrivateRecords .expenses SyncTable.withheld_expenses fresh.store,
        .forgetPrivateRecords .withdrawals SyncTable.withheld_withdrawals fresh.store]) ++
      [.clearSyncCursor fresh.store]
    else []) ++
  fresh.stores.map .saveStore ++ [.saveOwner fresh.owner, .writeAccess fresh.access,
    .writeActiveStoreId fresh.store,
    .selectRefreshed { current with
      store := fresh.store, stores := fresh.stores, access := fresh.access }]

/-- Open another store; its records stay on the phone beside the others. -/
def switchStore (current : AuthSession) (store : Uuid) : List Effect :=
  [.saveStore store, .writeActiveStoreId store, .select (some { current with store := store })]

/-- Whether an incoming session is of the person the phone was set up for. -/
def isSamePersonAsBefore (p : Preferences) (db : LocalDb) (incoming : AuthSession) : Bool :=
  if !p.onboarded then true
  else
    match db.owner with
    | none => true
    | some previousOwner =>
      p.storageMode == .cloud && previousOwner == incoming.owner &&
        (p.access.getD AccessGrant.owner).isSamePersonAs incoming.access

/-- The session a phone opens with after it was closed. -/
def restore (p : Preferences) (db : LocalDb) : Option AuthSession :=
  if !p.onboarded then none
  else
    match db.owner, p.activeStoreId with
    | some owner, some storeId =>
      if storeId ∉ db.stores then none
      else if p.storageMode = .local then some ⟨owner, storeId, [storeId], AccessGrant.owner⟩
      else some ⟨owner, storeId, db.stores, p.access.getD AccessGrant.owner⟩
    | _, _ => none

end Kitaza.PhoneStorage
