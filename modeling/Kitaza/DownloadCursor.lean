import Kitaza.PhoneStorage
import Kitaza.PullCompleteness

/-!
# What a stored download cursor promises

A phone pulls page by page while people sign in and out, accounts are
refreshed, stores are switched and the app is killed. A cursor is sound
when every row version the server would not send again is on the phone.
That holds as long as no page's cursor is written after something was
cleared under its pull.
-/

namespace Kitaza.DownloadCursor

open KeyedTable KeysetPaging Primitives Access Schema SaleRepository SyncPull PullCompleteness
  PhoneStorage

/-- What the phones of a store talk to. -/
structure Server where
  /-- What the server committed, and when. -/
  history : ServerHistory
  /-- How cursors are written. -/
  text : CursorText
  /-- What the server is set up with. -/
  settings : SyncSettings

/-- How far a pull is with its current page. -/
inductive Stage where
  | ready
  | requested (person : Person) (since : ℕ)
  | answered (since : ℕ) (seesCosts : Bool) (page : PullResponse)
  | applied (page : PullResponse)

/-- A pull in flight. The last three fields are kept for the record. -/
structure Pull where
  /-- The store it downloads. -/
  storeId : Uuid
  /-- The cursor it has reached. -/
  cursor : Option String
  /-- Where it is with the page after that cursor. -/
  stage : Stage
  /-- Whether the cursor or the tables were cleared since it began. -/
  cleared : Bool
  /-- Whether another pull of the store applied a page since it asked. -/
  overtaken : Bool
  /-- Whether nothing it passed was withheld, or deleted since. -/
  full : Bool

/-- A session operation in flight. -/
inductive Operation where
  | awaitingAccount (current : AuthSession)
  | running (effects : List Effect)

/-- The server's present and the whole of a phone. -/
structure World where
  /-- The moment of the server's history. -/
  now : ℕ
  /-- The switches of the staff. -/
  permissionsOf : Uuid → Permissions
  /-- The phone's database. -/
  db : LocalDb
  /-- The phone's preferences. -/
  preferences : Preferences
  /-- Whose token the phone holds. -/
  token : Option Person
  /-- The session in memory. -/
  session : Option AuthSession
  /-- The pulls in flight. -/
  pulls : List Pull
  /-- The session operations in flight. -/
  operations : List Operation
  /-- For the record: the stores whose cursor passed nothing that was
  withheld, or deleted since. -/
  full : Uuid → Bool

/-- A phone on which the app was just installed. -/
def World.fresh (permissionsOf : Uuid → Permissions) : World where
  now := 0
  permissionsOf := permissionsOf
  db := LocalDb.empty
  preferences := Preferences.empty
  token := none
  session := none
  pulls := []
  operations := []
  full := fun _ => true

namespace World

/-- The server's view of a person. -/
def actorOf (w : World) (person : Person) : Actor where
  ownerId := person.ownerId
  name := ""
  deviceName := ""
  staff := person.staffId.map fun id => ⟨id, w.permissionsOf id⟩

/-- How the server describes a person's access. -/
def grantOf (w : World) (person : Person) : AccessGrant :=
  match person.staffId with
  | none => AccessGrant.owner
  | some id => ⟨.staff, some id, w.permissionsOf id⟩

/-- A session as the server describes it. -/
def describe (w : World) (person : Person) (stores : List Uuid) (preferred : Option Uuid) :
    AuthSession :=
  ⟨person.ownerId, pickStore stores preferred, stores, w.grantOf person⟩

/-- Whether a session sees costs, in the phone's record and on the server. -/
def seesCosts (w : World) (session : AuthSession) : Bool :=
  session.access.can .viewProfit && (w.actorOf session.person).can .viewProfit

end World

/-- The cursor or the tables were cleared under a pull. -/
def Pull.clear (p : Pull) : Pull := { p with cleared := true }

/-- A page of a store was applied beside a pull. -/
def Pull.overtake (storeId : Uuid) (seesCosts : Bool) (p : Pull) : Pull :=
  if p.storeId = storeId then { p with overtaken := true, full := p.full && seesCosts } else p

/-- Run one effect; listing the cursors adds their removals. -/
def perform (w : World) : Effect → World × List Effect
  | .clearTokens => ({ w with token := none }, [])
  | .saveTokens person => ({ w with token := some person }, [])
  | .removeActiveStore =>
    ({ w with preferences := { w.preferences with activeStoreId := none } }, [])
  | .removeOnboarded => ({ w with preferences := { w.preferences with onboarded := false } }, [])
  | .removeAccess => ({ w with preferences := { w.preferences with access := none } }, [])
  | .removeLegacyCursor =>
    ({ w with preferences := { w.preferences with legacyCursor := none } }, [])
  | .listSyncCursors => (w, w.preferences.cursors.keys.map .clearSyncCursor)
  | .clearSyncCursor storeId =>
    ({ w with
      preferences := w.preferences.clearSyncCursor storeId
      pulls := w.pulls.map fun p => if p.storeId = storeId then p.clear else p }, [])
  | .wipe => ({ w with db := LocalDb.empty, pulls := w.pulls.map Pull.clear }, [])
  | .forgetPrivateRecords table _ storeId =>
    ({ w with
      db := w.db.forgetPrivateRecords table storeId
      pulls := w.pulls.map fun p => { p with full := false }
      full := fun _ => false }, [])
  | .saveOwner owner => ({ w with db := { w.db with owner := some owner } }, [])
  | .saveStore storeId => ({ w with db := w.db.saveStore storeId }, [])
  | .writeAccess access =>
    ({ w with preferences := { w.preferences with access := some access } }, [])
  | .writeStorageMode mode =>
    ({ w with preferences := { w.preferences with storageMode := mode } }, [])
  | .writeActiveStoreId storeId =>
    ({ w with preferences := { w.preferences with activeStoreId := some storeId } }, [])
  | .writeOnboarded => ({ w with preferences := { w.preferences with onboarded := true } }, [])
  | .select session => ({ w with session := session }, [])
  | .selectRefreshed session =>
    ({ w with
      session := if w.session.map AuthSession.owner = some session.owner then some session
        else w.session }, [])

/-- What happens next, on the server or on the phone. -/
inductive Action where
  | commit
  | setPermissions (staffId : Uuid) (permissions : Permissions)
  | write (table : SyncTable) (id : Uuid) (row : table.Row) (items : List (Uuid × SaleItem))
  | uploaded (table : SyncTable) (id : Uuid)
  | signOut
  | signIn (person : Person) (stores : List Uuid)
  | refreshAccount
  | accountAnswered (i : ℕ) (stores : List Uuid)
  | switchStore (storeId : Uuid)
  | continue (i : ℕ)
  | startPull
  | request (i : ℕ)
  | answer (i : ℕ) (reads : PullReads)
  | applyPage (i : ℕ)
  | writeCursor (i : ℕ)
  | abandon (i : ℕ)
  | crash
  | restore

/-- A pull's statements run after it was sent and see what is committed. -/
def ReadsBetween (server : Server) (since now : ℕ) (reads : PullReads) : Prop :=
  (∀ table, since ≤ reads.seenAt table ∧ reads.seenAt table ≤ now ∧
    reads.now table ≤ server.history.clock (reads.seenAt table)) ∧
  reads.seenAt .sales ≤ reads.linesAt ∧ reads.linesAt ≤ now

instance (server : Server) (since now : ℕ) (reads : PullReads) :
    Decidable (ReadsBetween server since now reads) := inferInstanceAs (Decidable (_ ∧ _))

/-- The lines written with a record are the record's own. -/
def OwnLines (db : LocalDb) (id : Uuid) (items : List (Uuid × SaleItem)) : Prop :=
  ∀ e ∈ items, e.2.saleId = id ∧ ∀ item ∈ db.saleItems.find? e.1, item.saleId = id

instance (db : LocalDb) (id : Uuid) (items : List (Uuid × SaleItem)) :
    Decidable (OwnLines db id items) := inferInstanceAs (Decidable (∀ e ∈ items, _ ∧ _))

/-- The page of a request, as the server answers it. -/
def answerOf (server : Server) (w : World) (storeId : Uuid) (cursor : Option String)
    (person : Person) (reads : PullReads) : PullResponse :=
  pull server.text server.settings storeId (w.actorOf person) cursor
    (fun table => ⟨server.history.db (reads.seenAt table), reads.now table⟩)
    (server.history.db reads.linesAt)

/-- Begin a session operation. -/
def World.begin (w : World) (operation : Operation) : World :=
  { w with operations := w.operations ++ [operation] }

/-- Run what happens next, if it can happen. -/
def step (server : Server) (w : World) : Action → Option World
  | .commit => some { w with now := w.now + 1 }
  | .setPermissions staffId permissions =>
    some { w with permissionsOf := Function.update w.permissionsOf staffId permissions }
  | .write table id row items =>
    if OwnLines w.db id items then some { w with db := w.db.write table id row items } else none
  | .uploaded table id => some { w with db := w.db.uploaded table id }
  | .signOut => some (w.begin (.running PhoneStorage.signOut))
  | .signIn person stores =>
    let session := w.describe person stores w.preferences.activeStoreId
    some (w.begin (.running
      (acceptCloudSession (isSamePersonAsBefore w.preferences w.db session) session)))
  | .refreshAccount => w.session.map fun current => w.begin (.awaitingAccount current)
  | .accountAnswered i stores =>
    match w.operations[i]? with
    | some (.awaitingAccount current) =>
      some { w with
        operations := w.operations.set i (.running (PhoneStorage.refreshAccount current
          (w.describe current.person stores (some current.store)))) }
    | _ => none
  | .switchStore storeId =>
    w.session.map fun current => w.begin (.running (PhoneStorage.switchStore current storeId))
  | .continue i =>
    match w.operations[i]? with
    | some (.running (effect :: rest)) =>
      let (w', more) := perform w effect
      some { w' with operations := w'.operations.set i (.running (more ++ rest)) }
    | some (.running []) => some { w with operations := w.operations.eraseIdx i }
    | _ => none
  | .startPull =>
    w.session.map fun session =>
      let (cursor, preferences) := w.preferences.readSyncCursor session.store
      { w with
        preferences := preferences
        pulls := w.pulls ++
          [⟨session.store, cursor, .ready, false, false, cursor.isNone || w.full session.store⟩] }
  | .request i =>
    match w.pulls[i]?, w.token with
    | some p, some person =>
      match p.stage with
      | .ready =>
        some { w with
          pulls := w.pulls.set i { p with stage := .requested person w.now, overtaken := false } }
      | _ => none
    | _, _ => none
  | .answer i reads =>
    match w.pulls[i]? with
    | some p =>
      match p.stage with
      | .requested person since =>
        if ReadsBetween server since w.now reads then
          some { w with
            pulls := w.pulls.set i { p with
              stage := .answered since ((w.actorOf person).can .viewProfit)
                (answerOf server w p.storeId p.cursor person reads) } }
        else none
      | _ => none
    | none => none
  | .applyPage i =>
    match w.pulls[i]? with
    | some p =>
      match p.stage with
      | .answered _ seesCosts page =>
        some { w with
          db := w.db.applyPage page
          pulls := (w.pulls.map (Pull.overtake p.storeId seesCosts)).set i
            { p.overtake p.storeId seesCosts with stage := .applied page }
          full := Function.update w.full p.storeId (w.full p.storeId && seesCosts) }
      | _ => none
    | none => none
  | .writeCursor i =>
    match w.pulls[i]? with
    | some p =>
      match p.stage with
      | .applied page =>
        some { w with
          preferences := w.preferences.writeSyncCursor p.storeId page.cursor
          pulls := if page.hasMore then
            w.pulls.set i { p with cursor := some page.cursor, stage := .ready }
            else w.pulls.eraseIdx i
          full := Function.update w.full p.storeId p.full }
      | _ => none
    | none => none
  | .abandon i => some { w with pulls := w.pulls.eraseIdx i }
  | .crash => some { w with session := none, pulls := [], operations := [] }
  | .restore => some { w with session := PhoneStorage.restore w.preferences w.db }

/-- A run of the server and the phone. -/
def run (server : Server) (w : World) (actions : List Action) : Option World :=
  actions.foldlM (step server) w

/-- What a step of the server or the phone does to the rows, the cursors and
the pulls. -/
inductive Stepped (server : Server) (w : World) : Action → World → Prop
  | idle {a : Action} {w' : World} (hdb : w'.db = w.db) (hprefs : w'.preferences = w.preferences)
      (hnow : w'.now = w.now) (hfull : w'.full = w.full) (hpulls : ∀ p ∈ w'.pulls, p ∈ w.pulls)
      (hop : ∀ i, a = .continue i → w.operations[i]? = some (.running []))
      (hcursor : ∀ i, a ≠ .writeCursor i) : Stepped server w a w'
  | commit : Stepped server w .commit { w with now := w.now + 1 }
  | write {table : SyncTable} {id : Uuid} {row : table.Row} {items : List (Uuid × SaleItem)}
      (hown : OwnLines w.db id items) :
      Stepped server w (.write table id row items)
        { w with db := w.db.write table id row items }
  | uploaded {table : SyncTable} {id : Uuid} :
      Stepped server w (.uploaded table id) { w with db := w.db.uploaded table id }
  | performed {i : ℕ} {effect : Effect} {rest : List Effect} {operations : List Operation}
      (hop : w.operations[i]? = some (.running (effect :: rest))) :
      Stepped server w (.continue i) { (perform w effect).1 with operations := operations }
  | started {session : AuthSession} (hsession : w.session = some session) :
      Stepped server w .startPull { w with
        preferences := (w.preferences.readSyncCursor session.store).2
        pulls := w.pulls ++ [⟨session.store, (w.preferences.readSyncCursor session.store).1,
          .ready, false, false, (w.preferences.readSyncCursor session.store).1.isNone ||
            w.full session.store⟩] }
  | requested {i : ℕ} {p : Pull} {person : Person} (hget : w.pulls[i]? = some p) :
      Stepped server w (.request i) { w with
        pulls := w.pulls.set i { p with stage := .requested person w.now, overtaken := false } }
  | answered {i : ℕ} {reads : PullReads} {p : Pull} {person : Person} {since : ℕ}
      (hget : w.pulls[i]? = some p) (hstage : p.stage = .requested person since)
      (hreads : ReadsBetween server since w.now reads) :
      Stepped server w (.answer i reads) { w with
        pulls := w.pulls.set i { p with
          stage := .answered since ((w.actorOf person).can .viewProfit)
            (answerOf server w p.storeId p.cursor person reads) } }
  | applied {i : ℕ} {p : Pull} {since : ℕ} {costs : Bool} {page : PullResponse}
      (hget : w.pulls[i]? = some p) (hstage : p.stage = .answered since costs page) :
      Stepped server w (.applyPage i) { w with
        db := w.db.applyPage page
        pulls := (w.pulls.map (Pull.overtake p.storeId costs)).set i
          { p.overtake p.storeId costs with stage := .applied page }
        full := Function.update w.full p.storeId (w.full p.storeId && costs) }
  | cursorWritten {i : ℕ} {p : Pull} {page : PullResponse} {pulls : List Pull}
      (hget : w.pulls[i]? = some p) (hstage : p.stage = .applied page)
      (hpulls : ∀ q ∈ pulls, q ∈ w.pulls ∨
        q = { p with cursor := some page.cursor, stage := .ready }) :
      Stepped server w (.writeCursor i) { w with
        preferences := w.preferences.writeSyncCursor p.storeId page.cursor
        pulls := pulls
        full := Function.update w.full p.storeId p.full }

section

variable {server : Server} {w w' : World} {a : Action}

theorem stepped_of_step (h : step server w a = some w') : Stepped server w a w' := by
  cases a with
  | commit =>
    cases h
    exact .commit
  | write table id row items =>
    simp only [step] at h
    split_ifs at h with hown
    cases h
    exact .write hown
  | uploaded table id =>
    cases h
    exact .uploaded
  | refreshAccount =>
    simp only [step, Option.map_eq_some_iff] at h
    obtain ⟨current, -, rfl⟩ := h
    exact .idle rfl rfl rfl rfl (fun _ hp => hp) nofun nofun
  | accountAnswered i stores =>
    simp only [step] at h
    split at h
    · cases h
      exact .idle rfl rfl rfl rfl (fun _ hp => hp) nofun nofun
    · cases h
  | switchStore storeId =>
    simp only [step, Option.map_eq_some_iff] at h
    obtain ⟨current, -, rfl⟩ := h
    exact .idle rfl rfl rfl rfl (fun _ hp => hp) nofun nofun
  | «continue» i =>
    simp only [step] at h
    split at h
    · rename_i effect rest hop
      cases h
      exact .performed hop
    · rename_i hop
      cases h
      refine .idle rfl rfl rfl rfl (fun _ hp => hp) (fun j hj => ?_) nofun
      cases hj
      exact hop
    · cases h
  | startPull =>
    simp only [step, Option.map_eq_some_iff] at h
    obtain ⟨session, hsession, rfl⟩ := h
    exact .started hsession
  | request i =>
    simp only [step] at h
    split at h
    · rename_i p person hget _
      split at h
      · cases h
        exact .requested hget
      · cases h
    · cases h
  | answer i reads =>
    simp only [step] at h
    split at h
    · rename_i p hget
      split at h
      · rename_i person since hstage
        split_ifs at h with hreads
        cases h
        exact .answered hget hstage hreads
      · cases h
    · cases h
  | applyPage i =>
    simp only [step] at h
    split at h
    · rename_i p hget
      split at h
      · rename_i since costs page hstage
        cases h
        exact .applied hget hstage
      · cases h
    · cases h
  | writeCursor i =>
    simp only [step] at h
    split at h
    · rename_i p hget
      split at h
      · rename_i page hstage
        cases h
        refine .cursorWritten hget hstage fun q hq => ?_
        split_ifs at hq
        · exact List.mem_or_eq_of_mem_set hq
        · exact Or.inl (List.mem_of_mem_eraseIdx hq)
      · cases h
    · cases h
  | abandon i =>
    cases h
    exact .idle rfl rfl rfl rfl (fun _ hp => List.mem_of_mem_eraseIdx hp) nofun nofun
  | crash =>
    cases h
    exact .idle rfl rfl rfl rfl (fun _ hp => absurd hp List.not_mem_nil) nofun nofun
  | _ =>
    cases h
    exact .idle rfl rfl rfl rfl (fun _ hp => hp) nofun nofun

end

/-- The row versions a cursor is past at a moment, so that the server would
not deliver them for it. -/
def Passed (h : ServerHistory) (n : ℕ) (storeId : Uuid) (cursor : SyncCursor)
    (table : SyncTable) (id : Uuid) (row : table.Row) : Prop :=
  (table.rows (h.db n)).find? id = some row ∧ table.storeId row = storeId ∧
    table.key id row ≤ cursor.mark table

/-- The lines of a record on the phone. -/
def heldLines : SyncTable → Uuid → LocalDb → Table Uuid SaleItem
  | .sales, id, db => db.saleItems.filter fun _ item => item.saleId == id
  | _, _, _ => Table.empty

/-- A row version is in the local tables, with its lines, as it is shown to
this person, or superseded by a local write over its copy. -/
def Present (db : LocalDb) (committed : Db) (seesCosts : Bool) (table : SyncTable) (id : Uuid)
    (row : table.Row) : Prop :=
  (∃ mine copy, (db.rows table).find? id = some (.written mine (some copy)) ∧
    shown seesCosts table copy = shown seesCosts table row) ∨
  (∃ copy, (db.rows table).find? id = some (.pulled copy) ∧
    shown seesCosts table copy = shown seesCosts table row ∧
    ∀ j, ((heldLines table id db).find? j).map (shownLine seesCosts) =
      ((lines table id committed).find? j).map (shownLine seesCosts))

/-- Whenever a cursor is stored for a store that the phone's session covers,
every row version the server would no longer deliver for it to this person
is present. -/
def CursorSound (server : Server) (w : World) : Prop :=
  ∀ session, w.session = some session → ∀ storeId ∈ session.stores,
    ∀ raw, w.preferences.cursors.find? storeId = some raw → ∀ table id row,
    Passed server.history w.now storeId (server.text.decode (some raw)) table id row →
    (table.withheld = true → w.seesCosts session = true) →
    Present w.db (server.history.db w.now) (w.seesCosts session) table id row

/-- Whether an operation is about to wipe the tables. -/
def Operation.wipesNext : Operation → Bool
  | .running (.wipe :: _) => true
  | _ => false

/-- Nothing was cleared under a pull whose cursor is written, no other pull
applied a page since a page that is applied was asked for, and no cursor is
stored when the tables are wiped. -/
def SoundStep (w : World) : Action → Prop
  | .applyPage i => ∀ p ∈ w.pulls[i]?, p.overtaken = false
  | .writeCursor i => ∀ p ∈ w.pulls[i]?, p.cleared = false
  | .continue i =>
    ∀ operation ∈ w.operations[i]?, operation.wipesNext = true → w.preferences.cursors.ids = ∅
  | _ => True

instance (w : World) (a : Action) : Decidable (SoundStep w a) := by
  cases a <;> dsimp only [SoundStep] <;> infer_instance

/-- A person who sees costs has no cursor in their stores that passed
something withheld from them. -/
def NothingWithheld (w : World) : Prop :=
  ∀ session ∈ w.session, w.seesCosts session = true → ∀ storeId ∈ session.stores,
    (w.preferences.cursors.find? storeId).isSome = true → w.full storeId = true

instance (w : World) : Decidable (NothingWithheld w) :=
  inferInstanceAs (Decidable (∀ session ∈ w.session, _))

/-- Every step of a run is sound and leaves nothing withheld. -/
def SoundRun (server : Server) : World → List Action → Prop
  | _, [] => True
  | w, a :: rest => SoundStep w a ∧
    match step server w a with
    | some w' => NothingWithheld w' ∧ SoundRun server w' rest
    | none => True

instance decidableSoundRun (server : Server) :
    (w : World) → (actions : List Action) → Decidable (SoundRun server w actions)
  | _, [] => isTrue trivial
  | w, a :: rest =>
    match h : step server w a with
    | some w' =>
      have := decidableSoundRun server w' rest
      decidable_of_iff (SoundStep w a ∧ NothingWithheld w' ∧ SoundRun server w' rest)
        (by rw [SoundRun, h])
    | none => decidable_of_iff (SoundStep w a) (by rw [SoundRun, h, and_true])

/-- A row and a sale line stay in their store. -/
structure KeepsStores (h : ServerHistory) : Prop where
  /-- A row is never moved to another store. -/
  row : ∀ (table : SyncTable) id i j a b, (table.rows (h.db i)).find? id = some a →
    (table.rows (h.db j)).find? id = some b → table.storeId a = table.storeId b
  /-- Nor is a line given to a sale of another store. -/
  line : ∀ id i j a b, (h.db i).saleItems.find? id = some a →
    (h.db j).saleItems.find? id = some b → ∀ k l s t, (h.db k).sales.find? a.saleId = some s →
    (h.db l).sales.find? b.saleId = some t → s.storeId = t.storeId

section

variable {h : ServerHistory} {table : SyncTable} {mark : TableMark} {i j n : ℕ}

/-- From a moment on, the versions up to a mark are the ones that were
there, with their lines. -/
def PastFrom (h : ServerHistory) (table : SyncTable) (mark : TableMark) (i : ℕ) : Prop :=
  ∀ j id row, i ≤ j → (table.rows (h.db j)).find? id = some row → table.key id row ≤ mark →
    ∀ k, i ≤ k → k ≤ j → (table.rows (h.db k)).find? id = some row ∧
      lines table id (h.db k) = lines table id (h.db j)

theorem PastFrom.mono (hp : PastFrom h table mark i) (hij : i ≤ j) : PastFrom h table mark j :=
  fun k id row hk hrow hle l hl hlk => hp k id row (hij.trans hk) hrow hle l (hij.trans hl) hlk

/-- No row lies before the epoch. -/
theorem pastFrom_origin {window : ℤ} (hs : h.Stamped window) :
    PastFrom h table TableMark.origin i := by
  intro j id row _ hrow hle
  exfalso
  apply hle.not_gt
  rw [TableMark.lt_iff]
  exact Or.inl (hs.afterEpoch table id j row hrow)

/-- A mark the clock has left behind by more than the window is settled. -/
theorem pastFrom_of_lt {window : ℤ} (hs : h.Stamped window)
    (hlt : mark.updatedAt < h.clock i - window) : PastFrom h table mark i := by
  intro j id row _ hrow hle k hik hkj
  obtain ⟨d, rfl⟩ := Nat.exists_eq_add_of_le hkj
  clear hkj
  induction d generalizing k with
  | zero => exact ⟨hrow, rfl⟩
  | succ d ih =>
    have hd : k + (d + 1) = k + 1 + d := by omega
    rw [hd] at hrow ⊢
    obtain ⟨hnext, hlines⟩ := ih (k + 1) (by omega) (by omega) hrow
    have hsame : (table.rows (h.db k)).find? id = some row ∧
        lines table id (h.db k) = lines table id (h.db (k + 1)) := by
      by_contra hchanged
      have hclock := hs.stamped table id k row hnext (not_and_or.mp hchanged)
      have hmark : table.updatedAt row ≤ mark.updatedAt := by
        by_contra hgt
        apply hle.not_gt
        rw [TableMark.lt_iff]
        exact Or.inl (not_le.mp hgt)
      have hmono : h.clock i ≤ h.clock (k + 1) := hs.monotone (by omega)
      have h1 : h.clock i ≤ mark.updatedAt + window :=
        hmono.trans (hclock.trans (add_le_add_left hmark window))
      exact absurd (lt_sub_iff_add_lt.mp hlt) h1.not_gt
    exact ⟨hsame.1, hsame.2.trans hlines⟩

end

/-- All marks of a cursor are settled. -/
def Settled (h : ServerHistory) (i : ℕ) (cursor : SyncCursor) : Prop :=
  ∀ table, PastFrom h table (cursor.mark table) i

theorem Settled.mono {h : ServerHistory} {i j : ℕ} {cursor : SyncCursor} (hs : Settled h i cursor)
    (hij : i ≤ j) : Settled h j cursor := fun table => (hs table).mono hij

/-- A phone has the versions a cursor is past. -/
def Covers (h : ServerHistory) (n : ℕ) (db : LocalDb) (storeId : Uuid) (cursor : SyncCursor)
    (seesCosts : Bool) : Prop :=
  ∀ table id row, Passed h n storeId cursor table id row →
    (table.withheld = true → seesCosts = true) → Present db (h.db n) seesCosts table id row

section

variable {sees costs : Bool}

/-- What is shown to one with less access can be made of what is shown to
one with more. -/
theorem shown_shown (hle : sees = true → costs = true) (table : SyncTable) (row : table.Row) :
    shown sees table (shown costs table row) = shown sees table row := by
  cases costs with
  | true => rfl
  | false =>
    obtain rfl : sees = false := by
      cases sees with
      | true => exact absurd (hle rfl) Bool.false_ne_true
      | false => rfl
    cases table <;> rfl

theorem shownLine_shownLine (hle : sees = true → costs = true) (item : SaleItem) :
    shownLine sees (shownLine costs item) = shownLine sees item := by
  cases costs with
  | true => rfl
  | false =>
    obtain rfl : sees = false := by
      cases sees with
      | true => exact absurd (hle rfl) Bool.false_ne_true
      | false => rfl
    rfl

theorem shownLine_saleId (item : SaleItem) : (shownLine sees item).saleId = item.saleId := by
  cases sees <;> rfl

/-- A version present in full is present for one who sees less. -/
theorem Present.weaken {db : LocalDb} {committed : Db} {table : SyncTable} {id : Uuid}
    {row : table.Row} (hle : sees = true → costs = true)
    (hp : Present db committed costs table id row) : Present db committed sees table id row := by
  refine hp.imp ?_ ?_
  · rintro ⟨mine, copy, hcopy, hrow⟩
    exact ⟨mine, copy, hcopy, by rw [← shown_shown hle, hrow, shown_shown hle]⟩
  rintro ⟨copy, hcopy, hrow, hlines⟩
  refine ⟨copy, hcopy, ?_, fun j => ?_⟩
  · rw [← shown_shown hle, hrow, shown_shown hle]
  · have hj := congrArg (Option.map (shownLine sees)) (hlines j)
    simpa only [Option.map_map, Function.comp_def, shownLine_shownLine hle] using hj

theorem Covers.weaken {h : ServerHistory} {n : ℕ} {db : LocalDb} {storeId : Uuid}
    {cursor : SyncCursor} (hc : Covers h n db storeId cursor costs)
    (hle : sees = true → costs = true) : Covers h n db storeId cursor sees :=
  fun table id row hp hw => (hc table id row hp fun ht => hle (hw ht)).weaken hle

end

/-- What a page holds: rows of the store as the statements saw them, with
the lines of its sales, up to a next cursor. -/
structure Delivery (h : ServerHistory) (storeId : Uuid) (costs : Bool) (cursor : SyncCursor)
    (since now : ℕ) (page : PullResponse) (next : SyncCursor) (seenAt : SyncTable → ℕ)
    (linesAt : ℕ) : Prop where
  /-- The statements ran after the request. -/
  seen : ∀ table, since ≤ seenAt table ∧ seenAt table ≤ now
  /-- The lines were read after the sales. -/
  linesAfter : seenAt .sales ≤ linesAt ∧ linesAt ≤ now
  /-- A row is a row of the store, as it is shown. -/
  row : ∀ table id r, (id, r) ∈ page.pages table →
    ∃ row, (table.rows (h.db (seenAt table))).find? id = some row ∧
      table.storeId row = storeId ∧ r = shown costs table row
  /-- The lines are those of the page's sales. -/
  item : ∀ j item, (j, item) ∈ page.saleItems ↔
    ∃ line, (h.db linesAt).saleItems.find? j = some line ∧
      line.saleId ∈ (page.pages .sales).map Prod.fst ∧ item = shownLine costs line
  /-- What comes to be visible later lies past the next marks. -/
  past : ∀ table, PastFrom h table (cursor.mark table) since →
    PastFrom h table (next.mark table) (seenAt table)
  /-- The rows between the marks are on the page. -/
  complete : ∀ table id row, (table.rows (h.db (seenAt table))).find? id = some row →
    table.storeId row = storeId → cursor.mark table < table.key id row →
    table.key id row ≤ next.mark table → ∃ r, (id, r) ∈ page.pages table

/-- Later is after, too. -/
theorem Delivery.mono {h : ServerHistory} {storeId : Uuid} {costs : Bool}
    {cursor next : SyncCursor} {since now now' : ℕ} {page : PullResponse}
    {seenAt : SyncTable → ℕ} {linesAt : ℕ}
    (hd : Delivery h storeId costs cursor since now page next seenAt linesAt)
    (hle : now ≤ now') : Delivery h storeId costs cursor since now' page next seenAt linesAt :=
  { hd with
    seen := fun table => ⟨(hd.seen table).1, (hd.seen table).2.trans hle⟩
    linesAfter := ⟨hd.linesAfter.1, hd.linesAfter.2.trans hle⟩ }

/-- An answer delivers what lies between the cursor sent and the one
returned. -/
theorem delivery_of_answer {server : Server} {w : World} {storeId : Uuid}
    {raw : Option String} {person : Person} {reads : PullReads} {since : ℕ}
    (hs : server.history.Stamped server.settings.settleWindow) (hround : server.text.RoundTrips)
    (hr : ReadsBetween server since w.now reads) :
    Delivery server.history storeId ((w.actorOf person).can .viewProfit)
      (server.text.decode raw) since w.now (answerOf server w storeId raw person reads)
      (server.text.decode (some (answerOf server w storeId raw person reads).cursor))
      reads.seenAt reads.linesAt := by
  obtain ⟨hpages, ⟨next, hnext, hmark⟩, hitems⟩ := @pull_received server.text server.settings
    storeId (w.actorOf person) raw
    (fun table => ⟨server.history.db (reads.seenAt table), reads.now table⟩)
    (server.history.db reads.linesAt)
  have hcursor : server.text.decode (some (answerOf server w storeId raw person reads).cursor) =
      next := by
    rw [answerOf, hnext, hround.decode_encode]
  rw [hcursor]
  change ∀ table, (answerOf server w storeId raw person reads).pages table = _ at hpages
  change (answerOf server w storeId raw person reads).saleItems = _ at hitems
  set page := answerOf server w storeId raw person reads
  refine ⟨fun table => ⟨(hr.1 table).1, (hr.1 table).2.1⟩, hr.2, ?_, ?_, ?_, ?_⟩
  · intro table id r hmem
    rw [hpages table] at hmem
    split_ifs at hmem with hread
    · obtain ⟨e, he, heq⟩ := List.mem_map.mp hmem
      cases heq
      obtain ⟨hfind, -, hready⟩ := of_mem_page he
      rw [ready, Bool.and_eq_true, beq_iff_eq] at hready
      exact ⟨e.2, hfind, hready.1, rfl⟩
    · cases hmem
  · intro j item
    rw [hitems, List.mem_map]
    constructor
    · rintro ⟨⟨k, line⟩, hmem, heq⟩
      cases heq
      obtain ⟨hfind, hid⟩ := mem_linesForSales.mp hmem
      exact ⟨line, hfind, hid, rfl⟩
    · rintro ⟨line, hfind, hid, rfl⟩
      exact ⟨(j, line), mem_linesForSales.mpr ⟨hfind, hid⟩, rfl⟩
  · intro table hold
    rw [hmark table]
    split_ifs with hread
    · rcases nextMark_eq table.key ((server.text.decode raw).mark table) (pageAt server.settings
        storeId (fun table => ⟨server.history.db (reads.seenAt table), reads.now table⟩)
        (server.text.decode raw) table) with hsame | ⟨e, he, hlast⟩
      · rw [hsame]
        exact hold.mono (hr.1 table).1
      · rw [hlast]
        obtain ⟨-, -, hready⟩ := of_mem_page he
        rw [ready, Bool.and_eq_true, decide_eq_true_iff] at hready
        exact pastFrom_of_lt hs (hready.2.trans_le (sub_le_sub_right (hr.1 table).2.2 _))
    · exact hold.mono (hr.1 table).1
  · intro table id row hfind hstore hlt hle
    rw [hmark table] at hle
    rw [hpages table]
    split_ifs at hle ⊢ with hread
    · have hcase := @mem_page_or_nextMark_lt _ _ _ _ _ (table.rows (server.history.db
        (reads.seenAt table))) table.key (ready server.settings table storeId (reads.now table))
        ((server.text.decode raw).mark table) server.settings.pageSize id row hfind hlt
        (fun j s he => key_injective he) (by
          -- a row too young to be ready has a later stamp than every ready one
          intro hyoung j s hready
          rw [ready, Bool.and_eq_true, decide_eq_true_iff] at hready
          simp only [ready, hstore, beq_self_eq_true, Bool.true_and,
            decide_eq_false_iff_not, not_lt] at hyoung
          rw [TableMark.lt_iff]
          exact Or.inl (hready.2.trans_le hyoung))
      have hmem := hcase.resolve_right hle.not_gt
      exact ⟨shown _ table row, List.mem_map.mpr ⟨(id, row), hmem, rfl⟩⟩
    · exact absurd hle hlt.not_ge

section

variable {h : ServerHistory} {storeId : Uuid} {costs sees : Bool} {cursor next : SyncCursor}
  {since now : ℕ} {page : PullResponse} {seenAt : SyncTable → ℕ} {linesAt : ℕ} {db : LocalDb}
  {table : SyncTable} {id : Uuid} {row : table.Row}

/-- A row on the page replaces the local copy. -/
theorem Delivery.find?_applyPage
    (hd : Delivery h storeId costs cursor since now page next seenAt linesAt) {r : table.Row}
    (hmem : (id, r) ∈ page.pages table) :
    ((db.applyPage page).rows table).find? id = some (.pulled r) := by
  have hput : (id, LocalRow.pulled r) ∈
      (page.pages table).map fun e => (e.1, LocalRow.pulled e.2) :=
    List.mem_map.mpr ⟨(id, r), hmem, rfl⟩
  apply Table.find?_putAll_of_mem hput
  intro s hs
  obtain ⟨⟨k, r'⟩, hmem', heq⟩ := List.mem_map.mp hs
  obtain ⟨rfl, rfl⟩ := Prod.mk.inj heq
  obtain ⟨a, ha, -, rfl⟩ := hd.row table k r hmem
  obtain ⟨b, hb, -, rfl⟩ := hd.row table k r' hmem'
  rw [ha] at hb
  cases hb
  rfl

/-- A row that is not on the page stays. -/
theorem find?_applyPage_of_notMem (hmem : ∀ r, (id, r) ∉ page.pages table) :
    ((db.applyPage page).rows table).find? id = (db.rows table).find? id := by
  apply Table.find?_putAll_of_notMem
  intro s hs
  obtain ⟨⟨k, r⟩, hmem', heq⟩ := List.mem_map.mp hs
  cases heq
  exact hmem r hmem'

/-- Where a page's lines end up: a line delivered replaces the local one,
and the other lines of the page's sales are gone. -/
theorem Delivery.saleItems_applyPage
    (hd : Delivery h storeId costs cursor since now page next seenAt linesAt) (db : LocalDb)
    (j : Uuid) :
    (∃ line, (h.db linesAt).saleItems.find? j = some line ∧
      line.saleId ∈ (page.pages .sales).map Prod.fst ∧
      (db.applyPage page).saleItems.find? j = some (shownLine costs line)) ∨
    (∀ line, (h.db linesAt).saleItems.find? j = some line →
      line.saleId ∉ (page.pages .sales).map Prod.fst) ∧
      (db.applyPage page).saleItems.find? j = (db.saleItems.find? j).filter
        fun item => !(((page.pages .sales).map Prod.fst).contains item.saleId) := by
  by_cases hline : ∃ line, (h.db linesAt).saleItems.find? j = some line ∧
      line.saleId ∈ (page.pages .sales).map Prod.fst
  · obtain ⟨line, hfind, hid⟩ := hline
    refine Or.inl ⟨line, hfind, hid, ?_⟩
    apply Table.find?_putAll_of_mem ((hd.item j _).mpr ⟨line, hfind, hid, rfl⟩)
    intro s hs
    obtain ⟨line', hfind', -, rfl⟩ := (hd.item j s).mp hs
    rw [hfind] at hfind'
    cases hfind'
    rfl
  · refine Or.inr ⟨fun line hfind hid => hline ⟨line, hfind, hid⟩, ?_⟩
    rw [LocalDb.applyPage, Table.find?_putAll_of_notMem]
    · rfl
    · intro s hs
      obtain ⟨line, hfind, hid, -⟩ := (hd.item j s).mp hs
      exact hline ⟨line, hfind, hid⟩

/-- The phone's lines of a sale, looked up. -/
theorem find?_heldLines (j : Uuid) : (heldLines .sales id db).find? j =
    (db.saleItems.find? j).filter fun item => item.saleId == id := rfl

/-- The server's lines of a sale, looked up. -/
theorem find?_lines (committed : Db) (j : Uuid) : (lines .sales id committed).find? j =
    (committed.saleItems.find? j).filter fun item => item.saleId == id := rfl

/-- A version on the page that is still the server's is present after the
page was applied. -/
theorem Delivery.present_of_mem
    (hd : Delivery h storeId costs cursor since now page next seenAt linesAt)
    (hle : sees = true → costs = true) {r : table.Row} (hmem : (id, r) ∈ page.pages table)
    (hrow : (table.rows (h.db (seenAt table))).find? id = some row)
    (hlines : table = .sales → lines table id (h.db linesAt) = lines table id (h.db now)) :
    Present (db.applyPage page) (h.db now) sees table id row := by
  obtain ⟨row', hfind, -, rfl⟩ := hd.row table id r hmem
  rw [hrow] at hfind
  cases hfind
  refine Or.inr ⟨_, hd.find?_applyPage hmem, shown_shown hle table row, fun j => ?_⟩
  by_cases hsales : table = .sales
  · subst hsales
    have hid : id ∈ (page.pages .sales).map Prod.fst := List.mem_map.mpr ⟨(id, _), hmem, rfl⟩
    rw [← hlines rfl, find?_heldLines, find?_lines]
    rcases hd.saleItems_applyPage db j with
      ⟨line, hfind, -, hheld⟩ | ⟨hnone, hheld⟩
    · rw [hheld, hfind]
      by_cases hof : line.saleId = id
      · simp [Option.filter, shownLine_saleId, hof, shownLine_shownLine hle]
      · simp [Option.filter, shownLine_saleId, hof]
    · have hserver : ((h.db linesAt).saleItems.find? j).filter
          (fun item => item.saleId == id) = none := by
        rw [Option.filter_eq_none_iff]
        intro line hfind
        rw [beq_iff_eq]
        rintro rfl
        exact hnone line hfind hid
      have hlocal : ((db.applyPage page).saleItems.find? j).filter
          (fun item => item.saleId == id) = none := by
        rw [hheld, Option.filter_eq_none_iff]
        intro item hitem
        have hkept := (Option.filter_eq_some_iff.mp hitem).2
        rw [beq_iff_eq]
        rintro rfl
        rw [List.contains_iff_mem.mpr hid] at hkept
        cases hkept
      rw [hserver, hlocal]
  · cases table <;> first | rfl | exact absurd rfl hsales

/-- A sale that is not on the page keeps its lines, if they are the server's. -/
theorem Delivery.heldLines_applyPage
    (hd : Delivery h storeId costs cursor since now page next seenAt linesAt)
    (hmem : ∀ r, (id, r) ∉ page.pages .sales) (hfree : ∀ j line line',
      (h.db linesAt).saleItems.find? j = some line →
      line.saleId ∈ (page.pages .sales).map Prod.fst →
      (h.db now).saleItems.find? j = some line' → line'.saleId ≠ id)
    (hheld : ∀ j, ((heldLines .sales id db).find? j).map (shownLine sees) =
      ((lines .sales id (h.db now)).find? j).map (shownLine sees)) (j : Uuid) :
    ((heldLines .sales id (db.applyPage page)).find? j).map (shownLine sees) =
      ((lines .sales id (h.db now)).find? j).map (shownLine sees) := by
  have hid : id ∉ (page.pages .sales).map Prod.fst := by
    intro hid
    obtain ⟨e, he, rfl⟩ := List.mem_map.mp hid
    exact hmem e.2 he
  rcases hd.saleItems_applyPage db j with
    ⟨line, hfind, hin, hnew⟩ | ⟨-, hnew⟩
  · -- a line of another sale was put here, so the server has none of this sale here
    have hserver : (lines .sales id (h.db now)).find? j = none := by
      rw [find?_lines, Option.filter_eq_none_iff]
      intro line' hfind'
      rw [beq_iff_eq]
      exact hfree j line line' hfind hin hfind'
    have hlocal : (heldLines .sales id (db.applyPage page)).find? j = none := by
      rw [find?_heldLines, hnew, Option.filter_eq_none_iff]
      intro item hitem
      obtain rfl := Option.some.inj hitem
      rw [beq_iff_eq, shownLine_saleId]
      rintro rfl
      exact hid hin
    rw [hserver, hlocal]
  · rw [← hheld j, find?_heldLines, find?_heldLines, hnew]
    cases db.saleItems.find? j with
    | none => rfl
    | some item =>
      by_cases hof : item.saleId = id
      · have hnot : item.saleId ∉ (page.pages .sales).map Prod.fst := hof ▸ hid
        have hkeep : ((page.pages .sales).map Prod.fst).contains item.saleId = false := by
          rw [← Bool.not_eq_true, List.contains_iff_mem]
          exact hnot
        simp only [Option.filter, hkeep, Bool.not_false, if_true]
      · have hno : (item.saleId == id) = false := beq_false_of_ne hof
        by_cases hkeep : ((page.pages .sales).map Prod.fst).contains item.saleId = true
        · simp only [Option.filter, hkeep, hno, Bool.not_true, Bool.false_eq_true, if_false]
        · rw [Bool.not_eq_true] at hkeep
          simp only [Option.filter, hkeep, hno, Bool.not_false, if_true]

/-- Applying a page keeps what the phone covers, for a cursor that was
settled when the page was asked for and for cursors of other stores. -/
theorem Delivery.covers_applyPage
    (hd : Delivery h storeId costs cursor since now page next seenAt linesAt)
    (hone : KeepsStores h) {other : Uuid} {old : SyncCursor}
    (hle : other = storeId → sees = true → costs = true)
    (hc : Covers h now db other old sees) (hold : other = storeId → Settled h since old) :
    Covers h now (db.applyPage page) other old sees := by
  intro table id row hp hw
  obtain ⟨hfind, hstore, hkey⟩ := hp
  by_cases hmem : ∃ r, (id, r) ∈ page.pages table
  · obtain ⟨r, hmem⟩ := hmem
    obtain ⟨seen, hseen, hseenStore, -⟩ := hd.row table id r hmem
    have hsame : other = storeId := by
      rw [← hstore, ← hseenStore]
      exact hone.row table id _ _ _ _ hfind hseen
    have hsettled := hold hsame table now id row
      ((hd.seen table).1.trans (hd.seen table).2) hfind hkey
    refine hd.present_of_mem (hle hsame) hmem
      (hsettled _ (hd.seen table).1 (hd.seen table).2).1 fun hsales => ?_
    subst hsales
    exact (hsettled linesAt ((hd.seen .sales).1.trans hd.linesAfter.1) hd.linesAfter.2).2
  · have hnot : ∀ r, (id, r) ∉ page.pages table := fun r hr => hmem ⟨r, hr⟩
    rcases hc table id row ⟨hfind, hstore, hkey⟩ hw with
      ⟨mine, copy, hmine, hshown⟩ | ⟨copy, hcopy, hshown, hheld⟩
    · exact Or.inl ⟨mine, copy, by rw [find?_applyPage_of_notMem hnot, hmine], hshown⟩
    · refine Or.inr ⟨copy, by rw [find?_applyPage_of_notMem hnot, hcopy], hshown, ?_⟩
      by_cases hsales : table = .sales
      · subst hsales
        apply hd.heldLines_applyPage hnot _ hheld
        rintro j line line' hline hin hline' rfl
        by_cases hsame : other = storeId
        · -- the line was this sale's already when the page's lines were read
          have hback := (hold hsame .sales now line'.saleId row
            ((hd.seen .sales).1.trans (hd.seen .sales).2) hfind hkey linesAt
            ((hd.seen .sales).1.trans hd.linesAfter.1) hd.linesAfter.2).2
          have hthen : (lines .sales line'.saleId (h.db linesAt)).find? j = some line' := by
            rw [hback, find?_lines, hline']
            simp [Option.filter]
          rw [find?_lines, hline] at hthen
          obtain ⟨hl, -⟩ := Option.filter_eq_some_iff.mp hthen
          cases hl
          obtain ⟨e, he, hid⟩ := List.mem_map.mp hin
          exact hnot e.2 (hid ▸ he)
        · obtain ⟨e, he, hid⟩ := List.mem_map.mp hin
          obtain ⟨seen, hseen, hseenStore, -⟩ := hd.row .sales e.1 e.2 he
          apply hsame
          rw [← hstore, ← hseenStore]
          exact (hone.line j _ _ _ _ hline hline' _ _ _ _ (hid ▸ hseen) hfind).symm
      · intro j
        have hboth : (heldLines table id (db.applyPage page)) = heldLines table id db := by
          cases table <;> first | rfl | exact absurd rfl hsales
        rw [hboth, hheld j]

/-- A pull whose cursor the phone covers, covers the next one once its page
is applied. -/
theorem Delivery.covers_next
    (hd : Delivery h storeId costs cursor since now page next seenAt linesAt)
    (hone : KeepsStores h) (hle : sees = true → costs = true)
    (hc : Covers h now db storeId cursor sees) (hold : Settled h since cursor) :
    Covers h now (db.applyPage page) storeId next sees := by
  intro table id row hp hw
  by_cases hkey : table.key id row ≤ cursor.mark table
  · exact hd.covers_applyPage hone (fun _ => hle) hc (fun _ => hold) table id row ⟨hp.1, hp.2.1, hkey⟩ hw
  · have hsettled := hd.past table (hold table) now id row (hd.seen table).2 hp.1 hp.2.2
    have hseen := (hsettled _ le_rfl (hd.seen table).2).1
    obtain ⟨r, hmem⟩ := hd.complete table id row hseen hp.2.1 (not_le.mp hkey) hp.2.2
    refine hd.present_of_mem hle hmem hseen fun hsales => ?_
    subst hsales
    exact (hsettled linesAt hd.linesAfter.1 hd.linesAfter.2).2

end

/-- The moment a page still to be applied was asked for. -/
def Stage.since? : Stage → Option ℕ
  | .requested _ since => some since
  | .answered since _ _ => some since
  | _ => none

/-- The cursors that count: the stored ones, and those of the pulls under
which nothing was cleared; the flag says whether nothing was withheld. -/
inductive InPlay (text : CursorText) (w : World) : Uuid → SyncCursor → Bool → Prop
  | stored {storeId : Uuid} {raw : String}
      (hraw : w.preferences.cursors.find? storeId = some raw) :
      InPlay text w storeId (text.decode (some raw)) (w.full storeId)
  | reached {p : Pull} (hp : p ∈ w.pulls) (hclear : p.cleared = false) :
      InPlay text w p.storeId (text.decode p.cursor) p.full
  | applied {p : Pull} {page : PullResponse} (hp : p ∈ w.pulls) (hclear : p.cleared = false)
      (hstage : p.stage = .applied page) :
      InPlay text w p.storeId (text.decode (some page.cursor)) p.full

/-- What holds after every sound step: the phone covers every cursor that
counts, and what arrives for a page asked for lies past those of its store. -/
structure Invariant (server : Server) (w : World) : Prop where
  /-- Only old phones have the single cursor. -/
  legacy : w.preferences.legacyCursor = none
  /-- A cursor that counts is settled. -/
  settled : ∀ storeId cursor full, InPlay server.text w storeId cursor full →
    Settled server.history w.now cursor
  /-- The phone covers it. -/
  covers : ∀ storeId cursor full, InPlay server.text w storeId cursor full →
    Covers server.history w.now w.db storeId cursor full
  /-- It was settled when a page still to be applied was asked for. -/
  asked : ∀ p ∈ w.pulls, ∀ since ∈ p.stage.since?, since ≤ w.now ∧
    (p.overtaken = false → ∀ cursor full, InPlay server.text w p.storeId cursor full →
      Settled server.history since cursor)
  /-- A page answered delivers what follows the pull's cursor. -/
  page : ∀ p ∈ w.pulls, ∀ since costs page, p.stage = .answered since costs page →
    ∃ seenAt linesAt, Delivery server.history p.storeId costs (server.text.decode p.cursor) since
      w.now page (server.text.decode (some page.cursor)) seenAt linesAt

section

variable {server : Server} {w w' : World}

/-- A step that lets no new cursor count, sends no request and keeps what
the phone covers. -/
theorem Invariant.of_step (hi : Invariant server w) (hnow : w'.now = w.now)
    (hlegacy : w'.preferences.legacyCursor = none)
    (hplay : ∀ storeId cursor full, InPlay server.text w' storeId cursor full →
      ∃ before, InPlay server.text w storeId cursor before ∧ (full = true → before = true))
    (hdb : ∀ storeId cursor full, InPlay server.text w' storeId cursor full →
      Covers server.history w.now w.db storeId cursor full →
      Covers server.history w.now w'.db storeId cursor full)
    (hpulls : ∀ p' ∈ w'.pulls, p'.stage.since? ≠ none → ∃ p ∈ w.pulls, p'.storeId = p.storeId ∧
      p'.cursor = p.cursor ∧ p'.stage = p.stage ∧ (p'.overtaken = false → p.overtaken = false)) :
    Invariant server w' := by
  refine ⟨hlegacy, ?_, ?_, ?_, ?_⟩
  · intro storeId cursor full hp
    obtain ⟨before, hp, -⟩ := hplay storeId cursor full hp
    rw [hnow]
    exact hi.settled _ _ _ hp
  · intro storeId cursor full hp
    obtain ⟨before, hbefore, hle⟩ := hplay storeId cursor full hp
    rw [hnow]
    exact hdb _ _ _ hp ((hi.covers _ _ _ hbefore).weaken hle)
  · intro p' hp' since hsince
    obtain ⟨p, hp, hstore, -, hstage, hover⟩ := hpulls p' hp' (by
      rw [Option.mem_def.mp hsince]
      exact Option.some_ne_none _)
    rw [hstage] at hsince
    obtain ⟨hle, hold⟩ := hi.asked p hp since hsince
    rw [hnow]
    refine ⟨hle, fun hnot cursor full hplay' => ?_⟩
    obtain ⟨before, hbefore, -⟩ := hplay _ cursor full hplay'
    exact hold (hover hnot) cursor before (hstore ▸ hbefore)
  · intro p' hp' since costs page hstage'
    obtain ⟨p, hp, hstore, hcursor, hstage, -⟩ := hpulls p' hp' (by
      rw [hstage']
      exact Option.some_ne_none _)
    rw [hnow, hstore, hcursor]
    exact hi.page p hp since costs page (hstage ▸ hstage')

/-- Only the cursors, the pulls and what was withheld decide what counts. -/
theorem InPlay.congr {text : CursorText} {storeId : Uuid} {cursor : SyncCursor} {full : Bool}
    (h : InPlay text w' storeId cursor full)
    (hcursors : ∀ id raw, w'.preferences.cursors.find? id = some raw →
      w.preferences.cursors.find? id = some raw)
    (hpulls : ∀ p ∈ w'.pulls, p ∈ w.pulls) (hfull : w'.full = w.full) :
    InPlay text w storeId cursor full := by
  cases h with
  | stored hraw =>
    rw [hfull]
    exact .stored (hcursors _ _ hraw)
  | reached hp hclear => exact .reached (hpulls _ hp) hclear
  | applied hp hclear hstage => exact .applied (hpulls _ hp) hclear hstage

/-- A step that leaves the cursors, the rows and the record as they are and
starts no pull. -/
theorem Invariant.of_frame (hi : Invariant server w) (hnow : w'.now = w.now)
    (hlegacy : w'.preferences.legacyCursor = none)
    (hcursors : w'.preferences.cursors = w.preferences.cursors)
    (hrows : w'.db.rows = w.db.rows) (hitems : w'.db.saleItems = w.db.saleItems)
    (hpulls : ∀ p ∈ w'.pulls, p ∈ w.pulls) (hfull : w'.full = w.full) : Invariant server w' := by
  apply hi.of_step hnow hlegacy
  · intro storeId cursor full h
    exact ⟨full, h.congr (fun id raw hraw => hcursors ▸ hraw) hpulls hfull, id⟩
  · intro storeId cursor full _ hc table id row hp hw
    have hheld : heldLines table id w'.db = heldLines table id w.db := by
      cases table <;> simp only [heldLines, hitems]
    have hpresent := hc table id row hp hw
    rw [Present, hrows, hheld]
    exact hpresent
  · intro p hp _
    exact ⟨p, hpulls p hp, rfl, rfl, rfl, id⟩

/-- A write on the phone supersedes what it writes over and touches no other
record. -/
theorem Present.write {db : LocalDb} {committed : Db} {sees : Bool} {table other : SyncTable}
    {id key : Uuid} {mine : table.Row} {items : List (Uuid × SaleItem)} {row : other.Row}
    (hitems : OwnLines db id items) (hp : Present db committed sees other key row) :
    Present (db.write table id mine items) committed sees other key row := by
  by_cases hwritten : other = table ∧ key = id
  · obtain ⟨rfl, rfl⟩ := hwritten
    have hwrite : ((db.write other key mine items).rows other).find? key =
        some (.written mine (((db.rows other).find? key).bind LocalRow.copy)) := by
      simp [LocalDb.write]
    obtain ⟨before, copy, hcopy, hshown⟩ | ⟨copy, hcopy, hshown, -⟩ := hp
    · exact Or.inl ⟨mine, copy, by rw [hwrite, hcopy]; rfl, hshown⟩
    · exact Or.inl ⟨mine, copy, by rw [hwrite, hcopy]; rfl, hshown⟩
  · have hrow : ((db.write table id mine items).rows other).find? key =
        (db.rows other).find? key := by
      by_cases ht : other = table
      · subst ht
        simp only [LocalDb.write, Function.update_self]
        exact Table.find?_put_ne _ _ fun hk => hwritten ⟨rfl, hk⟩
      · simp [LocalDb.write, ht]
    rw [Present, hrow]
    refine hp.imp_right ?_
    rintro ⟨copy, hcopy, hshown, hheld⟩
    refine ⟨copy, hcopy, hshown, fun j => ?_⟩
    rw [← hheld j]
    congr 1
    cases other with
    | sales =>
      rw [find?_heldLines, find?_heldLines]
      by_cases hsales : table = .sales
      · subst hsales
        have hne : key ≠ id := fun hk => hwritten ⟨rfl, hk⟩
        simp only [LocalDb.write, if_true]
        rcases Table.find?_putAll_cases (db.saleItems.filter fun _ item => !(item.saleId == id))
          items j with ⟨item, hitem, hfind⟩ | ⟨-, hfind⟩
        · -- neither the new line under this identifier nor the old one is the other sale's
          obtain ⟨hnew, hold⟩ := hitems _ hitem
          have hno : item.saleId ≠ key := by
            rintro rfl
            exact hne hnew
          rw [hfind]
          cases hj : db.saleItems.find? j with
          | none => simp [Option.filter, hno]
          | some old => simp [Option.filter, hno, hold old hj, hne.symm]
        · rw [hfind, Table.find?_filter]
          cases db.saleItems.find? j with
          | none => rfl
          | some item =>
            by_cases hof : item.saleId = key
            · have hno : item.saleId ≠ id := hof ▸ hne
              simp [Option.filter, hno]
            · by_cases hid : item.saleId = id <;> simp [Option.filter, hof, hid, hne.symm]
      · simp [LocalDb.write, hsales]
    | _ => rfl

/-- Clearing a store's cursor takes it and the pulls of the store out of
play. -/
theorem Invariant.clearSyncCursor (hi : Invariant server w) (storeId : Uuid) :
    Invariant server (perform w (.clearSyncCursor storeId)).1 := by
  have hmem : ∀ p ∈ (perform w (.clearSyncCursor storeId)).1.pulls,
      (p ∈ w.pulls ∨ ∃ q ∈ w.pulls, p = q.clear) := by
    intro p hp
    obtain ⟨q, hq, rfl⟩ := List.mem_map.mp hp
    by_cases hs : q.storeId = storeId
    · rw [if_pos hs]
      exact Or.inr ⟨q, hq, rfl⟩
    · rw [if_neg hs]
      exact Or.inl hq
  have hplay : ∀ other cursor full,
      InPlay server.text (perform w (.clearSyncCursor storeId)).1 other cursor full →
      InPlay server.text w other cursor full := by
    intro other cursor full h
    cases h with
    | stored hraw => exact .stored (Table.find?_filter_eq_some.mp hraw).1
    | reached hp hclear =>
      rcases hmem _ hp with hp | ⟨q, -, rfl⟩
      · exact .reached hp hclear
      · cases hclear
    | applied hp hclear hstage =>
      rcases hmem _ hp with hp | ⟨q, -, rfl⟩
      · exact .applied hp hclear hstage
      · cases hclear
  refine hi.of_step rfl hi.legacy (fun other cursor full h => ⟨full, hplay _ _ _ h, id⟩)
    (fun _ _ _ _ hc => hc) ?_
  intro p hp _
  rcases hmem p hp with hp | ⟨q, hq, rfl⟩
  · exact ⟨p, hp, rfl, rfl, rfl, id⟩
  · exact ⟨q, hq, rfl, rfl, rfl, id⟩

/-- Wiping the tables while no cursor is stored leaves nothing in play. -/
theorem Invariant.wipe (hi : Invariant server w) (hnone : w.preferences.cursors.ids = ∅) :
    Invariant server (perform w .wipe).1 := by
  have hplay : ∀ other cursor full, ¬InPlay server.text (perform w .wipe).1 other cursor full := by
    intro other cursor full h
    cases h with
    | stored hraw =>
      have hid := Table.mem_ids_of_find? hraw
      change other ∈ w.preferences.cursors.ids at hid
      rw [hnone] at hid
      exact Finset.notMem_empty _ hid
    | reached hp hclear =>
      obtain ⟨q, -, rfl⟩ := List.mem_map.mp hp
      cases hclear
    | applied hp hclear hstage =>
      obtain ⟨q, -, rfl⟩ := List.mem_map.mp hp
      cases hclear
  refine hi.of_step rfl hi.legacy (fun other cursor full h => absurd h (hplay _ _ _))
    (fun other cursor full h _ => absurd h (hplay _ _ _)) ?_
  intro p hp _
  obtain ⟨q, hq, rfl⟩ := List.mem_map.mp hp
  exact ⟨q, hq, rfl, rfl, rfl, id⟩

/-- Deleting private rows marks every cursor as past something deleted, and
leaves the tables that are not withheld alone. -/
theorem Invariant.forgetPrivateRecords (hi : Invariant server w) {table : SyncTable}
    (withheld : table.withheld = true) (storeId : Uuid) :
    Invariant server (perform w (.forgetPrivateRecords table withheld storeId)).1 := by
  have hplay : ∀ other cursor full,
      InPlay server.text (perform w (.forgetPrivateRecords table withheld storeId)).1 other cursor
        full → full = false ∧ ∃ before, InPlay server.text w other cursor before := by
    intro other cursor full h
    cases h with
    | stored hraw => exact ⟨rfl, _, .stored hraw⟩
    | reached hp hclear =>
      obtain ⟨q, hq, rfl⟩ := List.mem_map.mp hp
      exact ⟨rfl, q.full, @InPlay.reached server.text w q hq hclear⟩
    | applied hp hclear hstage =>
      obtain ⟨q, hq, rfl⟩ := List.mem_map.mp hp
      exact ⟨rfl, q.full, @InPlay.applied server.text w q _ hq hclear hstage⟩
  refine hi.of_step rfl hi.legacy ?_ ?_ ?_
  · intro other cursor full h
    obtain ⟨rfl, before, h⟩ := hplay _ _ _ h
    exact ⟨before, h, fun hf => absurd hf Bool.false_ne_true⟩
  · intro other cursor full h hc at_ id row hp hw
    obtain ⟨rfl, -⟩ := hplay _ _ _ h
    have hne : at_ ≠ table := by
      rintro rfl
      exact absurd (hw withheld) Bool.false_ne_true
    have hheld : heldLines at_ id (w.db.forgetPrivateRecords table storeId) =
        heldLines at_ id w.db := by
      cases at_ <;> rfl
    have hrow : ((w.db.forgetPrivateRecords table storeId).rows at_).find? id =
        (w.db.rows at_).find? id := by
      simp [LocalDb.forgetPrivateRecords, hne]
    change Present (w.db.forgetPrivateRecords table storeId) _ _ _ _ _
    rw [Present, hrow, hheld]
    exact hc at_ id row hp hw
  · intro p hp _
    obtain ⟨q, hq, rfl⟩ := List.mem_map.mp hp
    exact ⟨q, hq, rfl, rfl, rfl, id⟩

/-- Every effect of a session operation keeps the invariant, provided no
cursor is stored when the tables are wiped. -/
theorem Invariant.perform (hi : Invariant server w) (effect : Effect)
    (hwipe : effect = .wipe → w.preferences.cursors.ids = ∅) :
    Invariant server (perform w effect).1 := by
  cases effect with
  | clearSyncCursor storeId => exact hi.clearSyncCursor storeId
  | wipe => exact hi.wipe (hwipe rfl)
  | forgetPrivateRecords table withheld storeId => exact hi.forgetPrivateRecords withheld storeId
  | removeLegacyCursor => exact hi.of_frame rfl rfl rfl rfl rfl (fun _ hp => hp) rfl
  | _ => exact hi.of_frame rfl hi.legacy rfl rfl rfl (fun _ hp => hp) rfl

/-- The server commits another state; what is settled stays as it is. -/
theorem Invariant.commit (hi : Invariant server w) :
    Invariant server { w with now := w.now + 1 } := by
  have hplay : ∀ other cursor full,
      InPlay server.text { w with now := w.now + 1 } other cursor full →
      InPlay server.text w other cursor full :=
    fun other cursor full h => h.congr (fun _ _ hraw => hraw) (fun _ hp => hp) rfl
  refine ⟨hi.legacy, ?_, ?_, ?_, ?_⟩
  · intro other cursor full h
    exact (hi.settled _ _ _ (hplay _ _ _ h)).mono (Nat.le_succ _)
  · intro other cursor full h table id row hp hw
    obtain ⟨hrow, hlines⟩ := hi.settled _ _ _ (hplay _ _ _ h) table (w.now + 1) id row
      (Nat.le_succ _) hp.1 hp.2.2 w.now le_rfl (Nat.le_succ _)
    have hpresent := hi.covers _ _ _ (hplay _ _ _ h) table id row ⟨hrow, hp.2⟩ hw
    rw [Present, hlines] at hpresent
    exact hpresent
  · intro p hp since hsince
    obtain ⟨hle, hold⟩ := hi.asked p hp since hsince
    exact ⟨hle.trans (Nat.le_succ _), fun hnot cursor full h => hold hnot cursor full (hplay _ _ _ h)⟩
  · intro p hp since costs page hstage
    obtain ⟨seenAt, linesAt, hd⟩ := hi.page p hp since costs page hstage
    exact ⟨seenAt, linesAt, hd.mono (Nat.le_succ _)⟩

/-- A pull starts from the stored cursor, or from nothing. -/
theorem Invariant.startPull (hs : server.history.Stamped server.settings.settleWindow)
    (hi : Invariant server w) {p : Pull} (hstage : p.stage = .ready)
    (hcursor : (p.cursor = none) ∨
      ∃ raw, w.preferences.cursors.find? p.storeId = some raw ∧ p.cursor = some raw ∧
        (p.full = true → w.full p.storeId = true)) :
    Invariant server { w with pulls := w.pulls ++ [p] } := by
  -- a cursor that counts is one of before or that of the new pull
  have hplay : ∀ other cursor full,
      InPlay server.text { w with pulls := w.pulls ++ [p] } other cursor full →
      (∃ before, InPlay server.text w other cursor before ∧ (full = true → before = true)) ∨
        cursor = SyncCursor.default := by
    intro other cursor full h
    cases h with
    | stored hraw => exact Or.inl ⟨_, .stored hraw, id⟩
    | reached hp hclear =>
      rcases List.mem_append.mp hp with hp | hp
      · exact Or.inl ⟨_, .reached hp hclear, id⟩
      · obtain rfl := List.mem_singleton.mp hp
        rcases hcursor with hnone | ⟨raw, hraw, hsome, hfull⟩
        · rw [hnone]
          exact Or.inr rfl
        · rw [hsome]
          exact Or.inl ⟨_, .stored hraw, hfull⟩
    | applied hp hclear happlied =>
      rcases List.mem_append.mp hp with hp | hp
      · exact Or.inl ⟨_, .applied hp hclear happlied, id⟩
      · obtain rfl := List.mem_singleton.mp hp
        rw [hstage] at happlied
        cases happlied
  have hdefault : ∀ i, Settled server.history i SyncCursor.default :=
    fun i table => pastFrom_origin hs
  have hmem : ∀ q ∈ w.pulls ++ [p], q.stage.since? ≠ none → q ∈ w.pulls := by
    intro q hq hsince
    rcases List.mem_append.mp hq with hq | hq
    · exact hq
    · obtain rfl := List.mem_singleton.mp hq
      rw [hstage] at hsince
      exact absurd rfl hsince
  refine ⟨hi.legacy, ?_, ?_, ?_, ?_⟩
  · intro other cursor full h
    rcases hplay _ _ _ h with ⟨before, h, -⟩ | rfl
    · exact hi.settled _ _ _ h
    · exact hdefault _
  · intro other cursor full h
    rcases hplay _ _ _ h with ⟨before, h, hle⟩ | rfl
    · exact (hi.covers _ _ _ h).weaken hle
    · intro table id row hp _
      exfalso
      apply hp.2.2.not_gt
      rw [TableMark.lt_iff]
      exact Or.inl (hs.afterEpoch table id _ row hp.1)
  · intro q hq since hsince
    have hq := hmem q hq (by rw [Option.mem_def.mp hsince]; exact Option.some_ne_none _)
    obtain ⟨hle, hold⟩ := hi.asked q hq since hsince
    refine ⟨hle, fun hnot cursor full h => ?_⟩
    rcases hplay _ _ _ h with ⟨before, h, -⟩ | rfl
    · exact hold hnot cursor before h
    · exact hdefault _
  · intro q hq since costs page hanswered
    exact hi.page q (hmem q hq (by rw [hanswered]; exact Option.some_ne_none _)) since costs page
      hanswered

/-- Moving a pull to a stage without a page applied changes nothing about
what counts. -/
theorem inPlay_set {text : CursorText} {i : ℕ} {p p' : Pull} {other : Uuid}
    {cursor : SyncCursor} {full : Bool}
    (h : InPlay text { w with pulls := w.pulls.set i p' } other cursor full)
    (hget : w.pulls[i]? = some p) (hstore : p'.storeId = p.storeId)
    (hcursor : p'.cursor = p.cursor) (hclear : p'.cleared = p.cleared) (hfull : p'.full = p.full)
    (hstage : ∀ page, p'.stage ≠ .applied page) : InPlay text w other cursor full := by
  have hp : p ∈ w.pulls := List.mem_of_getElem? hget
  cases h with
  | stored hraw => exact .stored hraw
  | reached hq hqclear =>
    rcases List.mem_or_eq_of_mem_set hq with hq | rfl
    · exact .reached hq hqclear
    · rw [hstore, hcursor, hfull]
      exact .reached hp (hclear ▸ hqclear)
  | applied hq hqclear hqstage =>
    rcases List.mem_or_eq_of_mem_set hq with hq | rfl
    · exact .applied hq hqclear hqstage
    · exact absurd hqstage (hstage _)

/-- A request is sent when every cursor that counts is settled. -/
theorem Invariant.request (hi : Invariant server w) {i : ℕ} {p : Pull} {person : Person}
    (hget : w.pulls[i]? = some p) :
    Invariant server { w with
      pulls := w.pulls.set i { p with stage := .requested person w.now, overtaken := false } } := by
  have hplay : ∀ other cursor full, InPlay server.text { w with
      pulls := w.pulls.set i { p with stage := .requested person w.now, overtaken := false } }
      other cursor full → InPlay server.text w other cursor full := fun other cursor full h =>
    inPlay_set h hget rfl rfl rfl rfl fun _ => nofun
  refine ⟨hi.legacy, fun _ _ _ h => hi.settled _ _ _ (hplay _ _ _ h),
    fun _ _ _ h => hi.covers _ _ _ (hplay _ _ _ h), ?_, ?_⟩
  · intro q hq since hsince
    rcases List.mem_or_eq_of_mem_set hq with hq | rfl
    · obtain ⟨hle, hold⟩ := hi.asked q hq since hsince
      exact ⟨hle, fun hnot cursor full h => hold hnot cursor full (hplay _ _ _ h)⟩
    · obtain rfl := Option.some.inj hsince
      exact ⟨le_rfl, fun _ cursor full h => hi.settled _ _ _ (hplay _ _ _ h)⟩
  · intro q hq since costs page hstage
    rcases List.mem_or_eq_of_mem_set hq with hq | rfl
    · exact hi.page q hq since costs page hstage
    · cases hstage

/-- An answer delivers what follows the cursor sent. -/
theorem Invariant.answer (hs : server.history.Stamped server.settings.settleWindow)
    (hround : server.text.RoundTrips) (hi : Invariant server w) {i : ℕ} {p : Pull}
    {person : Person} {since : ℕ} {reads : PullReads} (hget : w.pulls[i]? = some p)
    (hstage : p.stage = .requested person since) (hr : ReadsBetween server since w.now reads) :
    Invariant server { w with
      pulls := w.pulls.set i { p with
        stage := .answered since ((w.actorOf person).can .viewProfit)
          (answerOf server w p.storeId p.cursor person reads) } } := by
  have hp : p ∈ w.pulls := List.mem_of_getElem? hget
  have hplay : ∀ other cursor full, InPlay server.text { w with
      pulls := w.pulls.set i { p with
        stage := .answered since ((w.actorOf person).can .viewProfit)
          (answerOf server w p.storeId p.cursor person reads) } }
      other cursor full → InPlay server.text w other cursor full := fun other cursor full h =>
    inPlay_set h hget rfl rfl rfl rfl fun _ => nofun
  refine ⟨hi.legacy, fun _ _ _ h => hi.settled _ _ _ (hplay _ _ _ h),
    fun _ _ _ h => hi.covers _ _ _ (hplay _ _ _ h), ?_, ?_⟩
  · intro q hq since' hsince
    have hq' : ∃ q' ∈ w.pulls, q.storeId = q'.storeId ∧ q.overtaken = q'.overtaken ∧
        since' ∈ q'.stage.since? := by
      rcases List.mem_or_eq_of_mem_set hq with hq | rfl
      · exact ⟨q, hq, rfl, rfl, hsince⟩
      · refine ⟨p, hp, rfl, rfl, ?_⟩
        rw [hstage]
        exact hsince
    obtain ⟨q', hq', hstore, hover, hsince'⟩ := hq'
    obtain ⟨hle, hold⟩ := hi.asked q' hq' since' hsince'
    exact ⟨hle, fun hnot cursor full h =>
      hold (hover ▸ hnot) cursor full (hstore ▸ hplay _ _ _ h)⟩
  · intro q hq since' costs page hanswered
    rcases List.mem_or_eq_of_mem_set hq with hq | rfl
    · exact hi.page q hq since' costs page hanswered
    · cases hanswered
      exact ⟨reads.seenAt, reads.linesAt, delivery_of_answer hs hround hr⟩

/-- The cursor of a page that was applied is stored. -/
theorem Invariant.writeCursor (hi : Invariant server w) {i : ℕ} {p : Pull} {page : PullResponse}
    (hget : w.pulls[i]? = some p) (hstage : p.stage = .applied page) (hclear : p.cleared = false)
    {pulls : List Pull} (hpulls : ∀ q ∈ pulls, q ∈ w.pulls ∨
      q = { p with cursor := some page.cursor, stage := .ready }) :
    Invariant server { w with
      preferences := w.preferences.writeSyncCursor p.storeId page.cursor
      pulls := pulls
      full := Function.update w.full p.storeId p.full } := by
  have hp : p ∈ w.pulls := List.mem_of_getElem? hget
  refine hi.of_step rfl hi.legacy ?_ (fun _ _ _ _ hc => hc) ?_
  · intro other cursor full h
    cases h with
    | @stored other raw hraw =>
      change (w.preferences.cursors.put p.storeId page.cursor).find? other = some raw at hraw
      rw [Table.find?_put] at hraw
      split_ifs at hraw with heq
      · cases hraw
        subst heq
        refine ⟨p.full, .applied hp hclear hstage, fun hf => ?_⟩
        simpa using hf
      · refine ⟨w.full other, .stored hraw, fun hf => ?_⟩
        simpa [heq] using hf
    | reached hq hqclear =>
      rcases hpulls _ hq with hq | rfl
      · exact ⟨_, .reached hq hqclear, id⟩
      · exact ⟨p.full, @InPlay.applied server.text w p page hp hclear hstage, id⟩
    | applied hq hqclear hqstage =>
      rcases hpulls _ hq with hq | rfl
      · exact ⟨_, .applied hq hqclear hqstage, id⟩
      · cases hqstage
  · intro q hq hsince
    rcases hpulls q hq with hq | rfl
    · exact ⟨q, hq, rfl, rfl, rfl, id⟩
    · exact absurd rfl hsince

/-- Overtaking changes neither what a pull downloads nor how far it is. -/
theorem Pull.overtake_eq (storeId : Uuid) (costs : Bool) (q : Pull) :
    (q.overtake storeId costs).storeId = q.storeId ∧ (q.overtake storeId costs).cursor = q.cursor ∧
      (q.overtake storeId costs).stage = q.stage ∧
      (q.overtake storeId costs).cleared = q.cleared ∧
      ((q.overtake storeId costs).full = true → q.full = true ∧ (q.storeId = storeId → costs = true)) ∧
      ((q.overtake storeId costs).overtaken = false → q.storeId ≠ storeId ∧ q.overtaken = false) := by
  unfold Pull.overtake
  split_ifs with hs
  · simp [hs]
  · simp [hs]

/-- A page is applied: what the phone covered it still covers, and now the
page's cursor, too. -/
theorem Invariant.applyPage (hone : KeepsStores server.history) (hi : Invariant server w) {i : ℕ}
    {p : Pull} {since : ℕ} {costs : Bool} {page : PullResponse} (hget : w.pulls[i]? = some p)
    (hstage : p.stage = .answered since costs page) (hnot : p.overtaken = false) :
    Invariant server { w with
      db := w.db.applyPage page
      pulls := (w.pulls.map (Pull.overtake p.storeId costs)).set i
        { p.overtake p.storeId costs with stage := .applied page }
      full := Function.update w.full p.storeId (w.full p.storeId && costs) } := by
  have hp : p ∈ w.pulls := List.mem_of_getElem? hget
  obtain ⟨hstore, hcursor, -, hcleared, hfull, -⟩ := p.overtake_eq p.storeId costs
  obtain ⟨seenAt, linesAt, hd⟩ := hi.page p hp since costs page hstage
  obtain ⟨hle, hold⟩ := hi.asked p hp since (by rw [hstage]; rfl)
  have hold := hold hnot
  set w' : World := { w with
      db := w.db.applyPage page
      pulls := (w.pulls.map (Pull.overtake p.storeId costs)).set i
        { p.overtake p.storeId costs with stage := .applied page }
      full := Function.update w.full p.storeId (w.full p.storeId && costs) }
  -- what counts counted before, or is the cursor of this page
  have hplay : ∀ other cursor full, InPlay server.text w' other cursor full →
      (∃ before, InPlay server.text w other cursor before ∧ (full = true → before = true) ∧
        (other = p.storeId → full = true → costs = true)) ∨
      (other = p.storeId ∧ p.cleared = false ∧
        cursor = server.text.decode (some page.cursor) ∧
        (full = true → p.full = true ∧ costs = true)) := by
    intro other cursor full h
    cases h with
    | @stored other raw hraw =>
      refine Or.inl ⟨w.full other, .stored hraw, ?_, ?_⟩
      · intro hf
        by_cases heq : other = p.storeId
        · subst heq
          have hf : (w.full p.storeId && costs) = true := by simpa [w'] using hf
          exact (Bool.and_eq_true_iff.mp hf).1
        · simpa [w', heq] using hf
      · rintro rfl hf
        have hf : (w.full p.storeId && costs) = true := by simpa [w'] using hf
        exact (Bool.and_eq_true_iff.mp hf).2
    | reached hq hclear =>
      rcases List.mem_or_eq_of_mem_set hq with hq | rfl
      · obtain ⟨q, hmem, rfl⟩ := List.mem_map.mp hq
        obtain ⟨hqstore, hqcursor, -, hqcleared, hqfull, -⟩ := q.overtake_eq p.storeId costs
        refine Or.inl ⟨q.full, ?_, fun hf => (hqfull hf).1, fun hs hf => (hqfull hf).2 (hqstore ▸ hs)⟩
        rw [hqstore, hqcursor]
        exact .reached hmem (hqcleared ▸ hclear)
      · refine Or.inl ⟨p.full, ?_, fun hf => (hfull hf).1, fun _ hf => (hfull hf).2 rfl⟩
        simp only [hstore, hcursor]
        exact .reached hp (hcleared ▸ hclear)
    | applied hq hclear happlied =>
      rcases List.mem_or_eq_of_mem_set hq with hq | rfl
      · obtain ⟨q, hmem, rfl⟩ := List.mem_map.mp hq
        obtain ⟨hqstore, -, hqstage, hqcleared, hqfull, -⟩ := q.overtake_eq p.storeId costs
        refine Or.inl ⟨q.full, ?_, fun hf => (hqfull hf).1, fun hs hf => (hqfull hf).2 (hqstore ▸ hs)⟩
        rw [hqstore]
        exact .applied hmem (hqcleared ▸ hclear) (hqstage ▸ happlied)
      · cases happlied
        exact Or.inr ⟨hstore, hcleared ▸ hclear, rfl, fun hf => ⟨(hfull hf).1, (hfull hf).2 rfl⟩⟩
  -- a pull still waiting is another one, and either overtaken or of another store
  have hwaiting : ∀ q ∈ w'.pulls, q.stage.since? ≠ none → ∃ q' ∈ w.pulls,
      q.storeId = q'.storeId ∧ q.cursor = q'.cursor ∧ q.stage = q'.stage ∧
      (q.overtaken = false → q'.storeId ≠ p.storeId ∧ q'.overtaken = false) := by
    intro q hq hsince
    rcases List.mem_or_eq_of_mem_set hq with hq | rfl
    · obtain ⟨q', hmem, rfl⟩ := List.mem_map.mp hq
      obtain ⟨hqstore, hqcursor, hqstage, -, -, hqover⟩ := q'.overtake_eq p.storeId costs
      exact ⟨q', hmem, hqstore, hqcursor, hqstage, hqover⟩
    · exact absurd rfl hsince
  refine ⟨hi.legacy, ?_, ?_, ?_, ?_⟩
  · intro other cursor full h
    rcases hplay _ _ _ h with ⟨before, h, -, -⟩ | ⟨rfl, hclear, rfl, -⟩
    · exact hi.settled _ _ _ h
    · intro table
      exact (hd.past table (hold _ _ (.reached hp hclear) table)).mono (hd.seen table).2
  · intro other cursor full h
    rcases hplay _ _ _ h with ⟨before, h, hbefore, hcosts⟩ | ⟨rfl, hclear, rfl, hboth⟩
    · apply hd.covers_applyPage hone hcosts ((hi.covers _ _ _ h).weaken hbefore)
      rintro rfl
      exact hold _ _ h
    · exact hd.covers_next hone (fun hf => (hboth hf).2)
        ((hi.covers _ _ _ (.reached hp hclear)).weaken fun hf => (hboth hf).1)
        (hold _ _ (.reached hp hclear))
  · intro q hq since' hsince
    obtain ⟨q', hq', hqstore, -, hqstage, hqover⟩ := hwaiting q hq (by
      rw [Option.mem_def.mp hsince]
      exact Option.some_ne_none _)
    obtain ⟨hle', hold'⟩ := hi.asked q' hq' since' (hqstage ▸ hsince)
    refine ⟨hle', fun hnot' cursor full h => ?_⟩
    obtain ⟨hother, hnot'⟩ := hqover hnot'
    rcases hplay _ _ _ h with ⟨before, h, -, -⟩ | ⟨heq, -, -, -⟩
    · exact hold' hnot' cursor before (hqstore ▸ h)
    · exact absurd (hqstore ▸ heq) hother
  · intro q hq since' costs' page' hanswered
    obtain ⟨q', hq', hqstore, hqcursor, hqstage, -⟩ := hwaiting q hq (by
      rw [hanswered]
      exact Option.some_ne_none _)
    rw [hqstore, hqcursor]
    exact hi.page q' hq' since' costs' page' (hqstage ▸ hanswered)

/-- One sound step keeps the invariant. -/
theorem Invariant.step (hs : server.history.Stamped server.settings.settleWindow)
    (hround : server.text.RoundTrips) (hone : KeepsStores server.history)
    (hi : Invariant server w) {a : Action} (hsound : SoundStep w a)
    (hstep : step server w a = some w') : Invariant server w' := by
  cases stepped_of_step hstep with
  | idle hdb hprefs hnow hfull hpulls _ _ =>
    exact hi.of_frame hnow (hprefs ▸ hi.legacy) (by rw [hprefs]) (by rw [hdb]) (by rw [hdb]) hpulls
      hfull
  | commit => exact hi.commit
  | write hown =>
    refine hi.of_step rfl hi.legacy
      (fun _ _ full h => ⟨full, h.congr (fun _ _ hraw => hraw) (fun _ hp => hp) rfl, id⟩) ?_
      fun p hp _ => ⟨p, hp, rfl, rfl, rfl, id⟩
    intro other cursor full _ hc at_ key r hp hw
    exact (hc at_ key r hp hw).write hown
  | uploaded => exact hi.of_frame rfl hi.legacy rfl rfl rfl (fun _ hp => hp) rfl
  | @performed i effect rest operations hop =>
    have hwipe : effect = .wipe → w.preferences.cursors.ids = ∅ := by
      rintro rfl
      exact hsound _ hop rfl
    have hafter := hi.perform effect hwipe
    exact hafter.of_frame rfl hafter.legacy rfl rfl rfl (fun _ hp => hp) rfl
  | @started session hsession =>
    cases hcursor : w.preferences.cursors.find? session.store with
    | none =>
      simp only [Preferences.readSyncCursor, hcursor, hi.legacy]
      exact hi.startPull hs rfl (Or.inl rfl)
    | some raw =>
      simp only [Preferences.readSyncCursor, hcursor]
      exact hi.startPull hs rfl (Or.inr ⟨raw, hcursor, rfl, by simp⟩)
  | requested hget => exact hi.request hget
  | answered hget hstage hreads => exact hi.answer hs hround hget hstage hreads
  | applied hget hstage => exact hi.applyPage hone hget hstage (hsound _ hget)
  | cursorWritten hget hstage hpulls => exact hi.writeCursor hget hstage (hsound _ hget) hpulls

/-- A sound run keeps the invariant and leaves nothing withheld. -/
theorem Invariant.run (hs : server.history.Stamped server.settings.settleWindow)
    (hround : server.text.RoundTrips) (hone : KeepsStores server.history)
    (hi : Invariant server w) (hn : NothingWithheld w) {actions : List Action}
    (hsound : SoundRun server w actions) (hrun : run server w actions = some w') :
    Invariant server w' ∧ NothingWithheld w' := by
  induction actions generalizing w with
  | nil =>
    cases hrun
    exact ⟨hi, hn⟩
  | cons a rest ih =>
    rw [DownloadCursor.run, List.foldlM_cons, Option.bind_eq_bind, Option.bind_eq_some_iff] at hrun
    obtain ⟨next, hstep, hrest⟩ := hrun
    obtain ⟨hfirst, hafter⟩ := hsound
    rw [hstep] at hafter
    exact ih (hi.step hs hround hone hfirst hstep) hafter.1 hafter.2 hrest

/-- Nothing counts on a phone just set up. -/
theorem invariant_fresh (permissionsOf : Uuid → Permissions) :
    Invariant server (World.fresh permissionsOf) := by
  have hplay : ∀ other cursor full,
      ¬InPlay server.text (World.fresh permissionsOf) other cursor full := by
    intro other cursor full h
    cases h with
    | stored hraw => cases hraw
    | reached hp _ => cases hp
    | applied hp _ _ => cases hp
  exact ⟨rfl, fun _ _ _ h => absurd h (hplay _ _ _), fun _ _ _ h => absurd h (hplay _ _ _),
    fun _ hp => absurd hp List.not_mem_nil, fun _ hp => absurd hp List.not_mem_nil⟩

/-- What is covered is what a session can count on. -/
theorem Invariant.cursorSound (hi : Invariant server w) (hn : NothingWithheld w) :
    CursorSound server w := by
  intro session hsession storeId hstore raw hraw table id row hp hw
  refine (hi.covers _ _ _ (.stored hraw)).weaken ?_ table id row hp hw
  intro hsees
  exact hn session hsession hsees storeId hstore (by rw [hraw]; rfl)

end

/-- A download cursor is sound in every state of every run in which no page
is written over something cleared, no page overtakes another, and nobody is
left with a cursor past what was withheld from them. -/
theorem cursor_sound (server : Server)
    (hs : server.history.Stamped server.settings.settleWindow)
    (hround : server.text.RoundTrips) (hone : KeepsStores server.history)
    (permissionsOf : Uuid → Permissions) (actions : List Action) (w : World)
    (hsound : SoundRun server (World.fresh permissionsOf) actions)
    (hrun : run server (World.fresh permissionsOf) actions = some w) : CursorSound server w := by
  obtain ⟨hi, hn⟩ := (invariant_fresh permissionsOf).run hs hround hone nofun hsound hrun
  exact hi.cursorSound hn

/-- The server with one product. -/
def riceServer : Server := ⟨riceHistory, riceText, ⟨2000000, 500⟩⟩

/-- The owner of the store. -/
def riceOwner : Person := ⟨⟨8⟩, none⟩

/-- The owner signs in, and the operation runs to its end. -/
def signInToEnd : List Action :=
  .signIn riceOwner [⟨0⟩] :: List.replicate 9 (.continue 0)

/-- The statements of a pull after the product has settled. -/
def settledReads : PullReads := ⟨fun _ => 2, fun _ => 11000000, 2⟩

/-- The product is committed and settles, the owner signs in, and the phone
downloads it. -/
def firstDownload : List Action :=
  [.commit, .commit] ++ signInToEnd ++
    [.startPull, .request 0, .answer 0 settledReads, .applyPage 0, .writeCursor 0]

/-- The owner signs out while the page is on its way: it is applied before
the tables are wiped, and its cursor written after. -/
def signOutUnderPull : List Action :=
  [.commit, .commit] ++ signInToEnd ++ [.startPull, .request 0, .answer 0 settledReads, .signOut] ++
    List.replicate 6 (.continue 0) ++ [.applyPage 0, .continue 0, .writeCursor 0] ++
    List.replicate 2 (.continue 0) ++ signInToEnd

/-- What a test looks at: the clock, the session, the cursor and the row. -/
def World.glance (w : World) : ℕ × Option AuthSession × Option String × Bool :=
  (w.now, w.session, w.preferences.cursors.find? ⟨0⟩, ((w.db.rows .products).find? ⟨2⟩).isSome)

theorem riceHistory_storeId {table : SyncTable} {id : Uuid} {i : ℕ} {row : table.Row}
    (h : (table.rows (riceHistory.db i)).find? id = some row) : table.storeId row = ⟨0⟩ := by
  by_cases hi : i = 0
  · simp only [riceHistory, hi, if_true] at h
    cases table <;> cases h
  · simp only [riceHistory, hi, if_false] at h
    cases table with
    | products =>
      change (Table.empty.put ⟨2⟩ rice).find? id = some row at h
      rw [Table.find?_put] at h
      split_ifs at h
      · cases h
        rfl
      · cases h
    | _ => cases h

theorem riceHistory_keepsStores : KeepsStores riceHistory := by
  constructor
  · intro table id i j a b ha hb
    rw [riceHistory_storeId ha, riceHistory_storeId hb]
  · intro id i j a b _ _ k l s t hs ht
    have hstore := @riceHistory_storeId .sales
    exact (hstore hs).trans (hstore ht).symm

/-- The product is downloaded, and the cursor stored for it is sound. -/
theorem cursor_sound_firstDownload :
    ∃ w, run riceServer (World.fresh fun _ => Permissions.ALL) firstDownload = some w ∧
      w.glance = (2, some ⟨⟨8⟩, ⟨0⟩, [⟨0⟩], AccessGrant.owner⟩, some riceCursorText, true) ∧
      CursorSound riceServer w := by
  have hglance : (run riceServer (World.fresh fun _ => Permissions.ALL) firstDownload).map
      World.glance =
        some (2, some ⟨⟨8⟩, ⟨0⟩, [⟨0⟩], AccessGrant.owner⟩, some riceCursorText, true) := by
    decide +kernel
  obtain ⟨w, hrun, hw⟩ := Option.map_eq_some_iff.mp hglance
  exact ⟨w, hrun, hw, cursor_sound riceServer riceHistory_stamped riceText_roundTrips
    riceHistory_keepsStores (fun _ => Permissions.ALL) firstDownload w (by decide +kernel) hrun⟩

/-- A sign-out under a pull leaves a cursor over emptied tables: when the
owner is back, the server will not send the product again. -/
theorem cursor_restored_over_emptied_tables :
    ∃ w, run riceServer (World.fresh fun _ => Permissions.ALL) signOutUnderPull = some w ∧
      ¬CursorSound riceServer w := by
  have hglance : (run riceServer (World.fresh fun _ => Permissions.ALL) signOutUnderPull).map
      World.glance =
        some (2, some ⟨⟨8⟩, ⟨0⟩, [⟨0⟩], AccessGrant.owner⟩, some riceCursorText, false) := by
    decide +kernel
  obtain ⟨w, hrun, hw⟩ := Option.map_eq_some_iff.mp hglance
  simp only [World.glance, Prod.mk.injEq] at hw
  obtain ⟨hnow, hsession, hcursor, hrow⟩ := hw
  refine ⟨w, hrun, fun hsound => ?_⟩
  have hpassed : Passed riceHistory w.now ⟨0⟩ (riceText.decode (some riceCursorText)) .products ⟨2⟩
      rice := by
    rw [hnow]
    exact ⟨rfl, rfl, by decide +kernel⟩
  have hpresent := hsound _ hsession ⟨0⟩ List.mem_cons_self _ hcursor .products ⟨2⟩ rice hpassed nofun
  have hgone : (w.db.rows .products).find? ⟨2⟩ = none := Option.not_isSome_iff_eq_none.mp (by simp [hrow])
  rcases hpresent with ⟨mine, _, hmine, -⟩ | ⟨copy, hcopy, -⟩
  · rw [hgone] at hmine
    cases hmine
  · rw [hgone] at hcopy
    cases hcopy

end Kitaza.DownloadCursor
