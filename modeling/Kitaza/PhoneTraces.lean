import Kitaza.DownloadCursor

/-!
# Whose everything on a phone is

Beside the phone a record is kept of whose token every row, queued change
and cursor came by, and of what was cleared under the requests on their way.
A step of syncing or of daily work that comes in time keeps whatever is
known of the people everything came by.
-/

namespace Kitaza.PhoneTraces

open KeyedTable Primitives Access Schema SaleRepository SyncPull PullCompleteness PhoneStorage
  DownloadCursor

/-- What is known of a pull in flight beside what it does. -/
structure Flight where
  /-- The store it downloads. -/
  storeId : Uuid
  /-- Whose token asked for the page that is on its way. -/
  asker : Option Person
  /-- Whose tokens asked for the pages its cursor is past. -/
  path : List Person
  /-- Whether the tables were wiped since the page was asked for. -/
  wiped : Bool
  /-- Whether its store's cursor was cleared since it began, or passed over
  when the cursors to clear were listed. -/
  dropped : Bool
  deriving DecidableEq, Repr

/-- Whose everything on a phone is. -/
structure Traces where
  /-- Who recorded a row, or asked for it. -/
  rows : SyncTable → Uuid → Option Person
  /-- The same for the sale lines. -/
  lines : Uuid → Option Person
  /-- Who queued a record. -/
  queued : SyncTable → Uuid → Option Person
  /-- Who asked for the pages a stored cursor is past. -/
  cursors : Uuid → List Person
  /-- The pulls in flight. -/
  flights : List Flight
  /-- Whose session was accepted last. -/
  holder : Option Person

/-- A phone and the record kept of it. -/
structure Phone where
  /-- The server's present and the phone. -/
  world : World
  /-- Whose everything on it is. -/
  traces : Traces

/-- A phone on which the app was just installed. -/
def Phone.fresh (permissionsOf : Uuid → Permissions) : Phone :=
  ⟨World.fresh permissionsOf, ⟨fun _ _ => none, fun _ => none, fun _ _ => none, fun _ => [], [], none⟩⟩

/-- The tables were wiped under a request. -/
def Flight.wipe (f : Flight) : Flight := { f with wiped := true }

/-- The cursor of its store was cleared under a pull. -/
def Flight.drop (f : Flight) : Flight := { f with dropped := true }

/-- The next page is asked for. -/
def Flight.ask (person : Person) (f : Flight) : Flight :=
  { f with asker := some person, path := person :: f.path, wiped := false }

/-- A page and its cursor were stored. -/
def Flight.land (f : Flight) : Flight := { f with asker := none }

/-- Whether an effect wipes the tables. -/
def wipes : Effect → Bool
  | .wipe => true
  | _ => false

/-- What is recorded of an effect, before the rest of its operation. A
cursor that is cleared for a fresh download stays the holder's. -/
def noteEffect (w : World) (t : Traces) (rest : List Effect) : Effect → Traces
  | .saveTokens person => { t with holder := some person }
  | .listSyncCursors =>
    { t with flights := t.flights.map fun f =>
        if f.storeId ∈ w.preferences.cursors.ids then f else f.drop }
  | .clearSyncCursor storeId =>
    if rest.any wipes then
      { t with flights := t.flights.map fun f => if f.storeId = storeId then f.drop else f }
    else t
  | .wipe => { t with flights := t.flights.map Flight.wipe }
  | _ => t

/-- What is recorded of a step. -/
def note (w : World) (t : Traces) : Action → Traces
  | .write table id _ items =>
    let person := w.session.map AuthSession.person
    { t with
      rows := Function.update t.rows table (Function.update (t.rows table) id person)
      lines := if table = .sales then
        fun line => if line ∈ items.map Prod.fst then person else t.lines line
        else t.lines
      queued := Function.update t.queued table (Function.update (t.queued table) id person) }
  | .continue i =>
    match w.operations[i]? with
    | some (.running (effect :: rest)) => noteEffect w t rest effect
    | _ => t
  | .startPull =>
    match w.session with
    | some session =>
      let path := if (w.preferences.cursors.find? session.store).isSome then
        t.cursors session.store else []
      { t with flights := t.flights ++ [⟨session.store, none, path, false, false⟩] }
    | none => t
  | .request i =>
    match t.flights[i]?, w.token with
    | some f, some person =>
      { t with flights := t.flights.set i (f.ask person) }
    | _, _ => t
  | .applyPage i =>
    match w.pulls[i]?, t.flights[i]? with
    | some p, some f =>
      match p.stage with
      | .answered _ _ page =>
        { t with
          rows := fun table id =>
            if id ∈ (page.pages table).map Prod.fst then f.asker else t.rows table id
          lines := fun line =>
            if line ∈ page.saleItems.map Prod.fst then f.asker else t.lines line }
      | _ => t
    | _, _ => t
  | .writeCursor i =>
    match w.pulls[i]?, t.flights[i]? with
    | some p, some f =>
      match p.stage with
      | .applied page =>
        { t with
          cursors := Function.update t.cursors p.storeId f.path
          flights := if page.hasMore then t.flights.set i f.land else t.flights.eraseIdx i }
      | _ => t
    | _, _ => t
  | .abandon i => { t with flights := t.flights.eraseIdx i }
  | .crash => { t with flights := [] }
  | _ => t

/-- Run what happens next, and keep the record. -/
def step (server : Server) (phone : Phone) (a : Action) : Option Phone :=
  (DownloadCursor.step server phone.world a).map fun world =>
    ⟨world, note phone.world phone.traces a⟩

/-- A run of the server and the phone. -/
def run (server : Server) (phone : Phone) (actions : List Action) : Option Phone :=
  actions.foldlM (step server) phone

/-- Every row, line, queued change and cursor on the phone is of one person,
who recorded it or asked for it. -/
structure HeldBy (phone : Phone) (person : Person) : Prop where
  /-- The business tables. -/
  rows : ∀ table id row, (phone.world.db.rows table).find? id = some row →
    phone.traces.rows table id = some person
  /-- The lines of the sales. -/
  lines : ∀ id line, phone.world.db.saleItems.find? id = some line →
    phone.traces.lines id = some person
  /-- The outbox. -/
  queued : ∀ table, ∀ id ∈ phone.world.db.queued table,
    phone.traces.queued table id = some person
  /-- The download cursors. -/
  cursors : ∀ storeId raw, phone.world.preferences.cursors.find? storeId = some raw →
    ∀ other ∈ phone.traces.cursors storeId, other = person

/-- Once someone's session was accepted, the phone holds nothing of anyone
else. -/
def Clean (phone : Phone) : Prop :=
  ∀ person, phone.traces.holder = some person → HeldBy phone person

/-- What is left of an operation that is being carried out. -/
def Operation.effects? : Operation → Option (List Effect)
  | .running effects => some effects
  | .awaitingAccount _ => none

/-- The session whose account an operation asked for. -/
def Operation.asked? : Operation → Option AuthSession
  | .awaitingAccount current => some current
  | .running _ => none

/-- The operations being carried out. -/
def underway (w : World) : List (List Effect) := w.operations.filterMap Operation.effects?

/-- A step comes in time: no page is applied over tables wiped since it was
asked for, no cursor is written that was cleared under its pull, nothing is
recorded after the tables were wiped by one whose token is gone, operations
on the session are carried out one at a time and to their end, and an
account's answer is used for the person it is about. -/
def OnTime (phone : Phone) : Action → Prop
  | .applyPage i => ∀ f ∈ phone.traces.flights[i]?, f.wiped = false
  | .writeCursor i => ∀ f ∈ phone.traces.flights[i]?, f.dropped = false
  | .write _ _ _ _ => phone.world.session.isSome = true ∧
      (phone.world.session.map AuthSession.person = phone.world.token ∨
        (underway phone.world).flatten.any wipes = true)
  | .signOut | .signIn _ _ | .switchStore _ | .crash | .restore => underway phone.world = []
  | .accountAnswered i _ => underway phone.world = [] ∧
      ∀ current ∈ (phone.world.operations[i]?).bind Operation.asked?,
        phone.world.session.map AuthSession.person = some current.person
  | _ => True

instance (phone : Phone) (a : Action) : Decidable (OnTime phone a) :=
  match a with
  | .applyPage _ | .writeCursor _ | .write _ _ _ _ | .signOut | .signIn _ _ | .switchStore _
  | .crash | .restore | .accountAnswered _ _ => by
    dsimp only [OnTime]
    infer_instance
  | .commit | .setPermissions _ _ | .uploaded _ _ | .refreshAccount | .continue _ | .startPull
  | .request _ | .answer _ _ | .abandon _ => isTrue trivial

/-- Every step of a run comes in time. -/
def OnTimeRun (server : Server) : Phone → List Action → Prop
  | _, [] => True
  | phone, a :: rest => OnTime phone a ∧
    match step server phone a with
    | some phone' => OnTimeRun server phone' rest
    | none => True

instance decidableOnTimeRun (server : Server) :
    (phone : Phone) → (actions : List Action) → Decidable (OnTimeRun server phone actions)
  | _, [] => isTrue trivial
  | phone, a :: rest =>
    match h : step server phone a with
    | some phone' =>
      have := decidableOnTimeRun server phone' rest
      decidable_of_iff (OnTime phone a ∧ OnTimeRun server phone' rest) (by rw [OnTimeRun, h])
    | none => decidable_of_iff (OnTime phone a) (by rw [OnTimeRun, h, and_true])

/-- Whether a page was asked for and its cursor not yet stored. -/
def Stage.isWaiting : Stage → Bool
  | .ready => false
  | _ => true

/-- What the record repeats of a pull. -/
def Pull.outline (p : Pull) : Uuid × Bool := (p.storeId, Stage.isWaiting p.stage)

/-- And of its own. -/
def Flight.outline (f : Flight) : Uuid × Bool := (f.storeId, f.asker.isSome)

/-- The record has an entry for every pull in flight. -/
def Abreast (pulls : List Pull) (flights : List Flight) : Prop :=
  flights.map Flight.outline = pulls.map Pull.outline

/-- What the tables hold came by people of a kind, and so will every page
asked for since they were wiped. -/
structure Holds (R : Person → Prop) (db : LocalDb) (t : Traces) : Prop where
  /-- The business tables. -/
  rows : ∀ table id row, (db.rows table).find? id = some row →
    ∃ person, t.rows table id = some person ∧ R person
  /-- The lines of the sales. -/
  lines : ∀ id line, db.saleItems.find? id = some line →
    ∃ person, t.lines id = some person ∧ R person
  /-- The outbox. -/
  queued : ∀ table, ∀ id ∈ db.queued table, ∃ person, t.queued table id = some person ∧ R person
  /-- The pages. -/
  pages : ∀ f ∈ t.flights, f.wiped = false → ∀ person ∈ f.asker, R person

/-- The cursors stored are of a kind, and so are those of the pulls under
which they were not cleared. -/
structure Points (K : Uuid → List Person → Prop) (cursors : Table Uuid String) (t : Traces) :
    Prop where
  /-- The cursors stored. -/
  stored : ∀ storeId raw, cursors.find? storeId = some raw → K storeId (t.cursors storeId)
  /-- The cursors reached. -/
  reached : ∀ f ∈ t.flights, f.dropped = false →
    f.asker = none ∧ f.path = [] ∨ K f.storeId f.path

section

variable {w w' : World} {t t' : Traces} {R : Person → Prop} {K : Uuid → List Person → Prop}

/-- The entry of a pull. -/
theorem Abreast.get {pulls : List Pull} {flights : List Flight} (ha : Abreast pulls flights)
    {i : ℕ} {p : Pull} (hget : pulls[i]? = some p) :
    ∃ f, flights[i]? = some f ∧ f.storeId = p.storeId ∧
      f.asker.isSome = Stage.isWaiting p.stage := by
  have hboth : (flights.map Flight.outline)[i]? = some (Pull.outline p) := by
    rw [ha, List.getElem?_map, hget]
    rfl
  rw [List.getElem?_map] at hboth
  obtain ⟨f, hf, houtline⟩ := Option.map_eq_some_iff.mp hboth
  obtain ⟨hstore, hwaiting⟩ := Prod.mk.inj houtline
  exact ⟨f, hf, hstore, hwaiting⟩

/-- A pull and its entry move on together. -/
theorem Abreast.set {pulls : List Pull} {flights : List Flight} (ha : Abreast pulls flights)
    (i : ℕ) {p : Pull} {f : Flight} (h : Flight.outline f = Pull.outline p) :
    Abreast (pulls.set i p) (flights.set i f) := by
  rw [Abreast, List.map_set, List.map_set, ha, h]

/-- A pull and its entry end together. -/
theorem Abreast.eraseIdx {pulls : List Pull} {flights : List Flight} (ha : Abreast pulls flights)
    (i : ℕ) : Abreast (pulls.eraseIdx i) (flights.eraseIdx i) := by
  rw [Abreast, ← List.eraseIdx_map, ← List.eraseIdx_map, ha]

/-- A pull that is replaced by one of the same outline keeps its entry. -/
theorem Abreast.refresh {pulls : List Pull} {flights : List Flight} (ha : Abreast pulls flights)
    {i : ℕ} {p q : Pull} (hget : pulls[i]? = some p) (h : Pull.outline q = Pull.outline p) :
    Abreast (pulls.set i q) flights := by
  obtain ⟨hi, hp⟩ := List.getElem?_eq_some_iff.mp hget
  rw [Abreast, List.map_set, ha, h, ← hp, ← List.getElem_map Pull.outline (h := by simpa using hi),
    List.set_getElem_self]

/-- What is done to every pull, or to every entry, keeps their outlines. -/
theorem Abreast.map {pulls : List Pull} {flights : List Flight} (ha : Abreast pulls flights)
    {g : Pull → Pull} {k : Flight → Flight} (hg : ∀ p, Pull.outline (g p) = Pull.outline p)
    (hk : ∀ f, Flight.outline (k f) = Flight.outline f) :
    Abreast (pulls.map g) (flights.map k) := by
  have hpulls : Pull.outline ∘ g = Pull.outline := funext hg
  have hflights : Flight.outline ∘ k = Flight.outline := funext hk
  rw [Abreast, List.map_map, List.map_map, hpulls, hflights]
  exact ha

/-- People of a kind are people of a wider kind. -/
theorem Holds.mono {R' : Person → Prop} {db : LocalDb} (h : Holds R db t)
    (himp : ∀ person, R person → R' person) : Holds R' db t where
  rows table id row hrow := (h.rows table id row hrow).imp fun _ => And.imp_right (himp _)
  lines id line hline := (h.lines id line hline).imp fun _ => And.imp_right (himp _)
  queued table id hid := (h.queued table id hid).imp fun _ => And.imp_right (himp _)
  pages f hf hwiped person hperson := himp _ (h.pages f hf hwiped person hperson)

/-- Cursors of a kind are cursors of a wider kind. -/
theorem Points.mono {K' : Uuid → List Person → Prop} {cursors : Table Uuid String}
    (h : Points K cursors t) (himp : ∀ storeId path, K storeId path → K' storeId path) :
    Points K' cursors t where
  stored storeId raw hraw := himp _ _ (h.stored storeId raw hraw)
  reached f hf hdropped := (h.reached f hf hdropped).imp_right (himp _ _)

/-- A step that touches neither the tables nor what is recorded of them. -/
theorem Holds.of_frame {db db' : LocalDb} (h : Holds R db t) (hrows : db'.rows = db.rows)
    (hitems : db'.saleItems = db.saleItems) (hqueued : db'.queued = db.queued)
    (hrowTraces : t'.rows = t.rows) (hlineTraces : t'.lines = t.lines)
    (hqueuedTraces : t'.queued = t.queued)
    (hpages : ∀ f ∈ t'.flights, f.wiped = false → ∀ person ∈ f.asker, R person) :
    Holds R db' t' := by
  refine ⟨?_, ?_, ?_, hpages⟩
  · rw [hrows, hrowTraces]
    exact h.rows
  · rw [hitems, hlineTraces]
    exact h.lines
  · rw [hqueued, hqueuedTraces]
    exact h.queued

/-- One of the kind writes a record. -/
theorem Holds.write {db : LocalDb} (h : Holds R db t) {person : Person} (hperson : R person)
    (hsession : w.session.map AuthSession.person = some person) (table : SyncTable) (id : Uuid)
    (row : table.Row) (items : List (Uuid × SaleItem)) :
    Holds R (db.write table id row items) (note w t (.write table id row items)) := by
  refine ⟨?_, ?_, ?_, h.pages⟩
  · intro other key r hr
    simp only [note, hsession]
    by_cases ht : other = table
    · subst ht
      simp only [LocalDb.write, Function.update_self] at hr ⊢
      by_cases hk : key = id
      · subst hk
        exact ⟨person, Function.update_self .., hperson⟩
      · rw [Table.find?_put_ne _ _ hk] at hr
        rw [Function.update_of_ne hk]
        exact h.rows other key r hr
    · simp only [LocalDb.write, Function.update_of_ne ht] at hr ⊢
      exact h.rows other key r hr
  · intro key line hline
    simp only [note, hsession]
    by_cases ht : table = .sales
    · simp only [LocalDb.write, if_pos ht] at hline ⊢
      rcases Table.find?_putAll_cases (db.saleItems.filter fun _ item => !(item.saleId == id)) items
        key with ⟨item, hitem, -⟩ | ⟨hnot, hfind⟩
      · have hkey : key ∈ items.map Prod.fst := List.mem_map.mpr ⟨(key, item), hitem, rfl⟩
        exact ⟨person, if_pos hkey, hperson⟩
      · have hkey : key ∉ items.map Prod.fst := by
          intro hmem
          obtain ⟨e, he, rfl⟩ := List.mem_map.mp hmem
          exact hnot e.2 he
        rw [if_neg hkey]
        rw [hfind] at hline
        exact h.lines key line (Table.find?_filter_eq_some.mp hline).1
    · simp only [LocalDb.write, if_neg ht] at hline ⊢
      exact h.lines key line hline
  · intro other key hkey
    simp only [note, hsession]
    by_cases ht : other = table
    · subst ht
      simp only [LocalDb.write, Function.update_self] at hkey ⊢
      by_cases hk : key = id
      · subst hk
        exact ⟨person, Function.update_self .., hperson⟩
      · rw [Function.update_of_ne hk]
        exact h.queued other key (Finset.mem_of_mem_insert_of_ne hkey hk)
    · simp only [LocalDb.write, Function.update_of_ne ht] at hkey ⊢
      exact h.queued other key hkey

/-- A change that was accepted leaves the outbox. -/
theorem Holds.uploaded {db : LocalDb} (h : Holds R db t) (table : SyncTable) (id : Uuid) :
    Holds R (db.uploaded table id) t := by
  refine ⟨h.rows, h.lines, ?_, h.pages⟩
  intro other key hkey
  apply h.queued other key
  by_cases ht : other = table
  · subst ht
    simp only [LocalDb.uploaded, Function.update_self] at hkey
    exact Finset.mem_of_mem_erase hkey
  · simpa only [LocalDb.uploaded, Function.update_of_ne ht] using hkey

/-- A page one of the kind asked for is applied. -/
theorem Holds.applyPage {db : LocalDb} (h : Holds R db t) {person : Person} (hperson : R person)
    (page : PullResponse) {t' : Traces}
    (hrows : t'.rows = fun table id =>
      if id ∈ (page.pages table).map Prod.fst then some person else t.rows table id)
    (hlines : t'.lines = fun line =>
      if line ∈ page.saleItems.map Prod.fst then some person else t.lines line)
    (hqueued : t'.queued = t.queued) (hflights : t'.flights = t.flights) :
    Holds R (db.applyPage page) t' := by
  refine ⟨?_, ?_, ?_, hflights ▸ h.pages⟩
  · intro table id row hrow
    rw [hrows]
    by_cases hid : id ∈ (page.pages table).map Prod.fst
    · exact ⟨person, if_pos hid, hperson⟩
    · rw [find?_applyPage_of_notMem fun r hr => hid (List.mem_map.mpr ⟨(id, r), hr, rfl⟩)] at hrow
      simp only [if_neg hid]
      exact h.rows table id row hrow
  · intro id line hline
    rw [hlines]
    by_cases hid : id ∈ page.saleItems.map Prod.fst
    · exact ⟨person, if_pos hid, hperson⟩
    · have hnot : ∀ r, (id, r) ∉ page.saleItems :=
        fun r hr => hid (List.mem_map.mpr ⟨(id, r), hr, rfl⟩)
      rw [LocalDb.applyPage, Table.find?_putAll_of_notMem hnot] at hline
      simp only [if_neg hid]
      exact h.lines id line (Table.find?_filter_eq_some.mp hline).1
  · rw [hqueued]
    exact h.queued

/-- The tables are wiped, and the requests on their way marked. -/
theorem holds_wipe (R : Person → Prop) (t : Traces) :
    Holds R LocalDb.empty { t with flights := t.flights.map Flight.wipe } := by
  refine ⟨fun _ _ _ h => (by cases h), fun _ _ h => (by cases h),
    fun _ _ h => absurd h (Finset.notMem_empty _), ?_⟩
  intro f hf hwiped
  obtain ⟨g, -, rfl⟩ := List.mem_map.mp hf
  cases hwiped

/-- A store's private records are dropped. -/
theorem Holds.forgetPrivateRecords {db : LocalDb} (h : Holds R db t) (table : SyncTable)
    (storeId : Uuid) : Holds R (db.forgetPrivateRecords table storeId) t := by
  refine ⟨?_, h.lines, h.queued, h.pages⟩
  intro other id row hrow
  apply h.rows other id row
  by_cases ht : other = table
  · subst ht
    simp only [LocalDb.forgetPrivateRecords, Function.update_self] at hrow
    exact (Table.find?_filter_eq_some.mp hrow).1
  · simpa only [LocalDb.forgetPrivateRecords, Function.update_of_ne ht] using hrow

end

/-- Whether a step is one of syncing or of daily work, not of the session. -/
def syncs : Action → Bool
  | .signOut | .signIn _ _ | .refreshAccount | .accountAnswered _ _ | .switchStore _
  | .continue _ | .crash | .restore => false
  | _ => true

/-- A step that leaves the account and the operations on it as they are. -/
structure SameAccount (w w' : World) : Prop where
  /-- The token. -/
  token : w'.token = w.token
  /-- The session in memory. -/
  session : w'.session = w.session
  /-- The operations in flight. -/
  operations : w'.operations = w.operations
  /-- The single cursor of old phones. -/
  legacy : w'.preferences.legacyCursor = w.preferences.legacyCursor
  /-- Whether the phone was set up. -/
  onboarded : w'.preferences.onboarded = w.preferences.onboarded
  /-- Whether it syncs. -/
  storageMode : w'.preferences.storageMode = w.preferences.storageMode
  /-- The access stored. -/
  access : w'.preferences.access = w.preferences.access
  /-- The account's owner. -/
  owner : w'.db.owner = w.db.owner

/-- Everything a step of syncing or of daily work can do. -/
inductive Synced (w : World) (t : Traces) : Action → World → Traces → Prop
  | aside {a : Action} {w' : World} (hdb : w'.db = w.db)
      (hcursors : w'.preferences.cursors = w.preferences.cursors) (hsame : SameAccount w w')
      (habreast : Abreast w'.pulls t.flights) : Synced w t a w' t
  | write (table : SyncTable) (id : Uuid) (row : table.Row) (items : List (Uuid × SaleItem)) :
      Synced w t (.write table id row items) { w with db := w.db.write table id row items }
        (note w t (.write table id row items))
  | uploaded (table : SyncTable) (id : Uuid) :
      Synced w t (.uploaded table id) { w with db := w.db.uploaded table id } t
  | startPull {storeId : Uuid} {p : Pull} {path : List Person}
      (houtline : Pull.outline p = (storeId, false))
      (hpath : path = [] ∨ ∃ raw, w.preferences.cursors.find? storeId = some raw ∧
        path = t.cursors storeId) :
      Synced w t .startPull { w with pulls := w.pulls ++ [p] }
        { t with flights := t.flights ++ [⟨storeId, none, path, false, false⟩] }
  | request {i : ℕ} {p : Pull} {f : Flight} {person : Person} (hf : t.flights[i]? = some f)
      (htoken : w.token = some person) (houtline : Pull.outline p = (f.storeId, true)) :
      Synced w t (.request i) { w with pulls := w.pulls.set i p }
        { t with flights := t.flights.set i (f.ask person) }
  | applyPage {i : ℕ} {f : Flight} {person : Person} {page : PullResponse} {pulls : List Pull}
      {full : Uuid → Bool} (hf : t.flights[i]? = some f) (hasker : f.asker = some person)
      (habreast : Abreast pulls t.flights) :
      Synced w t (.applyPage i) { w with db := w.db.applyPage page, pulls := pulls, full := full }
        { t with
          rows := fun table id =>
            if id ∈ (page.pages table).map Prod.fst then some person else t.rows table id
          lines := fun line =>
            if line ∈ page.saleItems.map Prod.fst then some person else t.lines line }
  | writeCursor {i : ℕ} {f : Flight} {person : Person} {raw : String} {pulls : List Pull}
      {flights : List Flight} {full : Uuid → Bool} (hf : t.flights[i]? = some f)
      (hasker : f.asker = some person) (hflights : ∀ g ∈ flights, g ∈ t.flights ∨ g = f.land)
      (habreast : Abreast pulls flights) :
      Synced w t (.writeCursor i)
        { w with
          preferences := w.preferences.writeSyncCursor f.storeId raw
          pulls := pulls
          full := full }
        { t with cursors := Function.update t.cursors f.storeId f.path, flights := flights }
  | abandon (i : ℕ) :
      Synced w t (.abandon i) { w with pulls := w.pulls.eraseIdx i }
        { t with flights := t.flights.eraseIdx i }

section

variable {server : Server} {w w' : World} {t t' : Traces} {a : Action}

/-- Without the single cursor of old phones, reading a cursor changes
nothing. -/
theorem readSyncCursor_eq {p : Preferences} (h : p.legacyCursor = none) (storeId : Uuid) :
    p.readSyncCursor storeId = (p.cursors.find? storeId, p) := by
  unfold Preferences.readSyncCursor
  cases hraw : p.cursors.find? storeId with
  | none => rw [h]
  | some raw => rfl

/-- A pull starts from the cursor of its store. -/
theorem synced_of_startPull (hlegacy : w.preferences.legacyCursor = none)
    (hstep : DownloadCursor.step server w .startPull = some w') :
    Synced w t .startPull w' (note w t .startPull) := by
  simp only [DownloadCursor.step, Option.map_eq_some_iff] at hstep
  obtain ⟨session, hsession, rfl⟩ := hstep
  obtain ⟨path, hpath⟩ : ∃ path, path = if (w.preferences.cursors.find? session.store).isSome
      then t.cursors session.store else [] := ⟨_, rfl⟩
  have hnote : note w t .startPull =
      { t with flights := t.flights ++ [⟨session.store, none, path, false, false⟩] } := by
    simp only [note, hsession, hpath]
  rw [hnote, readSyncCursor_eq hlegacy]
  refine @Synced.startPull w t session.store ⟨session.store, _, .ready, false, false, _⟩ _ rfl ?_
  rw [hpath]
  cases hraw : w.preferences.cursors.find? session.store with
  | none => exact Or.inl rfl
  | some raw => exact Or.inr ⟨raw, rfl, rfl⟩

/-- A page is asked for by whoever is signed in. -/
theorem synced_of_request (ha : Abreast w.pulls t.flights) {i : ℕ}
    (hstep : DownloadCursor.step server w (.request i) = some w') :
    Synced w t (.request i) w' (note w t (.request i)) := by
  simp only [DownloadCursor.step] at hstep
  split at hstep
  · rename_i p person hget htoken
    split at hstep
    · cases hstep
      obtain ⟨f, hf, hstore, -⟩ := ha.get hget
      have hnote : note w t (.request i) = { t with flights := t.flights.set i (f.ask person) } := by
        simp only [note, hf, htoken]
      rw [hnote]
      exact @Synced.request w t i { p with stage := .requested person w.now, overtaken := false } f
        person hf htoken (by rw [hstore]; rfl)
    · cases hstep
  · cases hstep

/-- A page is applied by the flight that it answers. -/
theorem synced_of_applyPage (ha : Abreast w.pulls t.flights) {i : ℕ}
    (hstep : DownloadCursor.step server w (.applyPage i) = some w') :
    Synced w t (.applyPage i) w' (note w t (.applyPage i)) := by
  simp only [DownloadCursor.step] at hstep
  split at hstep
  · rename_i p hget
    split at hstep
    · rename_i since costs page hstage
      cases hstep
      obtain ⟨f, hf, hstore, hwaiting⟩ := ha.get hget
      rw [hstage] at hwaiting
      obtain ⟨person, hasker⟩ := Option.isSome_iff_exists.mp hwaiting
      obtain ⟨hover, -, hoverStage, -⟩ := p.overtake_eq p.storeId costs
      simp only [note, hget, hf, hstage, hasker]
      refine .applyPage hf hasker ?_
      have hmap : Abreast (w.pulls.map (Pull.overtake p.storeId costs)) t.flights := by
        have hboth := ha.map (g := Pull.overtake p.storeId costs) (k := id) (fun q => by
          obtain ⟨hq, -, hqStage, -⟩ := q.overtake_eq p.storeId costs
          rw [Pull.outline, hq, hqStage]
          rfl) fun _ => rfl
        rwa [List.map_id] at hboth
      have hgetMap : (w.pulls.map (Pull.overtake p.storeId costs))[i]? =
          some (p.overtake p.storeId costs) := by
        rw [List.getElem?_map, hget]
        rfl
      apply hmap.refresh hgetMap
      rw [Pull.outline, Pull.outline, hoverStage, hstage]
      rfl
    · cases hstep
  · cases hstep

/-- A cursor is stored with the path of the flight that reached it. -/
theorem synced_of_writeCursor (ha : Abreast w.pulls t.flights) {i : ℕ}
    (hstep : DownloadCursor.step server w (.writeCursor i) = some w') :
    Synced w t (.writeCursor i) w' (note w t (.writeCursor i)) := by
  simp only [DownloadCursor.step] at hstep
  split at hstep
  · rename_i p hget
    split at hstep
    · rename_i page hstage
      cases hstep
      obtain ⟨f, hf, hstore, hwaiting⟩ := ha.get hget
      rw [hstage] at hwaiting
      obtain ⟨person, hasker⟩ := Option.isSome_iff_exists.mp hwaiting
      simp only [note, hget, hf, hstage, ← hstore]
      refine .writeCursor hf hasker ?_ ?_
      · intro g hg
        split_ifs at hg
        · exact List.mem_or_eq_of_mem_set hg
        · exact Or.inl (List.mem_of_mem_eraseIdx hg)
      · split_ifs
        · exact ha.set i (by rw [Flight.outline, Flight.land, hstore]; rfl)
        · exact ha.eraseIdx i
    · cases hstep
  · cases hstep

/-- A step of syncing or of daily work does one of these things. -/
theorem synced_of_step (ha : Abreast w.pulls t.flights)
    (hlegacy : w.preferences.legacyCursor = none) (hsyncs : syncs a = true)
    (hstep : DownloadCursor.step server w a = some w') : Synced w t a w' (note w t a) := by
  cases a with
  | commit =>
    cases hstep
    exact .aside rfl rfl ⟨rfl, rfl, rfl, rfl, rfl, rfl, rfl, rfl⟩ ha
  | setPermissions staffId permissions =>
    cases hstep
    exact .aside rfl rfl ⟨rfl, rfl, rfl, rfl, rfl, rfl, rfl, rfl⟩ ha
  | write table id row items =>
    simp only [DownloadCursor.step] at hstep
    split_ifs at hstep
    cases hstep
    exact .write table id row items
  | uploaded table id =>
    cases hstep
    exact .uploaded table id
  | startPull => exact synced_of_startPull hlegacy hstep
  | request i => exact synced_of_request ha hstep
  | answer i reads =>
    simp only [DownloadCursor.step] at hstep
    split at hstep
    · rename_i p hget
      split at hstep
      · rename_i person since hstage
        split_ifs at hstep
        cases hstep
        refine .aside rfl rfl ⟨rfl, rfl, rfl, rfl, rfl, rfl, rfl, rfl⟩ (ha.refresh hget ?_)
        rw [Pull.outline, Pull.outline, hstage]
        rfl
      · cases hstep
    · cases hstep
  | applyPage i => exact synced_of_applyPage ha hstep
  | writeCursor i => exact synced_of_writeCursor ha hstep
  | abandon i =>
    cases hstep
    exact .abandon i
  | _ => cases hsyncs

/-- Nothing of this touches the account. -/
theorem Synced.same (h : Synced w t a w' t') : SameAccount w w' := by
  cases h with
  | aside _ _ hsame _ => exact hsame
  | _ => exact ⟨rfl, rfl, rfl, rfl, rfl, rfl, rfl, rfl⟩

/-- Nor whose the phone is. -/
theorem Synced.holder (h : Synced w t a w' t') : t'.holder = t.holder := by
  cases h <;> rfl

/-- The record goes on speaking of the pulls in flight. -/
theorem Synced.abreast (h : Synced w t a w' t') (ha : Abreast w.pulls t.flights) :
    Abreast w'.pulls t'.flights := by
  cases h with
  | aside _ _ _ habreast => exact habreast
  | write => exact ha
  | uploaded => exact ha
  | @startPull storeId p path houtline _ =>
    rw [Abreast, List.map_append, List.map_append, ha, List.map_singleton, List.map_singleton,
      houtline]
    rfl
  | request hf _ houtline => exact ha.set _ (by rw [houtline]; rfl)
  | applyPage _ _ habreast => exact habreast
  | writeCursor _ _ _ habreast => exact habreast
  | abandon i => exact ha.eraseIdx i

/-- A step in time keeps whose the tables are, if the token is of one of
them and so is who writes. -/
theorem Synced.holds {R : Person → Prop} (hs : Synced w t a w' t') (h : Holds R w.db t)
    (htoken : ∀ person, w.token = some person → R person)
    (hwrite : ∀ table id row items, a = .write table id row items →
      ∃ person, w.session.map AuthSession.person = some person ∧ R person)
    (htime : OnTime ⟨w, t⟩ a) : Holds R w'.db t' := by
  cases hs with
  | aside hdb =>
    rw [hdb]
    exact h
  | write table id row items =>
    obtain ⟨person, hsession, hperson⟩ := hwrite table id row items rfl
    exact h.write hperson hsession table id row items
  | uploaded table id => exact h.uploaded table id
  | startPull =>
    refine h.of_frame rfl rfl rfl rfl rfl rfl ?_
    intro f hf hwiped person hperson
    rcases List.mem_append.mp hf with hf | hf
    · exact h.pages f hf hwiped person hperson
    · obtain rfl := List.mem_singleton.mp hf
      cases hperson
  | @request i p f person _ hheld =>
    refine h.of_frame rfl rfl rfl rfl rfl rfl ?_
    intro g hg hwiped other hother
    rcases List.mem_or_eq_of_mem_set hg with hg | rfl
    · exact h.pages g hg hwiped other hother
    · obtain rfl := Option.some.inj hother
      exact htoken _ hheld
  | @applyPage i f person page _ _ hf hasker =>
    have hperson : R person :=
      h.pages f (List.mem_of_getElem? hf) (htime f hf) person (by rw [hasker]; rfl)
    exact h.applyPage hperson page rfl rfl rfl rfl
  | @writeCursor i f person _ _ _ _ hf hasker hflights _ =>
    refine h.of_frame rfl rfl rfl rfl rfl rfl ?_
    intro g hg hwiped other hother
    rcases hflights g hg with hg | rfl
    · exact h.pages g hg hwiped other hother
    · cases hother
  | abandon i =>
    refine h.of_frame rfl rfl rfl rfl rfl rfl ?_
    exact fun f hf => h.pages f (List.mem_of_mem_eraseIdx hf)

/-- And it keeps what the cursors are. -/
theorem Synced.points {K : Uuid → List Person → Prop} (hs : Synced w t a w' t')
    (h : Points K w.preferences.cursors t)
    (htoken : ∀ person, w.token = some person → ∀ storeId path, path = [] ∨ K storeId path →
      K storeId (person :: path))
    (htime : OnTime ⟨w, t⟩ a) : Points K w'.preferences.cursors t' := by
  cases hs with
  | aside _ hcursors =>
    rw [hcursors]
    exact h
  | write => exact ⟨h.stored, h.reached⟩
  | uploaded => exact h
  | @startPull storeId p path houtline hpath =>
    refine ⟨h.stored, ?_⟩
    intro f hf hdropped
    rcases List.mem_append.mp hf with hf | hf
    · exact h.reached f hf hdropped
    · obtain rfl := List.mem_singleton.mp hf
      rcases hpath with rfl | ⟨raw, hraw, rfl⟩
      · exact Or.inl ⟨rfl, rfl⟩
      · exact Or.inr (h.stored storeId raw hraw)
  | @request i p f person hf hheld houtline =>
    refine ⟨h.stored, ?_⟩
    intro g hg hdropped
    rcases List.mem_or_eq_of_mem_set hg with hg | rfl
    · exact h.reached g hg hdropped
    · refine Or.inr (htoken person hheld _ _ ?_)
      exact (h.reached f (List.mem_of_getElem? hf) hdropped).imp_left And.right
  | applyPage => exact ⟨h.stored, h.reached⟩
  | @writeCursor i f person raw _ _ _ hf hasker hflights _ =>
    have hfresh : K f.storeId f.path := by
      rcases h.reached f (List.mem_of_getElem? hf) (htime f hf) with ⟨hnone, -⟩ | hkind
      · rw [hasker] at hnone
        cases hnone
      · exact hkind
    constructor
    · intro storeId other hother
      change (w.preferences.cursors.put f.storeId raw).find? storeId = some other at hother
      change K storeId (Function.update t.cursors f.storeId f.path storeId)
      by_cases hk : storeId = f.storeId
      · subst hk
        rw [Function.update_self]
        exact hfresh
      · rw [Table.find?_put_ne _ _ hk] at hother
        rw [Function.update_of_ne hk]
        exact h.stored storeId other hother
    · intro g hg hdropped
      rcases hflights g hg with hg | rfl
      · exact h.reached g hg hdropped
      · exact Or.inr hfresh
  | abandon i => exact ⟨h.stored, fun f hf => h.reached f (List.mem_of_mem_eraseIdx hf)⟩

end

section

variable {t : Traces} {R : Person → Prop} {K : Uuid → List Person → Prop}

/-- Marking requests does not widen who asked for what will be applied in
time. -/
theorem Holds.mark {db : LocalDb} (h : Holds R db t) {g : Flight → Flight}
    (hg : ∀ f, (g f).asker = f.asker ∧ ((g f).wiped = false → f.wiped = false)) :
    Holds R db { t with flights := t.flights.map g } := by
  refine h.of_frame rfl rfl rfl rfl rfl rfl ?_
  intro f hf hwiped other hother
  obtain ⟨f, hmem, rfl⟩ := List.mem_map.mp hf
  exact h.pages f hmem ((hg f).2 hwiped) other ((hg f).1 ▸ hother)

/-- Nor does it widen what cursors will be written in time. -/
theorem Points.mark {cursors : Table Uuid String} (h : Points K cursors t) {g : Flight → Flight}
    (hg : ∀ f, (g f).storeId = f.storeId ∧ (g f).asker = f.asker ∧ (g f).path = f.path ∧
      ((g f).dropped = false → f.dropped = false)) :
    Points K cursors { t with flights := t.flights.map g } := by
  refine ⟨h.stored, ?_⟩
  intro f hf hdropped
  obtain ⟨f, hmem, rfl⟩ := List.mem_map.mp hf
  obtain ⟨hstore, hasker, hpath, hdrop⟩ := hg f
  rw [hstore, hasker, hpath]
  exact h.reached f hmem (hdrop hdropped)

/-- Clearing one cursor leaves the others as they are. -/
theorem Points.clear {p : Preferences} (h : Points K p.cursors t) (storeId : Uuid) :
    Points K (p.clearSyncCursor storeId).cursors t :=
  ⟨fun other raw hraw => h.stored other raw (Table.find?_filter_eq_some.mp hraw).1, h.reached⟩

/-- How clearing a store's cursor marks the requests on their way. -/
theorem dropOne_eq (storeId : Uuid) (f : Flight) :
    (if f.storeId = storeId then f.drop else f).storeId = f.storeId ∧
      (if f.storeId = storeId then f.drop else f).asker = f.asker ∧
      (if f.storeId = storeId then f.drop else f).path = f.path ∧
      (if f.storeId = storeId then f.drop else f).wiped = f.wiped ∧
      ((if f.storeId = storeId then f.drop else f).dropped = false →
        f.dropped = false ∧ f.storeId ≠ storeId) := by
  split_ifs with h
  · exact ⟨rfl, rfl, rfl, rfl, fun hdropped => (by cases hdropped)⟩
  · exact ⟨rfl, rfl, rfl, rfl, fun hdropped => ⟨hdropped, h⟩⟩

/-- And how listing the cursors does. -/
theorem dropUnlisted_eq (ids : Finset Uuid) (f : Flight) :
    (if f.storeId ∈ ids then f else f.drop).storeId = f.storeId ∧
      (if f.storeId ∈ ids then f else f.drop).asker = f.asker ∧
      (if f.storeId ∈ ids then f else f.drop).path = f.path ∧
      (if f.storeId ∈ ids then f else f.drop).wiped = f.wiped ∧
      ((if f.storeId ∈ ids then f else f.drop).dropped = false →
        f.dropped = false ∧ f.storeId ∈ ids) := by
  split_ifs with h
  · exact ⟨rfl, rfl, rfl, rfl, fun hdropped => ⟨hdropped, h⟩⟩
  · exact ⟨rfl, rfl, rfl, rfl, fun hdropped => (by cases hdropped)⟩

/-- The outline of an entry is its store and whether a page was asked for. -/
theorem outline_eq {f g : Flight} (hstore : g.storeId = f.storeId) (hasker : g.asker = f.asker) :
    Flight.outline g = Flight.outline f := by
  rw [Flight.outline, Flight.outline, hstore, hasker]

end

end Kitaza.PhoneTraces
