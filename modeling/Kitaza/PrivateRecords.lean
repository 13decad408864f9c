import Kitaza.DownloadSteps

/-!
# What is left of the money side on a staff phone

A staff member who loses profit access keeps the phone. The refresh that finds
it out removes the expenses and withdrawals of the store and clears its cursor,
one step after the other, and the next download writes over the costs. Nothing
of it is left as long as no page answered before is applied after, no cursor of
a pull from before is written past a cost, and everything the phone shows a cost
of is the server's and settled when the last page is read.
-/

namespace Kitaza.PrivateRecords

open KeyedTable KeysetPaging Primitives Access Schema SyncPull PullCompleteness PhoneStorage
  DownloadCursor DownloadSteps

/-- The cost figure of a row. -/
def figure : (table : SyncTable) → table.Row → Money
  | .products => fun row : Product => row.costPrice
  | .sales => fun row : Sale => row.costAmount
  | .stockMovements => fun row : StockMovement => row.unitCost
  | .expenses => fun _ => 0
  | .withdrawals => fun _ => 0

/-- The phone has no figure of the store that takes profit access, and no
expense or withdrawal that does not wait to be uploaded. -/
structure NoPrivateRecords (db : LocalDb) (storeId : Uuid) : Prop where
  /-- The costs of its rows are zero. -/
  costs : ∀ (table : SyncTable) id r, (db.rows table).find? id = some r →
    table.storeId r.row = storeId → figure table r.row = 0
  /-- A line that has a cost is a line of another store's sale. -/
  lines : ∀ j item, db.saleItems.find? j = some item → item.unitCost ≠ 0 →
    ∃ sale, (db.rows .sales).find? item.saleId = some sale ∧ sale.row.storeId ≠ storeId
  /-- Its expenses and withdrawals are in the outbox. -/
  records : ∀ table : SyncTable, table.withheld = true → ∀ id r,
    (db.rows table).find? id = some r → table.storeId r.row = storeId → id ∈ db.queued table

/-- How far the phone is with forgetting. -/
inductive Phase where
  | waiting
  | expensesGone
  | recordsGone
  | cleared
  | downloaded
  deriving DecidableEq, Repr

/-- What a refresh does first when profit access was taken away. -/
def erasure (storeId : Uuid) : List Effect :=
  [.forgetPrivateRecords .expenses SyncTable.withheld_expenses storeId,
    .forgetPrivateRecords .withdrawals SyncTable.withheld_withdrawals storeId,
    .clearSyncCursor storeId]

/-- A step of the refresh brings the phone further. -/
def Phase.after (storeId : Uuid) : Phase → Effect → Phase
  | .waiting, .forgetPrivateRecords .expenses _ id =>
    if id = storeId then .expensesGone else .waiting
  | .expensesGone, .forgetPrivateRecords .withdrawals _ id =>
    if id = storeId then .recordsGone else .expensesGone
  | .recordsGone, .clearSyncCursor id => if id = storeId then .cleared else .recordsGone
  | phase, _ => phase

/-- The last page of a pull that nothing was cleared under. -/
def lastPage? (storeId : Uuid) (p : Pull) : Option PullResponse :=
  match p.stage with
  | .answered _ _ page => if p.storeId = storeId ∧ p.cleared = false ∧ page.hasMore = false then
      some page else none
  | .applied page => if p.storeId = storeId ∧ p.cleared = false ∧ page.hasMore = false then
      some page else none
  | _ => none

/-- The download is over when the cursor of a last page is written. -/
def Phase.next (storeId : Uuid) (w : World) (phase : Phase) : Action → Phase
  | .continue i =>
    match w.operations[i]? with
    | some (.running (effect :: _)) => phase.after storeId effect
    | _ => phase
  | .writeCursor i =>
    if phase = .cleared ∧ w.pulls[i]?.any fun p => (lastPage? storeId p).isSome then
      .downloaded
    else phase
  | _ => phase

/-- A run of the server and the phone, watching how far the phone is. -/
def watch (server : Server) (storeId : Uuid) (s : World × Phase) (actions : List Action) :
    Option (World × Phase) :=
  actions.foldlM (fun s a => (step server s.1 a).map fun w => (w, s.2.next storeId s.1 a)) s

/-- The tables that were emptied. -/
def Phase.forgets : Phase → SyncTable → Bool
  | .waiting, _ => false
  | .expensesGone, .expenses => true
  | .expensesGone, _ => false
  | _, table => table.withheld

/-- Whether the cursor was cleared. -/
def Phase.erased : Phase → Bool
  | .cleared => true
  | .downloaded => true
  | _ => false

/-- A row has a cost, or a line written with it has. -/
def Figured (table : SyncTable) (row : table.Row) (items : List (Uuid × SaleItem)) : Prop :=
  figure table row ≠ 0 ∨ ∃ e ∈ items, e.2.unitCost ≠ 0

instance (table : SyncTable) (row : table.Row) (items : List (Uuid × SaleItem)) :
    Decidable (Figured table row items) := inferInstanceAs (Decidable (_ ∨ _))

/-- The phone shows a cost of a record of the store. -/
def ShowsFigure (db : LocalDb) (storeId : Uuid) (table : SyncTable) (id : Uuid) : Prop :=
  ∃ r ∈ (db.rows table).find? id, table.storeId r.row = storeId ∧
    Figured table r.row (heldLines table id db).entries

instance (db : LocalDb) (storeId : Uuid) (table : SyncTable) (id : Uuid) :
    Decidable (ShowsFigure db storeId table id) := inferInstanceAs (Decidable (∃ r ∈ _, _))

/-- The cursors of a store that count. -/
def cursorsInPlay (text : CursorText) (w : World) (storeId : Uuid) : List SyncCursor :=
  ((w.preferences.cursors.find? storeId).map fun raw => text.decode (some raw)).toList ++
    (w.pulls.filter fun p => p.storeId = storeId ∧ p.cleared = false).flatMap fun p =>
      text.decode p.cursor :: match p.stage with
        | .applied page => [text.decode (some page.cursor)]
        | _ => []

/-- A cursor is not past the server's version of a record. -/
def Before (server : Server) (w : World) (storeId : Uuid) (cursor : SyncCursor)
    (table : SyncTable) (id : Uuid) : Prop :=
  ∀ row ∈ (table.rows (server.history.db w.now)).find? id, table.storeId row = storeId →
    cursor.mark table < table.key id row

instance (server : Server) (w : World) (storeId : Uuid) (cursor : SyncCursor)
    (table : SyncTable) (id : Uuid) : Decidable (Before server w storeId cursor table id) :=
  inferInstanceAs (Decidable (∀ row ∈ _, _))

/-- A cost may come to be shown: the record is still to be downloaded, and no
last page is on its way. -/
def MayShow (server : Server) (storeId : Uuid) (phase : Phase) (w : World) (table : SyncTable)
    (id : Uuid) : Prop :=
  phase = .cleared ∧ (∀ p ∈ w.pulls, lastPage? storeId p = none) ∧
    ∀ cursor ∈ cursorsInPlay server.text w storeId, Before server w storeId cursor table id

instance (server : Server) (storeId : Uuid) (phase : Phase) (w : World) (table : SyncTable)
    (id : Uuid) : Decidable (MayShow server storeId phase w table id) :=
  inferInstanceAs (Decidable (_ ∧ _))

/-- Every cost the phone shows is of a record that passes a test. -/
def FiguresAre (db : LocalDb) (storeId : Uuid) (test : SyncTable → Uuid → Prop) : Prop :=
  ∀ table : SyncTable, ∀ id ∈ (db.rows table).ids, ShowsFigure db storeId table id → test table id

instance (db : LocalDb) (storeId : Uuid) (test : SyncTable → Uuid → Prop)
    [∀ table id, Decidable (test table id)] : Decidable (FiguresAre db storeId test) := by
  unfold FiguresAre
  infer_instance

/-- The server has a record of the store, and has not changed it for longer
than the settle window when a page is read. -/
def SettledAt (server : Server) (w : World) (storeId : Uuid) (reads : PullReads)
    (table : SyncTable) (id : Uuid) : Prop :=
  ∃ row ∈ (table.rows (server.history.db w.now)).find? id, table.storeId row = storeId ∧
    table.updatedAt row < reads.now table - server.settings.settleWindow

instance (server : Server) (w : World) (storeId : Uuid) (reads : PullReads) (table : SyncTable)
    (id : Uuid) : Decidable (SettledAt server w storeId reads table id) :=
  inferInstanceAs (Decidable (∃ row ∈ _, _))

/-- Who asked for the page that is awaited. -/
def personOf : Stage → Option Person
  | .requested person _ => some person
  | _ => none

/-- The page that is about to be applied. -/
def answeredPage : Stage → Option PullResponse
  | .answered _ _ page => some page
  | _ => none

/-- The page whose cursor is about to be written. -/
def appliedPage : Stage → Option PullResponse
  | .applied page => some page
  | _ => none

/-- After a table was emptied no page brings its rows back, and what is
uploaded of them is not the store's. Once the cursor is cleared, a cost comes to
be shown only where it is still to be downloaded, no cursor of a pull from
before is written past a cost, and the last page is read when every cost has
settled. -/
def Discreet (server : Server) (storeId : Uuid) (phase : Phase) (w : World) : Action → Prop
  | .applyPage i => ∀ p ∈ w.pulls[i]?, p.storeId = storeId → ∀ page ∈ answeredPage p.stage,
    (∀ table, phase.forgets table = true → page.pages table = []) ∧
    (phase.erased = true → ∀ table : SyncTable, ∀ e ∈ page.pages table,
      Figured table e.2 (deliveredLines table e.1 page) →
        p.cleared = true ∧ MayShow server storeId phase w table e.1)
  | .uploaded table id => phase.forgets table = true →
    ∀ r ∈ (w.db.rows table).find? id, table.storeId r.row ≠ storeId
  | .write table id row items => phase.erased = true → table.storeId row = storeId →
    Figured table row items → MayShow server storeId phase w table id
  | .answer i reads => phase = .cleared → ∀ p ∈ w.pulls[i]?, p.storeId = storeId →
    p.cleared = false → ∀ person ∈ personOf p.stage,
      (answerOf server w storeId p.cursor person reads).hasMore = false →
        FiguresAre w.db storeId (SettledAt server w storeId reads)
  | .writeCursor i => phase = .cleared → ∀ p ∈ w.pulls[i]?, p.storeId = storeId →
    p.cleared = true → ∀ page ∈ appliedPage p.stage, FiguresAre w.db storeId
      (Before server w storeId (server.text.decode (some page.cursor)))
  | _ => True

instance (server : Server) (storeId : Uuid) (phase : Phase) (w : World) (a : Action) :
    Decidable (Discreet server storeId phase w a) :=
  match a with
  | .applyPage _ | .uploaded _ _ | .write _ _ _ _ | .answer _ _ | .writeCursor _ => by
    dsimp only [Discreet]
    infer_instance
  | .commit | .setPermissions _ _ | .signOut | .signIn _ _ | .refreshAccount
  | .accountAnswered _ _ | .switchStore _ | .continue _ | .startPull | .request _ | .abandon _
  | .crash | .restore => isTrue trivial

/-- Every step of a run is discreet. -/
def DiscreetRun (server : Server) (storeId : Uuid) : World → Phase → List Action → Prop
  | _, _, [] => True
  | w, phase, a :: rest => Discreet server storeId phase w a ∧
    match step server w a with
    | some w' => DiscreetRun server storeId w' (phase.next storeId w a) rest
    | none => True

instance decidableDiscreetRun (server : Server) (storeId : Uuid) :
    (w : World) → (phase : Phase) → (actions : List Action) →
      Decidable (DiscreetRun server storeId w phase actions)
  | _, _, [] => isTrue trivial
  | w, phase, a :: rest =>
    match h : step server w a with
    | some w' =>
      have := decidableDiscreetRun server storeId w' (phase.next storeId w a) rest
      decidable_of_iff (Discreet server storeId phase w a ∧
        DiscreetRun server storeId w' (phase.next storeId w a) rest) (by rw [DiscreetRun, h])
    | none => decidable_of_iff (Discreet server storeId phase w a)
      (by rw [DiscreetRun, h, and_true])

section

variable {server : Server} {w w' : World} {a : Action}

/-- Nothing happens to the phone that forgets. -/
theorem next_of_idle {storeId : Uuid} {phase : Phase}
    (hop : ∀ i, a = .continue i → w.operations[i]? = some (.running []))
    (hcursor : ∀ i, a ≠ .writeCursor i) : phase.next storeId w a = phase := by
  cases a with
  | «continue» i => rw [Phase.next, hop i rfl]
  | writeCursor i => exact absurd rfl (hcursor i)
  | _ => rfl

/-- In the tables that were emptied, the store's rows wait to be uploaded. -/
def Forgotten (phase : Phase) (db : LocalDb) (storeId : Uuid) : Prop :=
  ∀ table : SyncTable, phase.forgets table = true → ∀ id r, (db.rows table).find? id = some r →
    table.storeId r.row = storeId → id ∈ db.queued table

theorem shown_storeId (costs : Bool) (table : SyncTable) (row : table.Row) :
    table.storeId (shown costs table row) = table.storeId row := by
  cases costs <;> cases table <;> rfl

/-- A table counts as emptied from the effect on that empties it. -/
theorem forgets_after {storeId : Uuid} {phase : Phase} {effect : Effect} {table : SyncTable}
    (h : (phase.after storeId effect).forgets table = true) : phase.forgets table = true ∨
      ∃ withheld, effect = .forgetPrivateRecords table withheld storeId := by
  unfold Phase.after at h
  split at h
  · split_ifs at h with hid
    · subst hid
      cases table <;> first | exact Or.inr ⟨_, rfl⟩ | cases h
    · exact Or.inl h
  · split_ifs at h with hid
    · subst hid
      cases table <;> first | exact Or.inl rfl | exact Or.inr ⟨_, rfl⟩ | cases h
    · exact Or.inl h
  · split_ifs at h
    · exact Or.inl h
    · exact Or.inl h
  · exact Or.inl h

/-- Writing a cursor empties no table. -/
theorem forgets_next {storeId : Uuid} {phase : Phase} {i : ℕ} {table : SyncTable}
    (h : (phase.next storeId w (.writeCursor i)).forgets table = true) :
    phase.forgets table = true := by
  simp only [Phase.next] at h
  split_ifs at h with hdone
  · rw [hdone.1]
    exact h
  · exact h

/-- A row of the store that is there after a page was applied and not on it
was there before. -/
theorem find?_of_applyPage {h : ServerHistory} {storeId other : Uuid} {costs : Bool}
    {cursor next : SyncCursor} {since now : ℕ} {page : PullResponse} {seenAt : SyncTable → ℕ}
    {linesAt : ℕ} {db : LocalDb} {table : SyncTable} {id : Uuid} {r : LocalRow table}
    (hd : Delivery h other costs cursor since now page next seenAt linesAt)
    (hfind : ((db.applyPage page).rows table).find? id = some r)
    (hstore : table.storeId r.row = storeId) :
    (other = storeId ∧ ∃ row, (id, row) ∈ page.pages table ∧ r = .pulled row) ∨
      (∀ row, (id, row) ∉ page.pages table) ∧ (db.rows table).find? id = some r := by
  by_cases hmem : ∃ row, (id, row) ∈ page.pages table
  · obtain ⟨row, hmem⟩ := hmem
    rw [hd.find?_applyPage hmem] at hfind
    cases hfind
    obtain ⟨seen, -, hseen, hrow⟩ := hd.row table id row hmem
    change table.storeId row = storeId at hstore
    rw [hrow, shown_storeId, hseen] at hstore
    exact Or.inl ⟨hstore, row, hmem, rfl⟩
  · have hnot : ∀ row, (id, row) ∉ page.pages table := fun row hrow => hmem ⟨row, hrow⟩
    exact Or.inr ⟨hnot, by rw [← find?_applyPage_of_notMem hnot, hfind]⟩

theorem Forgotten.step {storeId : Uuid} {phase : Phase} (hd : Downloading server w)
    (hf : Forgotten phase w.db storeId) (hdiscreet : Discreet server storeId phase w a)
    (h : Stepped server w a w') : Forgotten (phase.next storeId w a) w'.db storeId := by
  cases h with
  | idle hdb _ _ _ _ hop hcursor =>
    rw [hdb, next_of_idle hop hcursor]
    exact hf
  | @write at_ key row items hown =>
    intro table hgone id r hfind hstore
    by_cases ht : table = at_
    · subst ht
      simp only [LocalDb.write, Function.update_self] at hfind ⊢
      rw [Table.find?_put] at hfind
      split_ifs at hfind with hid
      · exact hid ▸ Finset.mem_insert_self _ _
      · exact Finset.mem_insert_of_mem (hf table hgone id r hfind hstore)
    · simp only [LocalDb.write, Function.update_of_ne ht] at hfind ⊢
      exact hf table hgone id r hfind hstore
  | @uploaded at_ key =>
    intro table hgone id r hfind hstore
    have hqueued := hf table hgone id r hfind hstore
    by_cases ht : table = at_
    · subst ht
      simp only [LocalDb.uploaded, Function.update_self]
      refine Finset.mem_erase.mpr ⟨?_, hqueued⟩
      rintro rfl
      exact hdiscreet hgone r hfind hstore
    · simpa only [LocalDb.uploaded, Function.update_of_ne ht] using hqueued
  | @performed i effect rest operations hop =>
    intro table hgone id r hfind hstore
    change ((perform w effect).1.db.rows table).find? id = some r at hfind
    change id ∈ (perform w effect).1.db.queued table
    have hnext : phase.next storeId w (.continue i) = phase.after storeId effect := by
      rw [Phase.next, hop]
    rw [hnext] at hgone
    rcases forgets_after hgone with hbefore | ⟨withheld, rfl⟩
    · cases effect with
      | wipe => cases hfind
      | forgetPrivateRecords at_ withheld id' =>
        simp only [perform, LocalDb.forgetPrivateRecords] at hfind ⊢
        by_cases ht : table = at_
        · subst ht
          rw [Function.update_self, Table.find?_filter_eq_some] at hfind
          exact hf table hbefore id r hfind.1 hstore
        · rw [Function.update_of_ne ht] at hfind
          exact hf table hbefore id r hfind hstore
      | _ => exact hf table hbefore id r hfind hstore
    · simp only [perform, LocalDb.forgetPrivateRecords, Function.update_self] at hfind ⊢
      obtain ⟨-, hkept⟩ := Table.find?_filter_eq_some.mp hfind
      simpa [hstore] using hkept
  | @applied i p since costs page hget hstage =>
    intro table hgone id r hfind hstore
    obtain ⟨seenAt, linesAt, hpage⟩ := hd.delivered p (List.mem_of_getElem? hget) _ _ _ hstage
    rcases find?_of_applyPage hpage hfind hstore with ⟨hsame, row, hmem, -⟩ | ⟨-, hold⟩
    · obtain ⟨hempty, -⟩ := hdiscreet p hget hsame page (by rw [hstage]; rfl)
      rw [hempty table hgone] at hmem
      cases hmem
    · exact hf table hgone id r hold hstore
  | cursorWritten => exact fun table hgone => hf table (forgets_next hgone)
  | _ => exact hf

theorem showsFigure_iff {db : LocalDb} {storeId : Uuid} {table : SyncTable} {id : Uuid} :
    ShowsFigure db storeId table id ↔ ∃ r, (db.rows table).find? id = some r ∧
      table.storeId r.row = storeId ∧ (figure table r.row ≠ 0 ∨
        ∃ j item, (heldLines table id db).find? j = some item ∧ item.unitCost ≠ 0) := by
  constructor
  · rintro ⟨r, hfind, hstore, hcost | ⟨⟨j, item⟩, hmem, hcost⟩⟩
    · exact ⟨r, hfind, hstore, Or.inl hcost⟩
    · exact ⟨r, hfind, hstore, Or.inr ⟨j, item, Table.mem_entries.mp hmem, hcost⟩⟩
  · rintro ⟨r, hfind, hstore, hcost | ⟨j, item, hitem, hcost⟩⟩
    · exact ⟨r, hfind, hstore, Or.inl hcost⟩
    · exact ⟨r, hfind, hstore, Or.inr ⟨(j, item), Table.mem_entries.mpr hitem, hcost⟩⟩

/-- Only sales have lines, and a held line is a line of the sale. -/
theorem find?_heldLines_eq_some {db : LocalDb} {table : SyncTable} {id j : Uuid}
    {item : SaleItem} : (heldLines table id db).find? j = some item ↔
      table = .sales ∧ db.saleItems.find? j = some item ∧ item.saleId = id := by
  cases table with
  | sales => simp [find?_heldLines, Option.filter_eq_some_iff]
  | _ => simp [heldLines]

/-- No cost is shown in the tables that are withheld. -/
theorem ShowsFigure.not_withheld {db : LocalDb} {storeId : Uuid} {table : SyncTable} {id : Uuid}
    (h : ShowsFigure db storeId table id) : table.withheld = false := by
  obtain ⟨r, -, -, hcost⟩ := showsFigure_iff.mp h
  cases table with
  | expenses =>
    rcases hcost with hcost | ⟨j, item, hitem, -⟩
    · exact absurd rfl hcost
    · cases (find?_heldLines_eq_some.mp hitem).1
  | withdrawals =>
    rcases hcost with hcost | ⟨j, item, hitem, -⟩
    · exact absurd rfl hcost
    · cases (find?_heldLines_eq_some.mp hitem).1
  | _ => rfl

/-- A record whose row and lines stay shows what it showed. -/
theorem ShowsFigure.of_same {db db' : LocalDb} {storeId : Uuid} {table : SyncTable} {id : Uuid}
    (h : ShowsFigure db' storeId table id)
    (hrow : ∀ r, (db'.rows table).find? id = some r → (db.rows table).find? id = some r)
    (hitems : table = .sales → ∀ j item, db'.saleItems.find? j = some item → item.saleId = id →
      db.saleItems.find? j = some item) : ShowsFigure db storeId table id := by
  obtain ⟨r, hfind, hstore, hcost⟩ := showsFigure_iff.mp h
  refine showsFigure_iff.mpr ⟨r, hrow r hfind, hstore, hcost.imp_right ?_⟩
  rintro ⟨j, item, hitem, hne⟩
  obtain ⟨hsales, hfound, hid⟩ := find?_heldLines_eq_some.mp hitem
  exact ⟨j, item, find?_heldLines_eq_some.mpr ⟨hsales, hitems hsales j item hfound hid, hid⟩, hne⟩

/-- A page takes costs away, but for those it shows of its own records. -/
theorem ShowsFigure.of_applyPage {h : ServerHistory} {storeId other : Uuid} {costs : Bool}
    {cursor next : SyncCursor} {since now : ℕ} {page : PullResponse} {seenAt : SyncTable → ℕ}
    {linesAt : ℕ} {db : LocalDb} {table : SyncTable} {id : Uuid}
    (hd : Delivery h other costs cursor since now page next seenAt linesAt)
    (hs : ShowsFigure (db.applyPage page) storeId table id) :
    (ShowsFigure db storeId table id ∧ ∀ row, (id, row) ∉ page.pages table) ∨
      (other = storeId ∧ ∃ row, (id, row) ∈ page.pages table ∧
        Figured table row (deliveredLines table id page)) := by
  obtain ⟨r, hfind, hstore, hcost⟩ := showsFigure_iff.mp hs
  rcases find?_of_applyPage hd hfind hstore with ⟨hsame, row, hmem, rfl⟩ | ⟨hnot, hold⟩
  · refine Or.inr ⟨hsame, row, hmem, hcost.imp_right ?_⟩
    rintro ⟨j, item, hheld, hne⟩
    obtain ⟨rfl, hitem, rfl⟩ := find?_heldLines_eq_some.mp hheld
    rcases hd.saleItems_applyPage db j with ⟨line, hline, hin, hnew⟩ | ⟨-, hkept⟩
    · rw [hnew] at hitem
      cases hitem
      refine ⟨(j, shownLine costs line), List.mem_filter.mpr ⟨?_, beq_self_eq_true _⟩, hne⟩
      exact (hd.item j _).mpr ⟨line, hline, hin, rfl⟩
    · rw [hkept, Option.filter_eq_some_iff] at hitem
      have hin : item.saleId ∈ (page.pages .sales).map Prod.fst :=
        List.mem_map.mpr ⟨_, hmem, rfl⟩
      have hkeep := hitem.2
      rw [List.contains_iff_mem.mpr hin] at hkeep
      cases hkeep
  · refine Or.inl ⟨hs.of_same (fun r' hr' => ?_) fun hsales j item hitem hid => ?_, hnot⟩
    · rw [hfind] at hr'
      cases hr'
      exact hold
    · subst hsales
      rcases hd.saleItems_applyPage db j with ⟨line, -, hin, hnew⟩ | ⟨-, hkept⟩
      · rw [hnew] at hitem
        cases hitem
        obtain ⟨⟨id', row⟩, hmem, hkey⟩ := List.mem_map.mp hin
        rw [shownLine_saleId] at hid
        obtain rfl : id' = id := hkey.trans hid
        exact absurd hmem (hnot row)
      · rw [hkept, Option.filter_eq_some_iff] at hitem
        exact hitem.1

/-- A write shows a cost of the record it writes at most. -/
theorem ShowsFigure.of_write {db : LocalDb} {storeId : Uuid} {table at_ : SyncTable}
    {id key : Uuid} {row : at_.Row} {items : List (Uuid × SaleItem)}
    (hown : OwnLines db key items) (hs : ShowsFigure (db.write at_ key row items) storeId table id) :
    ShowsFigure db storeId table id ∨
      (table = at_ ∧ id = key ∧ at_.storeId row = storeId ∧ Figured at_ row items) := by
  by_cases hwritten : table = at_ ∧ id = key
  · obtain ⟨rfl, rfl⟩ := hwritten
    obtain ⟨r, hfind, hstore, hcost⟩ := showsFigure_iff.mp hs
    simp only [LocalDb.write, Function.update_self, Table.find?_put_self] at hfind
    cases hfind
    refine Or.inr ⟨rfl, rfl, hstore, hcost.imp_right ?_⟩
    rintro ⟨j, item, hitem, hne⟩
    obtain ⟨rfl, hitem, hid⟩ := find?_heldLines_eq_some.mp hitem
    simp only [LocalDb.write, if_true] at hitem
    rcases Table.find?_putAll_cases (db.saleItems.filter fun _ item => !(item.saleId == id)) items
      j with ⟨item', hmem, hfind⟩ | ⟨-, hfind⟩
    · rw [hfind] at hitem
      cases hitem
      exact ⟨_, hmem, hne⟩
    · rw [hfind, Table.find?_filter_eq_some] at hitem
      simp [hid] at hitem
  · refine Or.inl (hs.of_same (fun r hr => ?_) fun hsales j item hitem hid => ?_)
    · by_cases ht : table = at_
      · subst ht
        have hne : id ≠ key := fun hid => hwritten ⟨rfl, hid⟩
        simpa only [LocalDb.write, Function.update_self, Table.find?_put_ne _ _ hne] using hr
      · simpa only [LocalDb.write, Function.update_of_ne ht] using hr
    · subst hsales
      by_cases ht : at_ = .sales
      · subst ht
        have hne : id ≠ key := fun hid => hwritten ⟨rfl, hid⟩
        simp only [LocalDb.write, if_true] at hitem
        rcases Table.find?_putAll_cases (db.saleItems.filter fun _ item => !(item.saleId == key))
          items j with ⟨item', hmem, hfind⟩ | ⟨-, hfind⟩
        · rw [hfind] at hitem
          cases hitem
          exact absurd (hid.symm.trans (hown _ hmem).1) hne
        · rw [hfind, Table.find?_filter_eq_some] at hitem
          exact hitem.1
      · simpa only [LocalDb.write, if_neg ht] using hitem

/-- A session operation shows no cost that was not shown. -/
theorem ShowsFigure.of_perform {storeId : Uuid} {effect : Effect} {table : SyncTable} {id : Uuid}
    (hs : ShowsFigure (perform w effect).1.db storeId table id) :
    ShowsFigure w.db storeId table id := by
  cases effect with
  | wipe =>
    obtain ⟨r, hfind, -⟩ := showsFigure_iff.mp hs
    cases hfind
  | forgetPrivateRecords at_ withheld id' =>
    refine hs.of_same (fun r hr => ?_) fun _ j item hitem _ => hitem
    simp only [perform, LocalDb.forgetPrivateRecords] at hr
    by_cases ht : table = at_
    · subst ht
      rw [Function.update_self, Table.find?_filter_eq_some] at hr
      exact hr.1
    · rwa [Function.update_of_ne ht] at hr
  | _ => exact hs.of_same (fun _ hr => hr) fun _ _ _ hitem _ => hitem

/-- What holds from the clearing of the cursor on: whatever a cursor that counts
is past shows no cost, and neither does anything once a last page is applied. -/
structure Scrubbed (server : Server) (storeId : Uuid) (w : World) : Prop where
  /-- What a cursor that counts is past shows no cost. -/
  clean : ∀ cursor full, InPlay server.text w storeId cursor full → ∀ table id row,
    Passed server.history w.now storeId cursor table id row → ¬ShowsFigure w.db storeId table id
  /-- What still shows a cost is on the last page. -/
  last : ∀ p ∈ w.pulls, p.storeId = storeId → p.cleared = false → ∀ since costs page,
    p.stage = .answered since costs page → page.hasMore = false → ∀ table id,
      ShowsFigure w.db storeId table id → ∃ row, (id, row) ∈ page.pages table
  /-- After it nothing does. -/
  done : ∀ p ∈ w.pulls, p.storeId = storeId → p.cleared = false → ∀ page,
    p.stage = .applied page → page.hasMore = false → ∀ table id,
      ¬ShowsFigure w.db storeId table id

/-- No cursor that counts is past a record, and no last page is on its way. -/
def Ahead (server : Server) (storeId : Uuid) (w : World) (table : SyncTable) (id : Uuid) : Prop :=
  (∀ cursor full, InPlay server.text w storeId cursor full → ∀ row,
    ¬Passed server.history w.now storeId cursor table id row) ∧
    ∀ p ∈ w.pulls, lastPage? storeId p = none

theorem lastPage?_answered {storeId : Uuid} {p : Pull} {since : ℕ} {costs : Bool}
    {page : PullResponse} (hstore : p.storeId = storeId) (hclear : p.cleared = false)
    (hstage : p.stage = .answered since costs page) (hlast : page.hasMore = false) :
    lastPage? storeId p = some page := by
  rw [lastPage?, hstage]
  exact if_pos ⟨hstore, hclear, hlast⟩

theorem lastPage?_applied {storeId : Uuid} {p : Pull} {page : PullResponse}
    (hstore : p.storeId = storeId) (hclear : p.cleared = false)
    (hstage : p.stage = .applied page) (hlast : page.hasMore = false) :
    lastPage? storeId p = some page := by
  rw [lastPage?, hstage]
  exact if_pos ⟨hstore, hclear, hlast⟩

section

variable {storeId : Uuid}

/-- A step under which the store's pulls and cursor stay, and no cost comes to
be shown that a cursor is past. -/
theorem Scrubbed.of_frame (hi : Scrubbed server storeId w) (hnow : w'.now = w.now)
    (hcursors : ∀ raw, w'.preferences.cursors.find? storeId = some raw →
      w.preferences.cursors.find? storeId = some raw)
    (hpulls : ∀ p' ∈ w'.pulls, p'.storeId = storeId → p'.cleared = false → ∃ p ∈ w.pulls,
      p.storeId = storeId ∧ p.cleared = false ∧ p.cursor = p'.cursor ∧ p.stage = p'.stage)
    (hfigures : ∀ table id, ShowsFigure w'.db storeId table id →
      ShowsFigure w.db storeId table id ∨ Ahead server storeId w table id) :
    Scrubbed server storeId w' := by
  have hplay : ∀ cursor full, InPlay server.text w' storeId cursor full →
      ∃ before, InPlay server.text w storeId cursor before := by
    intro cursor full h
    cases h with
    | stored hraw => exact ⟨_, .stored (hcursors _ hraw)⟩
    | @reached p' hp' hclear' =>
      obtain ⟨p, hp, hstore, hclear, hcursor, -⟩ := hpulls p' hp' rfl hclear'
      rw [← hcursor, ← hstore]
      exact ⟨_, .reached hp hclear⟩
    | @applied p' page hp' hclear' hstage' =>
      obtain ⟨p, hp, hstore, hclear, -, hstage⟩ := hpulls p' hp' rfl hclear'
      rw [← hstore]
      exact ⟨_, .applied hp hclear (hstage.trans hstage')⟩
  refine ⟨?_, ?_, ?_⟩
  · intro cursor full h table id row hpassed hshows
    obtain ⟨before, hbefore⟩ := hplay cursor full h
    rw [hnow] at hpassed
    rcases hfigures table id hshows with hold | ⟨hahead, -⟩
    · exact hi.clean cursor before hbefore table id row hpassed hold
    · exact hahead cursor before hbefore row hpassed
  · intro p' hp' hstore' hclear' since costs page hstage' hlast table id hshows
    obtain ⟨p, hp, hstore, hclear, -, hstage⟩ := hpulls p' hp' hstore' hclear'
    have hanswered := hstage.trans hstage'
    rcases hfigures table id hshows with hold | ⟨-, hnone⟩
    · exact hi.last p hp hstore hclear since costs page hanswered hlast table id hold
    · have hsome := lastPage?_answered hstore hclear hanswered hlast
      rw [hnone p hp] at hsome
      cases hsome
  · intro p' hp' hstore' hclear' page hstage' hlast table id hshows
    obtain ⟨p, hp, hstore, hclear, -, hstage⟩ := hpulls p' hp' hstore' hclear'
    have happlied := hstage.trans hstage'
    rcases hfigures table id hshows with hold | ⟨-, hnone⟩
    · exact hi.done p hp hstore hclear page happlied hlast table id hold
    · have hsome := lastPage?_applied hstore hclear happlied hlast
      rw [hnone p hp] at hsome
      cases hsome

/-- Clearing the cursor leaves no cursor that counts. -/
theorem scrubbed_of_cleared (w : World) (storeId : Uuid) :
    Scrubbed server storeId (perform w (.clearSyncCursor storeId)).1 := by
  have hpulls : ∀ p ∈ (perform w (.clearSyncCursor storeId)).1.pulls, p.storeId = storeId →
      p.cleared ≠ false := by
    intro p hp hstore
    obtain ⟨q, -, rfl⟩ := List.mem_map.mp hp
    by_cases hq : q.storeId = storeId
    · rw [if_pos hq]
      exact nofun
    · rw [if_neg hq] at hstore
      exact absurd hstore hq
  have hplay : ∀ cursor full,
      ¬InPlay server.text (perform w (.clearSyncCursor storeId)).1 storeId cursor full := by
    intro cursor full h
    cases h with
    | stored hraw =>
      have hkept := (Table.find?_filter_eq_some.mp hraw).2
      simp at hkept
    | reached hp hclear => exact hpulls _ hp rfl hclear
    | applied hp hclear _ => exact hpulls _ hp rfl hclear
  exact ⟨fun _ _ h => absurd h (hplay _ _),
    fun p hp hstore hclear => absurd hclear (hpulls p hp hstore),
    fun p hp hstore hclear => absurd hclear (hpulls p hp hstore)⟩

theorem Scrubbed.commit (hd : Downloading server w) (hi : Scrubbed server storeId w) :
    Scrubbed server storeId { w with now := w.now + 1 } := by
  have hplay : ∀ cursor full,
      InPlay server.text { w with now := w.now + 1 } storeId cursor full →
      InPlay server.text w storeId cursor full :=
    fun cursor full h => h.congr (fun _ _ hraw => hraw) (fun _ hp => hp) rfl
  refine ⟨fun cursor full h table id row hpassed => ?_, hi.last, hi.done⟩
  -- what is past a settled cursor was there before
  obtain ⟨hrow, -⟩ := hd.settled (hplay _ _ h) table (w.now + 1) id row (Nat.le_succ _)
    hpassed.1 hpassed.2.2 w.now le_rfl (Nat.le_succ _)
  exact hi.clean _ _ (hplay _ _ h) table id row ⟨hrow, hpassed.2⟩

theorem mem_cursorsInPlay {text : CursorText} {cursor : SyncCursor} {full : Bool}
    (h : InPlay text w storeId cursor full) : cursor ∈ cursorsInPlay text w storeId := by
  rw [cursorsInPlay, List.mem_append]
  cases h with
  | stored hraw =>
    left
    rw [hraw]
    exact List.mem_singleton_self _
  | @reached p hp hclear =>
    right
    rw [List.mem_flatMap]
    exact ⟨p, List.mem_filter.mpr ⟨hp, decide_eq_true ⟨rfl, hclear⟩⟩, List.mem_cons_self⟩
  | @applied p page hp hclear hstage =>
    right
    rw [List.mem_flatMap]
    refine ⟨p, List.mem_filter.mpr ⟨hp, decide_eq_true ⟨rfl, hclear⟩⟩, List.mem_cons_of_mem _ ?_⟩
    rw [hstage]
    exact List.mem_singleton_self _

/-- Where a cost may come to be shown, no cursor is past. -/
theorem MayShow.ahead {phase : Phase} {table : SyncTable} {id : Uuid}
    (h : MayShow server storeId phase w table id) : Ahead server storeId w table id := by
  obtain ⟨-, hnone, hbefore⟩ := h
  refine ⟨fun cursor full hplay row hpassed => ?_, hnone⟩
  have hlt := hbefore cursor (mem_cursorsInPlay hplay) row hpassed.1 hpassed.2.1
  exact absurd hpassed.2.2 hlt.not_ge

theorem Scrubbed.write (hi : Scrubbed server storeId w) {table : SyncTable} {id : Uuid}
    {row : table.Row} {items : List (Uuid × SaleItem)} (hown : OwnLines w.db id items)
    (hdiscreet : Discreet server storeId .cleared w (.write table id row items)) :
    Scrubbed server storeId { w with db := w.db.write table id row items } := by
  refine hi.of_frame rfl (fun _ hraw => hraw)
    (fun p hp hstore hclear => ⟨p, hp, hstore, hclear, rfl, rfl⟩) fun at_ key hshows => ?_
  rcases hshows.of_write hown with hold | ⟨rfl, rfl, hstore, hfigured⟩
  · exact Or.inl hold
  · exact Or.inr (hdiscreet rfl hstore hfigured).ahead

theorem Scrubbed.perform (hi : Scrubbed server storeId w) (effect : Effect)
    (operations : List Operation) :
    Scrubbed server storeId { (perform w effect).1 with operations := operations } := by
  obtain ⟨hnow, hcursors, -, hpulls⟩ := @perform_pulls w effect
  refine hi.of_frame hnow (hcursors storeId) (fun p' hp' hstore' hclear' => ?_)
    fun _ _ hshows => Or.inl hshows.of_perform
  obtain ⟨p, hp, hstore, hcursor, hstage, hclear⟩ := hpulls p' hp'
  exact ⟨p, hp, hstore ▸ hstore', hclear hclear', hcursor.symm, hstage.symm⟩

theorem Scrubbed.start (hs : server.history.Stamped server.settings.settleWindow)
    (hd : Downloading server w) (hi : Scrubbed server storeId w) {other : Uuid} {full : Bool} :
    Scrubbed server storeId { w with
      preferences := (w.preferences.readSyncCursor other).2
      pulls := w.pulls ++ [⟨other, (w.preferences.readSyncCursor other).1, .ready, false, false,
        full⟩] } := by
  rw [hd.readSyncCursor other]
  refine ⟨?_, ?_, ?_⟩
  · intro cursor full' h table id row hpassed
    cases h with
    | stored hraw => exact hi.clean _ _ (.stored hraw) table id row hpassed
    | reached hp hclear =>
      rcases List.mem_append.mp hp with hp | hp
      · exact hi.clean _ _ (.reached hp hclear) table id row hpassed
      · -- the new pull starts from the stored cursor or from nothing
        obtain rfl := List.mem_singleton.mp hp
        dsimp only at hpassed hi ⊢
        cases hown : w.preferences.cursors.find? other with
        | none =>
          exfalso
          rw [hown] at hpassed
          apply hpassed.2.2.not_gt
          rw [TableMark.lt_iff]
          exact Or.inl (hs.afterEpoch table id _ row hpassed.1)
        | some own =>
          rw [hown] at hpassed
          exact hi.clean _ _ (.stored hown) table id row hpassed
    | applied hp hclear hstage =>
      rcases List.mem_append.mp hp with hp | hp
      · exact hi.clean _ _ (.applied hp hclear hstage) table id row hpassed
      · obtain rfl := List.mem_singleton.mp hp
        cases hstage
  · intro p hp hstore hclear since costs page hstage
    rcases List.mem_append.mp hp with hp | hp
    · exact hi.last p hp hstore hclear since costs page hstage
    · obtain rfl := List.mem_singleton.mp hp
      cases hstage
  · intro p hp hstore hclear page hstage
    rcases List.mem_append.mp hp with hp | hp
    · exact hi.done p hp hstore hclear page hstage
    · obtain rfl := List.mem_singleton.mp hp
      cases hstage

theorem Scrubbed.request (hi : Scrubbed server storeId w) {i : ℕ} {p : Pull} {person : Person}
    (hget : w.pulls[i]? = some p) : Scrubbed server storeId { w with
      pulls := w.pulls.set i { p with stage := .requested person w.now, overtaken := false } } := by
  refine ⟨fun _ _ h => hi.clean _ _ (inPlay_set h hget rfl rfl rfl rfl fun _ => nofun), ?_, ?_⟩
  · intro q hq hstore hclear since costs page hstage
    rcases List.mem_or_eq_of_mem_set hq with hq | rfl
    · exact hi.last q hq hstore hclear since costs page hstage
    · cases hstage
  · intro q hq hstore hclear page hstage
    rcases List.mem_or_eq_of_mem_set hq with hq | rfl
    · exact hi.done q hq hstore hclear page hstage
    · cases hstage

/-- A record past the cursor that has settled is on a last page. -/
theorem mem_of_last (hs : server.history.Stamped server.settings.settleWindow)
    {raw : Option String} {person : Person} {reads : PullReads} {since : ℕ} {table : SyncTable}
    {id : Uuid} {row : table.Row} (hreads : ReadsBetween server since w.now reads)
    (hlast : (answerOf server w storeId raw person reads).hasMore = false)
    (hopen : table.withheld = false)
    (hfind : (table.rows (server.history.db w.now)).find? id = some row)
    (hstore : table.storeId row = storeId)
    (hsettled : table.updatedAt row < reads.now table - server.settings.settleWindow)
    (hkey : (server.text.decode raw).mark table < table.key id row) :
    ∃ r, (id, r) ∈ (answerOf server w storeId raw person reads).pages table := by
  obtain ⟨-, hseen, hclock⟩ := hreads.1 table
  -- the page saw this version already
  have hpast : PastFrom server.history table (table.key id row) (reads.seenAt table) :=
    pastFrom_of_lt hs (hsettled.trans_le (sub_le_sub_right hclock _))
  have hthen := (hpast w.now id row hseen hfind le_rfl _ le_rfl hseen).1
  have hready : ready server.settings table storeId (reads.now table) id row = true := by
    rw [ready, Bool.and_eq_true, decide_eq_true_iff, beq_iff_eq]
    exact ⟨hstore, hsettled⟩
  have hvisible : ((w.actorOf person).can .viewProfit || !table.withheld) = true := by
    rw [hopen, Bool.not_false, Bool.or_true]
  have hmem : (id, row) ∈ pageAt server.settings storeId
      (fun table => ⟨server.history.db (reads.seenAt table), reads.now table⟩)
      (server.text.decode raw) table := by
    by_contra hnot
    have hfull := (full_of_notMem_page hthen hkey hready hnot).1
    have hmore := (@hasMore_received server.text server.settings storeId (w.actorOf person) raw
      (fun table => ⟨server.history.db (reads.seenAt table), reads.now table⟩)
      (server.history.db reads.linesAt)).mpr ⟨table, hvisible, hfull.ge⟩
    change (answerOf server w storeId raw person reads).hasMore = true at hmore
    rw [hlast] at hmore
    cases hmore
  refine ⟨shown ((w.actorOf person).can .viewProfit) table row, ?_⟩
  rw [answerOf, (@pull_received server.text server.settings storeId (w.actorOf person) raw
    (fun table => ⟨server.history.db (reads.seenAt table), reads.now table⟩)
    (server.history.db reads.linesAt)).1 table, if_pos hvisible]
  exact List.mem_map.mpr ⟨(id, row), hmem, rfl⟩

theorem Scrubbed.answer (hs : server.history.Stamped server.settings.settleWindow)
    (hi : Scrubbed server storeId w) {i : ℕ} {p : Pull} {person : Person} {since : ℕ}
    {reads : PullReads} (hget : w.pulls[i]? = some p) (hstage : p.stage = .requested person since)
    (hreads : ReadsBetween server since w.now reads)
    (hdiscreet : Discreet server storeId .cleared w (.answer i reads)) :
    Scrubbed server storeId { w with
      pulls := w.pulls.set i { p with
        stage := .answered since ((w.actorOf person).can .viewProfit)
          (answerOf server w p.storeId p.cursor person reads) } } := by
  have hp : p ∈ w.pulls := List.mem_of_getElem? hget
  refine ⟨fun _ _ h => hi.clean _ _ (inPlay_set h hget rfl rfl rfl rfl fun _ => nofun), ?_, ?_⟩
  · intro q hq hstore hclear since' costs page hanswered hlast table id hshows
    rcases List.mem_or_eq_of_mem_set hq with hq | rfl
    · exact hi.last q hq hstore hclear since' costs page hanswered hlast table id hshows
    · cases hanswered
      change p.storeId = storeId at hstore
      subst hstore
      obtain ⟨r, hfind, -⟩ := showsFigure_iff.mp hshows
      obtain ⟨row, hrow, hstore, hsettled⟩ := hdiscreet rfl p hget rfl hclear person
        (by rw [hstage]; rfl) hlast table id (Table.mem_ids_of_find? hfind) hshows
      -- a record the cursor is past shows no cost, so this one is still to come
      have hkey : (server.text.decode p.cursor).mark table < table.key id row := by
        by_contra hle
        exact hi.clean _ _ (.reached hp hclear) table id row ⟨hrow, hstore, not_lt.mp hle⟩ hshows
      exact mem_of_last hs hreads hlast hshows.not_withheld hrow hstore hsettled hkey
  · intro q hq hstore hclear page happlied
    rcases List.mem_or_eq_of_mem_set hq with hq | rfl
    · exact hi.done q hq hstore hclear page happlied
    · cases happlied

/-- A pull once a page is applied is one of before, or the one whose page it was. -/
theorem pull_of_applyPage {pulls : List Pull} {i : ℕ} {p q : Pull} {costs : Bool}
    {page : PullResponse} (hq : q ∈ (pulls.map (Pull.overtake p.storeId costs)).set i
      { p.overtake p.storeId costs with stage := .applied page }) :
    (∃ q' ∈ pulls, q.storeId = q'.storeId ∧ q.cursor = q'.cursor ∧ q.stage = q'.stage ∧
        q.cleared = q'.cleared) ∨
      (q.storeId = p.storeId ∧ q.cursor = p.cursor ∧ q.stage = .applied page ∧
        q.cleared = p.cleared) := by
  obtain ⟨hpstore, hpcursor, -, hpcleared, -⟩ := p.overtake_eq p.storeId costs
  rcases List.mem_or_eq_of_mem_set hq with hq | rfl
  · obtain ⟨q', hq', rfl⟩ := List.mem_map.mp hq
    obtain ⟨hstore, hcursor, hsame, hcleared, -⟩ := q'.overtake_eq p.storeId costs
    exact Or.inl ⟨q', hq', hstore, hcursor, hsame, hcleared⟩
  · exact Or.inr ⟨hpstore, hpcursor, rfl, hpcleared⟩

/-- A cursor that counts once a page is applied counted before, or is the page's. -/
theorem inPlay_of_applyPage {i : ℕ} {p : Pull} (hp : p ∈ w.pulls) {costs : Bool}
    {page : PullResponse} {cursor : SyncCursor} {full : Bool}
    (h : InPlay server.text { w with
      db := w.db.applyPage page
      pulls := (w.pulls.map (Pull.overtake p.storeId costs)).set i
        { p.overtake p.storeId costs with stage := .applied page }
      full := Function.update w.full p.storeId (w.full p.storeId && costs) } storeId cursor full) :
    (∃ before, InPlay server.text w storeId cursor before) ∨
      (p.storeId = storeId ∧ p.cleared = false ∧
        cursor = server.text.decode (some page.cursor)) := by
  cases h with
  | stored hraw => exact Or.inl ⟨_, .stored hraw⟩
  | reached hq hclear =>
    rcases pull_of_applyPage hq with ⟨q', hq', hstore, hcursor, -, hcleared⟩ |
      ⟨hstore, hcursor, -, hcleared⟩
    · rw [hstore, hcursor]
      exact Or.inl ⟨_, .reached hq' (hcleared ▸ hclear)⟩
    · rw [hstore, hcursor]
      exact Or.inl ⟨_, .reached hp (hcleared ▸ hclear)⟩
  | applied hq hclear happlied =>
    rcases pull_of_applyPage hq with ⟨q', hq', hstore, -, hsame, hcleared⟩ |
      ⟨hstore, -, hsame, hcleared⟩
    · rw [hstore]
      exact Or.inl ⟨_, .applied hq' (hcleared ▸ hclear) (hsame ▸ happlied)⟩
    · rw [hsame] at happlied
      cases happlied
      exact Or.inr ⟨hstore.symm, hcleared ▸ hclear, rfl⟩

theorem Scrubbed.applyPage (hd : Downloading server w) (hi : Scrubbed server storeId w) {i : ℕ}
    {p : Pull} {since : ℕ} {costs : Bool} {page : PullResponse} (hget : w.pulls[i]? = some p)
    (hstage : p.stage = .answered since costs page)
    (hdiscreet : Discreet server storeId .cleared w (.applyPage i)) :
    Scrubbed server storeId { w with
      db := w.db.applyPage page
      pulls := (w.pulls.map (Pull.overtake p.storeId costs)).set i
        { p.overtake p.storeId costs with stage := .applied page }
      full := Function.update w.full p.storeId (w.full p.storeId && costs) } := by
  have hp : p ∈ w.pulls := List.mem_of_getElem? hget
  obtain ⟨seenAt, linesAt, hpage⟩ := hd.delivered p hp since costs page hstage
  obtain ⟨-, hold⟩ := hd.asked p hp since (by rw [hstage]; rfl)
  -- a cost is one of before, or a pull from before the clearing brings it
  have hfigures : ∀ table id, ShowsFigure (w.db.applyPage page) storeId table id →
      (ShowsFigure w.db storeId table id ∧ ∀ row, (id, row) ∉ page.pages table) ∨
        (p.cleared = true ∧ Ahead server storeId w table id) := by
    intro table id hshows
    refine (hshows.of_applyPage hpage).imp_right ?_
    rintro ⟨hsame, row, hmem, hfigured⟩
    obtain ⟨-, hmay⟩ := hdiscreet p hget hsame page (by rw [hstage]; rfl)
    obtain ⟨hcleared, hmay⟩ := hmay rfl table (id, row) hmem hfigured
    exact ⟨hcleared, hmay.ahead⟩
  refine ⟨?_, ?_, ?_⟩
  · intro cursor full h table id row hpassed hshows
    rcases inPlay_of_applyPage hp h with ⟨before, h⟩ | ⟨hstore, hclear, rfl⟩
    · rcases hfigures table id hshows with ⟨hbefore, -⟩ | ⟨-, hahead, -⟩
      · exact hi.clean _ _ h table id row hpassed hbefore
      · exact hahead _ _ h row hpassed
    · rcases hfigures table id hshows with ⟨hbefore, hnot⟩ | ⟨hcleared, -⟩
      · by_cases hkey : table.key id row ≤ (server.text.decode p.cursor).mark table
        · have hreached := @InPlay.reached server.text w p hp hclear
          rw [hstore] at hreached
          exact hi.clean _ _ hreached table id row ⟨hpassed.1, hpassed.2.1, hkey⟩ hbefore
        · -- what the page's cursor is past and the pull's is not, is on the page
          have hseen := (hpage.past table (hold table) w.now id row (hpage.seen table).2 hpassed.1
            hpassed.2.2 _ le_rfl (hpage.seen table).2).1
          obtain ⟨r, hmem⟩ := hpage.complete table id row hseen (hpassed.2.1.trans hstore.symm)
            (not_le.mp hkey) hpassed.2.2
          exact hnot r hmem
      · rw [hclear] at hcleared
        cases hcleared
  · intro q hq hstore hclear since' costs' page' hanswered hlast table id hshows
    rcases pull_of_applyPage hq with ⟨q', hq', hsame, -, hstages, hcleared⟩ | ⟨-, -, happlied, -⟩
    · have hanswered' := hstages.symm.trans hanswered
      rcases hfigures table id hshows with ⟨hbefore, -⟩ | ⟨-, -, hnone⟩
      · exact hi.last q' hq' (hsame ▸ hstore) (hcleared ▸ hclear) since' costs' page' hanswered'
          hlast table id hbefore
      · have hsome := lastPage?_answered (hsame ▸ hstore) (hcleared ▸ hclear) hanswered' hlast
        rw [hnone q' hq'] at hsome
        cases hsome
    · rw [happlied] at hanswered
      cases hanswered
  · intro q hq hstore hclear page' happlied hlast table id hshows
    rcases pull_of_applyPage hq with ⟨q', hq', hsame, -, hstages, hcleared⟩ |
      ⟨hsame, -, hstages, hcleared⟩
    · have happlied' := hstages.symm.trans happlied
      rcases hfigures table id hshows with ⟨hbefore, -⟩ | ⟨-, -, hnone⟩
      · exact hi.done q' hq' (hsame ▸ hstore) (hcleared ▸ hclear) page' happlied' hlast table id
          hbefore
      · have hsome := lastPage?_applied (hsame ▸ hstore) (hcleared ▸ hclear) happlied' hlast
        rw [hnone q' hq'] at hsome
        cases hsome
    · rw [hstages] at happlied
      cases happlied
      rcases hfigures table id hshows with ⟨hbefore, hnot⟩ | ⟨hwas, -⟩
      · obtain ⟨row, hmem⟩ := hi.last p hp (hsame ▸ hstore) (hcleared ▸ hclear) since costs page
          hstage hlast table id hbefore
        exact hnot row hmem
      · rw [← hcleared, hclear] at hwas
        cases hwas

theorem Scrubbed.writeCursor (hi : Scrubbed server storeId w) {i : ℕ} {p : Pull}
    {page : PullResponse} {pulls : List Pull} (hget : w.pulls[i]? = some p)
    (hstage : p.stage = .applied page) (hpulls : ∀ q ∈ pulls, q ∈ w.pulls ∨
      q = { p with cursor := some page.cursor, stage := .ready })
    (hdiscreet : Discreet server storeId .cleared w (.writeCursor i)) :
    Scrubbed server storeId { w with
      preferences := w.preferences.writeSyncCursor p.storeId page.cursor
      pulls := pulls
      full := Function.update w.full p.storeId p.full } := by
  have hp : p ∈ w.pulls := List.mem_of_getElem? hget
  refine ⟨?_, ?_, ?_⟩
  · intro cursor full h table id row hpassed hshows
    cases h with
    | stored hraw =>
      change (w.preferences.cursors.put p.storeId page.cursor).find? storeId = _ at hraw
      rw [Table.find?_put] at hraw
      split_ifs at hraw with hsame
      · cases hraw
        cases hclear : p.cleared with
        | false =>
          have happlied := @InPlay.applied server.text w p page hp hclear hstage
          rw [← hsame] at happlied
          exact hi.clean _ _ happlied table id row hpassed hshows
        | true =>
          obtain ⟨r, hfind, -⟩ := showsFigure_iff.mp hshows
          have hbefore := hdiscreet rfl p hget hsame.symm hclear page (by rw [hstage]; rfl) table
            id (Table.mem_ids_of_find? hfind) hshows row hpassed.1 hpassed.2.1
          exact absurd hpassed.2.2 hbefore.not_ge
      · exact hi.clean _ _ (.stored hraw) table id row hpassed hshows
    | reached hq hclear =>
      rcases hpulls _ hq with hq | rfl
      · exact hi.clean _ _ (.reached hq hclear) table id row hpassed hshows
      · exact hi.clean _ _ (@InPlay.applied server.text w p page hp hclear hstage) table id row
          hpassed hshows
    | applied hq hclear happlied =>
      rcases hpulls _ hq with hq | rfl
      · exact hi.clean _ _ (.applied hq hclear happlied) table id row hpassed hshows
      · cases happlied
  · intro q hq hstore hclear since costs page' hanswered
    rcases hpulls q hq with hq | rfl
    · exact hi.last q hq hstore hclear since costs page' hanswered
    · cases hanswered
  · intro q hq hstore hclear page' happlied
    rcases hpulls q hq with hq | rfl
    · exact hi.done q hq hstore hclear page' happlied
    · cases happlied

end

/-- What holds of a phone that is watched while it forgets. -/
structure Watched (server : Server) (storeId : Uuid) (w : World) (phase : Phase) : Prop where
  /-- Its downloads are the server's. -/
  downloading : Downloading server w
  /-- Every line belongs to a sale. -/
  owned : LinesOwned w.db
  /-- The tables that were emptied stay so. -/
  forgotten : Forgotten phase w.db storeId
  /-- The download goes on. -/
  scrubbed : phase = .cleared → Scrubbed server storeId w
  /-- After it no cost is left. -/
  blank : phase = .downloaded → ∀ table id, ¬ShowsFigure w.db storeId table id

section

variable {storeId : Uuid} {phase : Phase}

/-- The cursor counts as cleared from the effect on that clears it. -/
theorem cleared_of_next (h : phase.next storeId w a = .cleared) : phase = .cleared ∨
    ∃ i rest, a = .continue i ∧
      w.operations[i]? = some (.running (.clearSyncCursor storeId :: rest)) := by
  cases a with
  | «continue» i =>
    simp only [Phase.next] at h
    split at h
    · rename_i effect rest hop
      unfold Phase.after at h
      split at h
      · split_ifs at h
      · split_ifs at h
      · split_ifs at h with hid
        subst hid
        exact Or.inr ⟨i, rest, rfl, hop⟩
      · exact Or.inl h
    · exact Or.inl h
  | writeCursor i =>
    simp only [Phase.next] at h
    split_ifs at h
    exact Or.inl h
  | _ => exact Or.inl h

/-- The download is over from the cursor of a last page on. -/
theorem downloaded_of_next (h : phase.next storeId w a = .downloaded) : phase = .downloaded ∨
    phase = .cleared ∧ ∃ i p, a = .writeCursor i ∧ w.pulls[i]? = some p ∧
      (lastPage? storeId p).isSome = true := by
  cases a with
  | «continue» i =>
    simp only [Phase.next] at h
    split at h
    · unfold Phase.after at h
      split at h
      · split_ifs at h
      · split_ifs at h
      · split_ifs at h
      · exact Or.inl h
    · exact Or.inl h
  | writeCursor i =>
    simp only [Phase.next] at h
    split_ifs at h with hdone
    · obtain ⟨hcleared, hlast⟩ := hdone
      cases hget : w.pulls[i]? with
      | none =>
        rw [hget] at hlast
        cases hlast
      | some p =>
        rw [hget] at hlast
        exact Or.inr ⟨hcleared, i, p, rfl, hget, hlast⟩
    · exact Or.inl h
  | _ => exact Or.inl h

theorem Scrubbed.step (hs : server.history.Stamped server.settings.settleWindow)
    (hd : Downloading server w) (hi : Scrubbed server storeId w)
    (hdiscreet : Discreet server storeId .cleared w a) (h : Stepped server w a w') :
    Scrubbed server storeId w' := by
  cases h with
  | idle hdb hprefs hnow _ hpulls _ _ =>
    exact hi.of_frame hnow (fun raw hraw => hprefs ▸ hraw)
      (fun p hp hstore hclear => ⟨p, hpulls p hp, hstore, hclear, rfl, rfl⟩)
      fun _ _ hshows => Or.inl (hdb ▸ hshows)
  | commit => exact hi.commit hd
  | write hown => exact hi.write hown hdiscreet
  | uploaded =>
    exact hi.of_frame rfl (fun _ hraw => hraw)
      (fun p hp hstore hclear => ⟨p, hp, hstore, hclear, rfl, rfl⟩) fun _ _ hshows =>
        Or.inl (hshows.of_same (fun _ hr => hr) fun _ _ _ hitem _ => hitem)
  | performed hop => exact hi.perform _ _
  | started _ => exact hi.start hs hd
  | requested hget => exact hi.request hget
  | answered hget hstage hreads => exact hi.answer hs hget hstage hreads hdiscreet
  | applied hget hstage => exact hi.applyPage hd hget hstage hdiscreet
  | cursorWritten hget hstage hpulls => exact hi.writeCursor hget hstage hpulls hdiscreet

/-- Once the download is over, no cost comes to be shown. -/
theorem blank_step (hd : Downloading server w)
    (hblank : ∀ table id, ¬ShowsFigure w.db storeId table id)
    (hdiscreet : Discreet server storeId .downloaded w a) (h : Stepped server w a w')
    (table : SyncTable) (id : Uuid) : ¬ShowsFigure w'.db storeId table id := by
  intro hshows
  cases h with
  | idle hdb => exact hblank table id (hdb ▸ hshows)
  | write hown =>
    rcases hshows.of_write hown with hold | ⟨rfl, rfl, hstore, hfigured⟩
    · exact hblank table id hold
    · cases (hdiscreet rfl hstore hfigured).1
  | uploaded =>
    exact hblank table id (hshows.of_same (fun _ hr => hr) fun _ _ _ hitem _ => hitem)
  | performed hop => exact hblank table id hshows.of_perform
  | applied hget hstage =>
    obtain ⟨seenAt, linesAt, hpage⟩ := hd.delivered _ (List.mem_of_getElem? hget) _ _ _ hstage
    rcases hshows.of_applyPage hpage with ⟨hbefore, -⟩ | ⟨hsame, row, hmem, hfigured⟩
    · exact hblank table id hbefore
    · obtain ⟨-, hmay⟩ := hdiscreet _ hget hsame _ (by rw [hstage]; rfl)
      cases (hmay rfl table (id, row) hmem hfigured).2.1
  | _ => exact hblank table id hshows

/-- A discreet step keeps what holds of a phone that is watched. -/
theorem Watched.step (hs : server.history.Stamped server.settings.settleWindow)
    (hround : server.text.RoundTrips) (hw : Watched server storeId w phase)
    (hdiscreet : Discreet server storeId phase w a) (h : Stepped server w a w') :
    Watched server storeId w' (phase.next storeId w a) := by
  refine ⟨hw.downloading.step hs hround h, hw.owned.step hw.downloading h,
    hw.forgotten.step hw.downloading hdiscreet h, fun hnext => ?_, fun hnext => ?_⟩
  · rcases cleared_of_next hnext with rfl | ⟨i, rest, rfl, hop⟩
    · exact (hw.scrubbed rfl).step hs hw.downloading hdiscreet h
    · cases h with
      | idle _ _ _ _ _ hidle _ =>
        rw [hidle i rfl] at hop
        cases hop
      | @performed _ effect rest' operations hop' =>
        rw [hop] at hop'
        cases hop'
        exact (scrubbed_of_cleared w storeId).of_frame rfl (fun _ hraw => hraw)
          (fun p hp hstore hclear => ⟨p, hp, hstore, hclear, rfl, rfl⟩)
          fun _ _ hshows => Or.inl hshows
  · rcases downloaded_of_next hnext with rfl | ⟨rfl, i, p, rfl, hget, hlast⟩
    · exact blank_step hw.downloading (hw.blank rfl) hdiscreet h
    · cases h with
      | idle _ _ _ _ _ _ hcursor => exact absurd rfl (hcursor i)
      | @cursorWritten _ p' page pulls hget' hstage hpulls =>
        rw [hget] at hget'
        cases hget'
        unfold lastPage? at hlast
        rw [hstage] at hlast
        dsimp only at hlast
        split_ifs at hlast with hdone
        · obtain ⟨hstore, hclear, hmore⟩ := hdone
          exact (hw.scrubbed rfl).done p (List.mem_of_getElem? hget) hstore hclear page hstage hmore
        · cases hlast

theorem Watched.run (hs : server.history.Stamped server.settings.settleWindow)
    (hround : server.text.RoundTrips) (hw : Watched server storeId w phase)
    {actions : List Action} {s : World × Phase} (hdiscreet : DiscreetRun server storeId w phase actions)
    (hrun : watch server storeId (w, phase) actions = some s) :
    Watched server storeId s.1 s.2 := by
  induction actions generalizing w phase with
  | nil =>
    cases hrun
    exact hw
  | cons a rest ih =>
    rw [watch, List.foldlM_cons, Option.bind_eq_bind, Option.bind_eq_some_iff] at hrun
    obtain ⟨next, hnext, hrest⟩ := hrun
    obtain ⟨w', hstep, rfl⟩ := Option.map_eq_some_iff.mp hnext
    obtain ⟨hfirst, hafter⟩ := hdiscreet
    rw [hstep] at hafter
    exact ih (hw.step hs hround hfirst (stepped_of_step hstep)) hafter hrest

end

end

/-- A refresh that finds profit access taken away begins with the erasure. -/
theorem refreshAccount_erases {current fresh : AuthSession} (hstaff : fresh.access.isStaff = true)
    (hbefore : current.access.can .viewProfit = true)
    (hafter : fresh.access.can .viewProfit = false) :
    ∃ rest, PhoneStorage.refreshAccount current fresh = erasure fresh.store ++ rest := by
  unfold PhoneStorage.refreshAccount
  rw [hstaff, hbefore, hafter]
  exact ⟨_, rfl⟩

/-- After any run, a staff phone whose refresh removed the records of the store
and cleared its cursor, and whose next download of it came to the end, has no
cost of the store and no expense or withdrawal outside the outbox, in every
state of every run whose steps are discreet. -/
theorem no_private_records (server : Server)
    (hs : server.history.Stamped server.settings.settleWindow) (hround : server.text.RoundTrips)
    (permissionsOf : Uuid → Permissions) (before : List Action) (w₀ : World)
    (hbefore : run server (World.fresh permissionsOf) before = some w₀) (storeId : Uuid)
    (after : List Action) (w : World)
    (hdiscreet : DiscreetRun server storeId w₀ .waiting after)
    (hafter : watch server storeId (w₀, .waiting) after = some (w, .downloaded)) :
    NoPrivateRecords w.db storeId := by
  have hnone : LinesOwned (World.fresh permissionsOf).db := by
    intro j item hitem
    cases hitem
  obtain ⟨hd, ho⟩ := downloading_run hs hround (downloading_fresh permissionsOf) hnone hbefore
  have hwaiting : Watched server storeId w₀ .waiting := ⟨hd, ho, nofun, nofun, nofun⟩
  have hw := hwaiting.run hs hround hdiscreet hafter
  have hblank := hw.blank rfl
  constructor
  · intro table id r hfind hstore
    by_contra hcost
    exact hblank table id (showsFigure_iff.mpr ⟨r, hfind, hstore, Or.inl hcost⟩)
  · intro j item hitem hcost
    obtain ⟨sale, hsale⟩ := hw.owned j item hitem
    refine ⟨sale, hsale, fun hstore => hblank .sales item.saleId (showsFigure_iff.mpr
      ⟨sale, hsale, hstore, Or.inr ⟨j, item, ?_, hcost⟩⟩)⟩
    exact find?_heldLines_eq_some.mpr ⟨rfl, hitem, rfl⟩
  · exact fun table hwithheld => hw.forgotten table hwithheld

/-- A member of the staff. -/
def cashier : Person := ⟨⟨8⟩, some ⟨6⟩⟩

/-- The product is committed and settles, and the cashier signs in. -/
def cashierSignsIn : List Action :=
  [.commit, .commit, .signIn cashier [⟨0⟩]] ++ List.replicate 9 (.continue 0)

/-- A page that is asked for and answered. -/
def asked : List Action := [.startPull, .request 0, .answer 0 settledReads]

/-- The page is applied and its cursor written. -/
def taken : List Action := [.applyPage 0, .writeCursor 0]

/-- The owner takes profit access away, and a refresh of the account finds it
out. -/
def accessTaken : List Action :=
  [.setPermissions ⟨6⟩ ⟨true, true, false, true⟩, .refreshAccount, .accountAnswered 0 [⟨0⟩]] ++
    List.replicate 9 (.continue 0)

/-- How far a phone is, and the cost it shows for the product. -/
def costShown (s : World × Phase) : Phase × Option (Uuid × Money) :=
  (s.2, ((s.1.db.rows .products).find? ⟨2⟩).map fun r =>
    (SyncTable.products.storeId r.row, figure .products r.row))

/-- A download before the refresh and one after it: the cost is gone. -/
theorem no_private_records_rice :
    ∃ w₀ w, run riceServer (World.fresh fun _ => Permissions.ALL)
        (cashierSignsIn ++ asked ++ taken) = some w₀ ∧
      costShown (w₀, .waiting) = (.waiting, some (⟨0⟩, 40)) ∧
      watch riceServer ⟨0⟩ (w₀, .waiting) (accessTaken ++ asked ++ taken) =
        some (w, .downloaded) ∧ NoPrivateRecords w.db ⟨0⟩ := by
  have hall : (run riceServer (World.fresh fun _ => Permissions.ALL)
      (cashierSignsIn ++ asked ++ taken)).map (fun w₀ =>
        (costShown (w₀, .waiting),
          decide (DiscreetRun riceServer ⟨0⟩ w₀ .waiting (accessTaken ++ asked ++ taken)),
          (watch riceServer ⟨0⟩ (w₀, .waiting) (accessTaken ++ asked ++ taken)).map Prod.snd)) =
      some ((.waiting, some (⟨0⟩, 40)), true, some .downloaded) := by
    decide +kernel
  obtain ⟨w₀, hbefore, hw₀⟩ := Option.map_eq_some_iff.mp hall
  simp only [Prod.mk.injEq, decide_eq_true_eq] at hw₀
  obtain ⟨hshown, hdiscreet, hphase⟩ := hw₀
  obtain ⟨⟨w, phase⟩, hafter, rfl⟩ := Option.map_eq_some_iff.mp hphase
  exact ⟨w₀, w, hbefore, hshown, hafter,
    no_private_records riceServer riceHistory_stamped riceText_roundTrips
      (fun _ => Permissions.ALL) (cashierSignsIn ++ asked ++ taken) w₀ hbefore ⟨0⟩
      (accessTaken ++ asked ++ taken) w hdiscreet hafter⟩

/-- A page answered before the refresh is applied after it, and its cursor
written: the next download skips the product, and its cost stays. -/
theorem cost_kept_by_late_page :
    ∃ w₀ w, run riceServer (World.fresh fun _ => Permissions.ALL) (cashierSignsIn ++ asked) =
        some w₀ ∧
      watch riceServer ⟨0⟩ (w₀, .waiting) (accessTaken ++ taken ++ asked ++ taken) =
        some (w, .downloaded) ∧ ¬NoPrivateRecords w.db ⟨0⟩ := by
  have hall : (run riceServer (World.fresh fun _ => Permissions.ALL)
      (cashierSignsIn ++ asked)).map (fun w₀ =>
        (watch riceServer ⟨0⟩ (w₀, .waiting) (accessTaken ++ taken ++ asked ++ taken)).map
          costShown) = some (some (.downloaded, some (⟨0⟩, 40))) := by
    decide +kernel
  obtain ⟨w₀, hbefore, hw₀⟩ := Option.map_eq_some_iff.mp hall
  obtain ⟨⟨w, phase⟩, hafter, hshown⟩ := Option.map_eq_some_iff.mp hw₀
  obtain ⟨rfl, hproduct⟩ := Prod.mk.inj hshown
  obtain ⟨r, hfind, hr⟩ := Option.map_eq_some_iff.mp hproduct
  obtain ⟨hstore, hcost⟩ := Prod.mk.inj hr
  refine ⟨w₀, w, hbefore, hafter, fun hnone => ?_⟩
  have hzero := hnone.costs .products ⟨2⟩ r hfind hstore
  rw [hcost] at hzero
  exact absurd hzero (by decide)

/-- A page answered without profit access has no row of the withheld tables and
shows no cost. -/
theorem answerOf_withheld {server : Server} {w : World} {storeId : Uuid} {raw : Option String}
    {person : Person} {reads : PullReads} (hblind : (w.actorOf person).can .viewProfit = false) :
    (∀ table : SyncTable, table.withheld = true →
      (answerOf server w storeId raw person reads).pages table = []) ∧
    ∀ table : SyncTable, ∀ e ∈ (answerOf server w storeId raw person reads).pages table,
      ¬Figured table e.2
        (deliveredLines table e.1 (answerOf server w storeId raw person reads)) := by
  obtain ⟨hpages, -, hitems⟩ := @pull_received server.text server.settings storeId
    (w.actorOf person) raw
    (fun table => ⟨server.history.db (reads.seenAt table), reads.now table⟩)
    (server.history.db reads.linesAt)
  change ∀ table, (answerOf server w storeId raw person reads).pages table = _ at hpages
  change (answerOf server w storeId raw person reads).saleItems = _ at hitems
  rw [hblind] at hitems
  simp only [hblind, Bool.false_or, Bool.not_eq_true'] at hpages
  refine ⟨fun table hwithheld => ?_, fun table e he => ?_⟩
  · rw [hpages table, if_neg (by rw [hwithheld]; exact nofun)]
  · rw [hpages table] at he
    split_ifs at he
    · obtain ⟨e, -, rfl⟩ := List.mem_map.mp he
      rintro (hcost | ⟨line, hline, hcost⟩)
      · cases table <;> exact hcost rfl
      · cases table with
        | sales =>
          have hmem := (List.mem_filter.mp hline).1
          rw [hitems] at hmem
          obtain ⟨line, -, rfl⟩ := List.mem_map.mp hmem
          exact hcost rfl
        | _ => cases hline
    · cases he

end Kitaza.PrivateRecords
