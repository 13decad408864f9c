import Kitaza.DownloadCursor

/-!
# What every run of a phone's downloads keeps

One case for each thing a step can do to the rows, the cursors and the pulls of
a phone. Whatever the order of the steps, every cursor is settled, every page on
its way is what the server delivers after its pull's cursor, and every line on
the phone belongs to a sale.
-/

namespace Kitaza.DownloadSteps

open KeyedTable Primitives Access Schema SyncPull PullCompleteness PhoneStorage DownloadCursor

section

variable {server : Server} {w w' : World} {a : Action}

/-- An effect leaves the clock alone, stores no cursor and starts or moves no
pull. -/
theorem perform_pulls (effect : Effect) : (perform w effect).1.now = w.now ∧
    (∀ storeId raw, (perform w effect).1.preferences.cursors.find? storeId = some raw →
      w.preferences.cursors.find? storeId = some raw) ∧
    (w.preferences.legacyCursor = none →
      (perform w effect).1.preferences.legacyCursor = none) ∧
    ∀ p' ∈ (perform w effect).1.pulls, ∃ p ∈ w.pulls, p'.storeId = p.storeId ∧
      p'.cursor = p.cursor ∧ p'.stage = p.stage ∧ (p'.cleared = false → p.cleared = false) := by
  refine ⟨by cases effect <;> rfl, fun storeId raw hraw => ?_, fun hnone => ?_, fun p' hp' => ?_⟩
  · cases effect with
    | clearSyncCursor id => exact (Table.find?_filter_eq_some.mp hraw).1
    | _ => exact hraw
  · cases effect with
    | removeLegacyCursor => rfl
    | _ => exact hnone
  cases effect with
  | clearSyncCursor storeId =>
    obtain ⟨p, hp, rfl⟩ := List.mem_map.mp hp'
    refine ⟨p, hp, ?_⟩
    split_ifs
    · exact ⟨rfl, rfl, rfl, nofun⟩
    · exact ⟨rfl, rfl, rfl, id⟩
  | wipe =>
    obtain ⟨p, hp, rfl⟩ := List.mem_map.mp hp'
    exact ⟨p, hp, rfl, rfl, rfl, nofun⟩
  | forgetPrivateRecords table withheld storeId =>
    obtain ⟨p, hp, rfl⟩ := List.mem_map.mp hp'
    exact ⟨p, hp, rfl, rfl, rfl, id⟩
  | _ => exact ⟨p', hp', rfl, rfl, rfl, id⟩

/-- What the pulls in flight and the stored cursors are to the server, whatever
the order of the steps. -/
structure Downloading (server : Server) (w : World) : Prop where
  /-- Only old phones have the single cursor. -/
  legacy : w.preferences.legacyCursor = none
  /-- A stored cursor is settled. -/
  stored : ∀ storeId raw, w.preferences.cursors.find? storeId = some raw →
    Settled server.history w.now (server.text.decode (some raw))
  /-- The cursor a pull has reached is. -/
  reached : ∀ p ∈ w.pulls, Settled server.history w.now (server.text.decode p.cursor)
  /-- So is the one it is about to write. -/
  applied : ∀ p ∈ w.pulls, ∀ page, p.stage = .applied page →
    Settled server.history w.now (server.text.decode (some page.cursor))
  /-- A pull's cursor was settled when it asked. -/
  asked : ∀ p ∈ w.pulls, ∀ since ∈ p.stage.since?, since ≤ w.now ∧
    Settled server.history since (server.text.decode p.cursor)
  /-- The pages on their way are what the server delivers after their pulls'
  cursors. -/
  delivered : ∀ p ∈ w.pulls, ∀ since costs page, p.stage = .answered since costs page →
    ∃ seenAt linesAt, Delivery server.history p.storeId costs (server.text.decode p.cursor) since
      w.now page (server.text.decode (some page.cursor)) seenAt linesAt

/-- Nothing is on its way to a phone just set up. -/
theorem downloading_fresh (permissionsOf : Uuid → Permissions) :
    Downloading server (World.fresh permissionsOf) := by
  refine ⟨rfl, fun storeId raw hraw => ?_, ?_, ?_, ?_, ?_⟩
  · cases hraw
  all_goals exact fun _ hp => absurd hp List.not_mem_nil

/-- The cursors that count are settled. -/
theorem Downloading.settled (hd : Downloading server w) {storeId : Uuid} {cursor : SyncCursor}
    {full : Bool} (h : InPlay server.text w storeId cursor full) :
    Settled server.history w.now cursor := by
  cases h with
  | stored hraw => exact hd.stored _ _ hraw
  | reached hp _ => exact hd.reached _ hp
  | applied hp _ hstage => exact hd.applied _ hp _ hstage

/-- A step that stores no cursor and starts and moves no pull. -/
theorem Downloading.of_pulls (hd : Downloading server w) (hnow : w'.now = w.now)
    (hlegacy : w'.preferences.legacyCursor = none)
    (hcursors : ∀ storeId raw, w'.preferences.cursors.find? storeId = some raw →
      w.preferences.cursors.find? storeId = some raw)
    (hpulls : ∀ p' ∈ w'.pulls, ∃ p ∈ w.pulls, p'.storeId = p.storeId ∧ p'.cursor = p.cursor ∧
      p'.stage = p.stage) : Downloading server w' := by
  refine ⟨hlegacy, ?_, ?_, ?_, ?_, ?_⟩
  · intro storeId raw hraw
    rw [hnow]
    exact hd.stored storeId raw (hcursors storeId raw hraw)
  · intro p' hp'
    obtain ⟨p, hp, -, hcursor, -⟩ := hpulls p' hp'
    rw [hnow, hcursor]
    exact hd.reached p hp
  · intro p' hp' page hstage
    obtain ⟨p, hp, -, -, hsame⟩ := hpulls p' hp'
    rw [hnow]
    exact hd.applied p hp page (hsame ▸ hstage)
  · intro p' hp' since hsince
    obtain ⟨p, hp, -, hcursor, hsame⟩ := hpulls p' hp'
    rw [hnow, hcursor]
    exact hd.asked p hp since (hsame ▸ hsince)
  · intro p' hp' since costs page hstage
    obtain ⟨p, hp, hstore, hcursor, hsame⟩ := hpulls p' hp'
    rw [hnow, hstore, hcursor]
    exact hd.delivered p hp since costs page (hsame ▸ hstage)

theorem Downloading.commit (hd : Downloading server w) :
    Downloading server { w with now := w.now + 1 } := by
  refine ⟨hd.legacy, ?_, ?_, ?_, ?_, ?_⟩
  · exact fun storeId raw hraw => (hd.stored storeId raw hraw).mono (Nat.le_succ _)
  · exact fun p hp => (hd.reached p hp).mono (Nat.le_succ _)
  · exact fun p hp page hstage => (hd.applied p hp page hstage).mono (Nat.le_succ _)
  · intro p hp since hsince
    obtain ⟨hle, hold⟩ := hd.asked p hp since hsince
    exact ⟨hle.trans (Nat.le_succ _), hold⟩
  · intro p hp since costs page hstage
    obtain ⟨seenAt, linesAt, hpage⟩ := hd.delivered p hp since costs page hstage
    exact ⟨seenAt, linesAt, hpage.mono (Nat.le_succ _)⟩

/-- Nothing was handed over by an old phone, so a pull starts from the stored
cursor. -/
theorem Downloading.readSyncCursor (hd : Downloading server w) (storeId : Uuid) :
    w.preferences.readSyncCursor storeId =
      (w.preferences.cursors.find? storeId, w.preferences) := by
  unfold Preferences.readSyncCursor
  split
  · rename_i own hown
    rw [hown]
  · rename_i hown
    rw [hd.legacy, hown]

/-- A pull is moved to its next stage. -/
theorem Downloading.set (hd : Downloading server w) {i : ℕ} {p : Pull}
    (hreached : Settled server.history w.now (server.text.decode p.cursor))
    (happlied : ∀ page, p.stage = .applied page →
      Settled server.history w.now (server.text.decode (some page.cursor)))
    (hasked : ∀ since ∈ p.stage.since?, since ≤ w.now ∧
      Settled server.history since (server.text.decode p.cursor))
    (hdelivered : ∀ since costs page, p.stage = .answered since costs page →
      ∃ seenAt linesAt, Delivery server.history p.storeId costs (server.text.decode p.cursor)
        since w.now page (server.text.decode (some page.cursor)) seenAt linesAt) :
    Downloading server { w with pulls := w.pulls.set i p } := by
  refine ⟨hd.legacy, hd.stored, ?_, ?_, ?_, ?_⟩
  · intro q hq
    rcases List.mem_or_eq_of_mem_set hq with hq | rfl
    · exact hd.reached q hq
    · exact hreached
  · intro q hq page hstage
    rcases List.mem_or_eq_of_mem_set hq with hq | rfl
    · exact hd.applied q hq page hstage
    · exact happlied page hstage
  · intro q hq since hsince
    rcases List.mem_or_eq_of_mem_set hq with hq | rfl
    · exact hd.asked q hq since hsince
    · exact hasked since hsince
  · intro q hq since costs page hstage
    rcases List.mem_or_eq_of_mem_set hq with hq | rfl
    · exact hd.delivered q hq since costs page hstage
    · exact hdelivered since costs page hstage

theorem Downloading.start (hs : server.history.Stamped server.settings.settleWindow)
    (hd : Downloading server w) {storeId : Uuid} {full : Bool} :
    Downloading server { w with
      preferences := (w.preferences.readSyncCursor storeId).2
      pulls := w.pulls ++ [⟨storeId, (w.preferences.readSyncCursor storeId).1, .ready, false,
        false, full⟩] } := by
  rw [hd.readSyncCursor storeId]
  refine ⟨hd.legacy, hd.stored, ?_, ?_, ?_, ?_⟩
  · intro p hp
    rcases List.mem_append.mp hp with hp | hp
    · exact hd.reached p hp
    · obtain rfl := List.mem_singleton.mp hp
      dsimp only
      cases hown : w.preferences.cursors.find? storeId with
      | none => exact fun table => pastFrom_origin hs
      | some raw => exact hd.stored storeId raw hown
  · intro p hp page hstage
    rcases List.mem_append.mp hp with hp | hp
    · exact hd.applied p hp page hstage
    · obtain rfl := List.mem_singleton.mp hp
      cases hstage
  · intro p hp since hsince
    rcases List.mem_append.mp hp with hp | hp
    · exact hd.asked p hp since hsince
    · obtain rfl := List.mem_singleton.mp hp
      cases hsince
  · intro p hp since costs page hstage
    rcases List.mem_append.mp hp with hp | hp
    · exact hd.delivered p hp since costs page hstage
    · obtain rfl := List.mem_singleton.mp hp
      cases hstage

theorem Downloading.writeCursor (hd : Downloading server w) {i : ℕ} {p : Pull}
    {page : PullResponse} {pulls : List Pull} (hget : w.pulls[i]? = some p)
    (hstage : p.stage = .applied page) (hpulls : ∀ q ∈ pulls, q ∈ w.pulls ∨
      q = { p with cursor := some page.cursor, stage := .ready }) :
    Downloading server { w with
      preferences := w.preferences.writeSyncCursor p.storeId page.cursor
      pulls := pulls
      full := Function.update w.full p.storeId p.full } := by
  have hnext := hd.applied p (List.mem_of_getElem? hget) page hstage
  refine ⟨hd.legacy, ?_, ?_, ?_, ?_, ?_⟩
  · intro storeId raw hraw
    change (w.preferences.cursors.put p.storeId page.cursor).find? storeId = some raw at hraw
    rw [Table.find?_put] at hraw
    split_ifs at hraw
    · cases hraw
      exact hnext
    · exact hd.stored storeId raw hraw
  · intro q hq
    rcases hpulls q hq with hq | rfl
    · exact hd.reached q hq
    · exact hnext
  · intro q hq page' hstage'
    rcases hpulls q hq with hq | rfl
    · exact hd.applied q hq page' hstage'
    · cases hstage'
  · intro q hq since hsince
    rcases hpulls q hq with hq | rfl
    · exact hd.asked q hq since hsince
    · cases hsince
  · intro q hq since costs page' hstage'
    rcases hpulls q hq with hq | rfl
    · exact hd.delivered q hq since costs page' hstage'
    · cases hstage'

theorem Downloading.step (hs : server.history.Stamped server.settings.settleWindow)
    (hround : server.text.RoundTrips) (hd : Downloading server w) (h : Stepped server w a w') :
    Downloading server w' := by
  cases h with
  | idle _ hprefs hnow _ hpulls _ _ =>
    exact hd.of_pulls hnow (hprefs ▸ hd.legacy) (fun _ _ hraw => hprefs ▸ hraw)
      fun p hp => ⟨p, hpulls p hp, rfl, rfl, rfl⟩
  | commit => exact hd.commit
  | write _ =>
    exact hd.of_pulls rfl hd.legacy (fun _ _ hraw => hraw) fun p hp => ⟨p, hp, rfl, rfl, rfl⟩
  | uploaded =>
    exact hd.of_pulls rfl hd.legacy (fun _ _ hraw => hraw) fun p hp => ⟨p, hp, rfl, rfl, rfl⟩
  | @performed i effect rest operations hop =>
    obtain ⟨hnow, hcursors, hlegacy, hpulls⟩ := @perform_pulls w effect
    refine hd.of_pulls hnow (hlegacy hd.legacy) hcursors fun p' hp' => ?_
    obtain ⟨p, hp, hstore, hcursor, hstage, -⟩ := hpulls p' hp'
    exact ⟨p, hp, hstore, hcursor, hstage⟩
  | started _ => exact hd.start hs
  | @requested i p person hget =>
    have hreached := hd.reached p (List.mem_of_getElem? hget)
    refine hd.set hreached nofun (fun since hsince => ?_) nofun
    cases hsince
    exact ⟨le_rfl, hreached⟩
  | @answered i reads p person since hget hstage hreads =>
    have hp := List.mem_of_getElem? hget
    refine hd.set (hd.reached p hp) nofun (fun since' hsince => ?_) fun _ _ page hanswered => ?_
    · cases hsince
      exact hd.asked p hp since (by rw [hstage]; rfl)
    · cases hanswered
      exact ⟨_, _, delivery_of_answer hs hround hreads⟩
  | @applied i p since costs page hget hstage =>
    have hp := List.mem_of_getElem? hget
    obtain ⟨hpstore, hpcursor, -, -⟩ := p.overtake_eq p.storeId costs
    obtain ⟨seenAt, linesAt, hpage⟩ := hd.delivered p hp since costs page hstage
    obtain ⟨-, hold⟩ := hd.asked p hp since (by rw [hstage]; rfl)
    have hovertaken : Downloading server { w with
        db := w.db.applyPage page
        pulls := w.pulls.map (Pull.overtake p.storeId costs)
        full := Function.update w.full p.storeId (w.full p.storeId && costs) } := by
      refine hd.of_pulls rfl hd.legacy (fun _ _ hraw => hraw) fun q hq => ?_
      obtain ⟨q', hq', rfl⟩ := List.mem_map.mp hq
      obtain ⟨hstore, hcursor, hsame, -⟩ := q'.overtake_eq p.storeId costs
      exact ⟨q', hq', hstore, hcursor, hsame⟩
    refine hovertaken.set ?_ (fun page' happlied => ?_) nofun nofun
    · dsimp only
      rw [hpcursor]
      exact hd.reached p hp
    · cases happlied
      exact fun table => (hpage.past table (hold table)).mono (hpage.seen table).2
  | cursorWritten hget hstage hpulls => exact hd.writeCursor hget hstage hpulls

/-- Every line on the phone is a line of one of its sales. -/
def LinesOwned (db : LocalDb) : Prop :=
  ∀ j item, db.saleItems.find? j = some item →
    ∃ sale, (db.rows .sales).find? item.saleId = some sale

theorem LinesOwned.write {db : LocalDb} {table : SyncTable} {id : Uuid} {row : table.Row}
    {items : List (Uuid × SaleItem)} (ho : LinesOwned db) (hown : OwnLines db id items) :
    LinesOwned (db.write table id row items) := by
  have hkept : ∀ key sale, (db.rows .sales).find? key = some sale →
      ∃ sale', ((db.write table id row items).rows .sales).find? key = some sale' := by
    intro key sale hsale
    by_cases hsales : SyncTable.sales = table
    · subst hsales
      simp only [LocalDb.write, Function.update_self, Table.find?_put]
      split_ifs
      · exact ⟨_, rfl⟩
      · exact ⟨sale, hsale⟩
    · simp only [LocalDb.write, Function.update_of_ne hsales]
      exact ⟨sale, hsale⟩
  intro j item hitem
  by_cases hsales : table = .sales
  · subst hsales
    simp only [LocalDb.write, if_true] at hitem
    rcases Table.find?_putAll_cases (db.saleItems.filter fun _ item => !(item.saleId == id)) items
      j with ⟨item', hmem, hfind⟩ | ⟨-, hfind⟩
    · rw [hfind] at hitem
      cases hitem
      rw [(hown _ hmem).1]
      refine ⟨.written row (((db.rows .sales).find? id).bind LocalRow.copy), ?_⟩
      simp [LocalDb.write]
    · rw [hfind, Table.find?_filter_eq_some] at hitem
      obtain ⟨sale, hsale⟩ := ho j item hitem.1
      exact hkept _ sale hsale
  · simp only [LocalDb.write, if_neg hsales] at hitem
    obtain ⟨sale, hsale⟩ := ho j item hitem
    exact hkept _ sale hsale

theorem LinesOwned.applyPage {db : LocalDb} {h : ServerHistory} {storeId : Uuid} {costs : Bool}
    {cursor next : SyncCursor} {since now : ℕ} {page : PullResponse} {seenAt : SyncTable → ℕ}
    {linesAt : ℕ} (ho : LinesOwned db)
    (hd : Delivery h storeId costs cursor since now page next seenAt linesAt) :
    LinesOwned (db.applyPage page) := by
  intro j item hitem
  rcases hd.saleItems_applyPage db j with ⟨line, -, hid, hnew⟩ | ⟨-, hold⟩
  · rw [hnew] at hitem
    cases hitem
    obtain ⟨⟨id, r⟩, hmem, hkey⟩ := List.mem_map.mp hid
    rw [shownLine_saleId, ← hkey]
    exact ⟨_, hd.find?_applyPage hmem⟩
  · rw [hold, Option.filter_eq_some_iff] at hitem
    obtain ⟨sale, hsale⟩ := ho j item hitem.1
    by_cases hmem : ∃ r, (item.saleId, r) ∈ page.pages .sales
    · obtain ⟨r, hmem⟩ := hmem
      exact ⟨_, hd.find?_applyPage hmem⟩
    · refine ⟨sale, ?_⟩
      rw [find?_applyPage_of_notMem fun r hr => hmem ⟨r, hr⟩]
      exact hsale

theorem LinesOwned.step (ho : LinesOwned w.db) (hd : Downloading server w)
    (h : Stepped server w a w') : LinesOwned w'.db := by
  cases h with
  | idle hdb => rwa [hdb]
  | write hown => exact ho.write hown
  | @performed i effect rest operations hop =>
    change LinesOwned (perform w effect).1.db
    cases effect with
    | wipe => exact nofun
    | forgetPrivateRecords table withheld storeId =>
      intro j item hitem
      obtain ⟨sale, hsale⟩ := ho j item hitem
      have hne : SyncTable.sales ≠ table := by
        rintro rfl
        cases withheld
      refine ⟨sale, ?_⟩
      change (Function.update w.db.rows table _ .sales).find? _ = _
      rw [Function.update_of_ne hne]
      exact hsale
    | _ => exact ho
  | applied hget hstage =>
    obtain ⟨seenAt, linesAt, hpage⟩ := hd.delivered _ (List.mem_of_getElem? hget) _ _ _ hstage
    exact ho.applyPage hpage
  | _ => exact ho

/-- Any run keeps both. -/
theorem downloading_run (hs : server.history.Stamped server.settings.settleWindow)
    (hround : server.text.RoundTrips) (hd : Downloading server w) (ho : LinesOwned w.db)
    {actions : List Action} (hrun : run server w actions = some w') :
    Downloading server w' ∧ LinesOwned w'.db := by
  induction actions generalizing w with
  | nil =>
    cases hrun
    exact ⟨hd, ho⟩
  | cons a rest ih =>
    rw [DownloadCursor.run, List.foldlM_cons, Option.bind_eq_bind, Option.bind_eq_some_iff] at hrun
    obtain ⟨next, hstep, hrest⟩ := hrun
    have hstepped := stepped_of_step hstep
    exact ih (hd.step hs hround hstepped) (ho.step hd hstepped) hrest

end

end Kitaza.DownloadSteps
