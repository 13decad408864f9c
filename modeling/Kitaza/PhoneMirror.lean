import Kitaza.DownloadCursor

/-!
# A download from the beginning ends with the server's rows

A phone that is new, or whose cursor cannot be read, downloads its store from
the first row, a few pages a sync, while the server is written to and people
use the phone. Once the server's writes have settled, a bounded number of
answered requests leaves on the phone what the server has, as far as this
person may see it, and later syncs keep it so.
-/

namespace Kitaza.PhoneMirror

open KeyedTable KeysetPaging Primitives Access Schema SaleRepository SyncPull PullCompleteness
  PhoneStorage DownloadCursor

/-- One person's downloads of one store. -/
structure StoreDownload where
  /-- The server. -/
  server : Server
  /-- Who downloads. -/
  person : Person
  /-- Their switches, if they are staff. -/
  permissions : Permissions
  /-- The store. -/
  storeId : Uuid
  /-- The statements of each request that is answered. -/
  reads : ℕ → PullReads

/-- The rows on the phone, the cursor stored for the store, and for the
record how many requests were answered. -/
structure Phone where
  /-- The database. -/
  db : LocalDb
  /-- The stored cursor. -/
  cursor : Option String
  /-- The requests answered so far. -/
  answered : ℕ

/-- Pages of one sync. -/
def maxPullPages : ℕ := 200

namespace StoreDownload

/-- The server's view of the person. -/
def actor (d : StoreDownload) : Actor := (World.fresh fun _ => d.permissions).actorOf d.person

/-- Whether they are shown costs. -/
def seesCosts (d : StoreDownload) : Bool := d.actor.can .viewProfit

/-- The downloads, for the results on pages. -/
def downloads (d : StoreDownload) : Downloads :=
  ⟨d.server.history, d.server.text, d.server.settings, d.storeId, d.actor⟩

/-- The answer to the next request. -/
def response (d : StoreDownload) (phone : Phone) : PullResponse :=
  d.downloads.pull phone.cursor (d.reads phone.answered)

/-- Apply the next page and store its cursor. -/
def applyNext (d : StoreDownload) (phone : Phone) : Phone where
  db := phone.db.applyPage (d.response phone)
  cursor := some (d.response phone).cursor
  answered := phone.answered + 1

/-- Page after page until nothing is left, no more than the given number. -/
def pullChanges (d : StoreDownload) : ℕ → Phone → Phone
  | 0, phone => phone
  | pages + 1, phone =>
    if (d.response phone).hasMore then d.pullChanges pages (d.applyNext phone)
    else d.applyNext phone

end StoreDownload

/-- What happens on the phone: a sync whose connection lasts for some pages,
a record written, and a record accepted by the server. -/
inductive Action where
  | sync (reached : ℕ)
  | write (table : SyncTable) (id : Uuid) (row : table.Row) (items : List (Uuid × SaleItem))
  | uploaded (table : SyncTable) (id : Uuid)

/-- What happens next. -/
def step (d : StoreDownload) (phone : Phone) : Action → Option Phone
  | .sync reached => some (d.pullChanges (min reached maxPullPages) phone)
  | .write table id row items =>
    if OwnLines phone.db id items then
      some { phone with db := phone.db.write table id row items }
    else none
  | .uploaded table id => some { phone with db := phone.db.uploaded table id }

/-- A run of the phone. -/
def run (d : StoreDownload) (phone : Phone) (actions : List Action) : Option Phone :=
  actions.foldlM (step d) phone

/-- A row that was written stays; deleting it only marks it. -/
def KeepsRows (h : ServerHistory) : Prop :=
  ∀ (table : SyncTable) id i, ((table.rows (h.db i)).find? id).isSome = true →
    ((table.rows (h.db (i + 1))).find? id).isSome = true

/-- Requests follow each other: each is sent once the one before was
answered. -/
def InTurn (d : StoreDownload) (sentAt : ℕ → ℕ) : Prop :=
  ∀ n, ReadsBetween d.server (sentAt n) (sentAt (n + 1)) (d.reads n)

/-- Every copy of the store's rows is of a row the server had by a moment. -/
def Copies (d : StoreDownload) (now : ℕ) (db : LocalDb) : Prop :=
  ∀ (table : SyncTable) id copy, (db.rows table).find? id = some (.pulled copy) →
    table.storeId copy = d.storeId →
    ∃ i row, i ≤ now ∧ (table.rows (d.server.history.db i)).find? id = some row ∧
      table.storeId row = d.storeId

/-- The phone has what the server has of the store, as far as this person is
shown it; what was written on the phone since stands over it. -/
structure Mirrors (d : StoreDownload) (committed : Db) (db : LocalDb) : Prop where
  /-- Every row is there, a sale with its lines. -/
  present : ∀ (table : SyncTable) id row, (table.rows committed).find? id = some row →
    table.storeId row = d.storeId → (table.withheld = true → d.seesCosts = true) →
    Present db committed d.seesCosts table id row
  /-- Every copy is current. -/
  current : ∀ (table : SyncTable) id copy, (db.rows table).find? id = some (.pulled copy) →
    table.storeId copy = d.storeId → (table.withheld = true → d.seesCosts = true) →
    ∃ row, (table.rows committed).find? id = some row ∧ table.storeId row = d.storeId ∧
      shown d.seesCosts table copy = shown d.seesCosts table row

/-- The rows of all tables. -/
def rowCount (committed : Db) : ℕ := ∑ table : SyncTable, (table.rows committed).ids.card

/-- The cursor has passed every row the person is shown. -/
def Finished (d : StoreDownload) (final : ℕ) (cursor : SyncCursor) : Prop :=
  ∀ (table : SyncTable) id row,
    (table.rows (d.server.history.db final)).find? id = some row → table.storeId row = d.storeId →
    (table.withheld = true → d.seesCosts = true) → table.key id row ≤ cursor.mark table

/-- Rows that stay are there later. -/
theorem KeepsRows.le {h : ServerHistory} (hk : KeepsRows h) {table : SyncTable} {id : Uuid}
    {i j : ℕ} (hij : i ≤ j) (hsome : ((table.rows (h.db i)).find? id).isSome = true) :
    ((table.rows (h.db j)).find? id).isSome = true := by
  induction j, hij using Nat.le_induction with
  | base => exact hsome
  | succ j _ ih => exact hk table id j ih

section

variable {d : StoreDownload} {final settledFrom : ℕ} {sentAt : ℕ → ℕ} {phone phone' : Phone}

/-- The cursor of a phone. -/
abbrev Phone.position (d : StoreDownload) (phone : Phone) : SyncCursor :=
  d.server.text.decode phone.cursor

/-- A page delivers what lies between two cursors. -/
theorem delivery_response (hs : d.server.history.Stamped d.server.settings.settleWindow)
    (hround : d.server.text.RoundTrips) (hturn : InTurn d sentAt) (phone : Phone) :
    Delivery d.server.history d.storeId d.seesCosts (phone.position d) (sentAt phone.answered)
      (sentAt (phone.answered + 1)) (d.response phone) ((d.applyNext phone).position d)
      (d.reads phone.answered).seenAt (d.reads phone.answered).linesAt := by
  exact @delivery_of_answer d.server
    { World.fresh (fun _ => d.permissions) with now := sentAt (phone.answered + 1) } d.storeId
    phone.cursor d.person (d.reads phone.answered) (sentAt phone.answered) hs hround
    (hturn phone.answered)

/-- What holds of a phone after every step: its cursor is settled, it has what
the cursor is past, and its copies are the server's. -/
structure Invariant (d : StoreDownload) (sentAt : ℕ → ℕ) (phone : Phone) : Prop where
  /-- The cursor is settled. -/
  settled : Settled d.server.history (sentAt phone.answered) (phone.position d)
  /-- What it is past is on the phone, now and later. -/
  covers : ∀ now, sentAt phone.answered ≤ now →
    Covers d.server.history now phone.db d.storeId (phone.position d) d.seesCosts
  /-- Copies are of the server's rows. -/
  copies : Copies d (sentAt phone.answered) phone.db

/-- Applying a page keeps the invariant. -/
theorem Invariant.applyNext (hs : d.server.history.Stamped d.server.settings.settleWindow)
    (hround : d.server.text.RoundTrips) (hone : KeepsStores d.server.history)
    (hturn : InTurn d sentAt) (hi : Invariant d sentAt phone) :
    Invariant d sentAt (d.applyNext phone) := by
  have hd := delivery_response hs hround hturn phone
  have hlater : sentAt phone.answered ≤ sentAt (phone.answered + 1) :=
    (hd.seen .sales).1.trans (hd.seen .sales).2
  refine ⟨?_, ?_, ?_⟩
  · intro table
    exact (hd.past table (hi.settled table)).mono (hd.seen table).2
  · intro now hnow
    exact (hd.mono hnow).covers_next hone id (hi.covers now (hlater.trans hnow)) hi.settled
  · intro table id copy hcopy hstore
    by_cases hmem : ∃ r, (id, r) ∈ (d.response phone).pages table
    · obtain ⟨r, hmem⟩ := hmem
      obtain ⟨row, hrow, hof, -⟩ := hd.row table id r hmem
      exact ⟨_, row, (hd.seen table).2, hrow, hof⟩
    · have hkept : ((d.applyNext phone).db.rows table).find? id =
          (phone.db.rows table).find? id :=
        find?_applyPage_of_notMem fun r hr => hmem ⟨r, hr⟩
      rw [hkept] at hcopy
      obtain ⟨i, row, hle, hrow⟩ := hi.copies table id copy hcopy hstore
      exact ⟨i, row, hle.trans hlater, hrow⟩

/-- A write on the phone keeps the invariant. -/
theorem Invariant.write (hi : Invariant d sentAt phone) {table : SyncTable} {id : Uuid}
    {row : table.Row} {items : List (Uuid × SaleItem)} (hown : OwnLines phone.db id items) :
    Invariant d sentAt { phone with db := phone.db.write table id row items } := by
  refine ⟨hi.settled, ?_, ?_⟩
  · intro now hnow other key r hp hw
    exact (hi.covers now hnow other key r hp hw).write hown
  · intro other key copy hcopy hstore
    apply hi.copies other key copy _ hstore
    by_cases ht : other = table
    · subst ht
      simp only [LocalDb.write, Function.update_self, Table.find?_put] at hcopy
      split_ifs at hcopy with hk
      · cases hcopy
      · exact hcopy
    · simpa [LocalDb.write, ht] using hcopy

/-- Taking a record out of the outbox keeps the invariant. -/
theorem Invariant.uploaded (hi : Invariant d sentAt phone) (table : SyncTable) (id : Uuid) :
    Invariant d sentAt { phone with db := phone.db.uploaded table id } := by
  refine ⟨hi.settled, ?_, hi.copies⟩
  intro now hnow other key row hp hw
  have hlines : heldLines other key (phone.db.uploaded table id) =
      heldLines other key phone.db := by
    cases other <;> rfl
  have hpresent := hi.covers now hnow other key row hp hw
  rw [Present, ← hlines] at hpresent
  exact hpresent

/-- How far the download is: finished, or fewer rows are left the more late
requests were answered. -/
def Progress (d : StoreDownload) (final settledFrom : ℕ) (phone : Phone) : Prop :=
  Finished d final (phone.position d) ∨
    left d.downloads final (phone.position d) + (phone.answered - settledFrom) ≤
      rowCount (d.server.history.db final)

/-- At first, no more is left than there is. -/
theorem left_le (cursor : SyncCursor) :
    left d.downloads final cursor ≤ rowCount (d.server.history.db final) := by
  apply Finset.sum_le_sum
  intro table _
  apply Finset.card_le_card
  intro id hid
  obtain ⟨row, hrow, -⟩ := mem_past.mp hid
  rw [Table.mem_ids, Option.isSome_iff_exists]
  exact ⟨row, hrow⟩

/-- The mark of a table they are shown moves to the end of its page, the
others stay. -/
theorem mark_applyNext (hround : d.server.text.RoundTrips) (table : SyncTable) :
    ((d.applyNext phone).position d).mark table =
      if d.seesCosts || !table.withheld then nextMark table.key ((phone.position d).mark table)
        (d.downloads.pageOf phone.cursor (d.reads phone.answered) table)
      else (phone.position d).mark table := by
  obtain ⟨-, ⟨next, hnext, hmark⟩, -⟩ := @pull_received d.server.text d.server.settings d.storeId
    d.actor phone.cursor (fun table => ⟨d.server.history.db
      ((d.reads phone.answered).seenAt table), (d.reads phone.answered).now table⟩)
    (d.server.history.db (d.reads phone.answered).linesAt)
  have hcursor : (d.response phone).cursor = d.server.text.encode next := hnext
  have hposition : (d.applyNext phone).position d = next := by
    rw [Phone.position, StoreDownload.applyNext, hcursor, hround.decode_encode]
  rw [hposition]
  exact hmark table

/-- No mark falls back. -/
theorem mark_le_applyNext (hround : d.server.text.RoundTrips) (table : SyncTable) :
    (phone.position d).mark table ≤ ((d.applyNext phone).position d).mark table := by
  rw [mark_applyNext hround]
  split_ifs
  · exact mark_le_nextMark
  · exact le_rfl

/-- There is more when the page of a table they are shown was full. -/
theorem hasMore_response : (d.response phone).hasMore = true ↔
    ∃ table : SyncTable, (d.seesCosts || !table.withheld) = true ∧ d.server.settings.pageSize ≤
      (d.downloads.pageOf phone.cursor (d.reads phone.answered) table).length :=
  @hasMore_received d.server.text d.server.settings d.storeId d.actor phone.cursor
    (fun table => ⟨d.server.history.db ((d.reads phone.answered).seenAt table),
      (d.reads phone.answered).now table⟩)
    (d.server.history.db (d.reads phone.answered).linesAt)

theorem shown_of_withheld {sees withheld : Bool} (h : withheld = true → sees = true) :
    (sees || !withheld) = true := by
  cases withheld with
  | false => exact Bool.or_true sees
  | true => rw [h rfl, Bool.true_or]

/-- A late page without a full table is the last. -/
theorem finished_applyNext (hround : d.server.text.RoundTrips)
    (hquiet : ∀ j, final ≤ j → d.server.history.db j = d.server.history.db final)
    (hr : PullCompleteness.Settled d.downloads final (d.reads phone.answered))
    (hmore : (d.response phone).hasMore = false) :
    Finished d final ((d.applyNext phone).position d) := by
  intro table id row hrow hstore hw
  have hshown := shown_of_withheld hw
  rw [mark_applyNext hround, if_pos hshown]
  have hnow : (table.rows (d.server.history.db
      ((d.reads phone.answered).seenAt table))).find? id = some row := by
    rw [hquiet _ (hr.at_le table), hrow]
  by_contra hlt
  rw [not_le] at hlt
  have hready : ready d.server.settings table d.storeId ((d.reads phone.answered).now table) id
      row = true := by
    have hgt := hr.now_gt table id row hrow
    rw [ready, Bool.and_eq_true, decide_eq_true_iff, beq_iff_eq]
    exact ⟨hstore, lt_sub_iff_add_lt.mpr hgt⟩
  by_cases hmem : (id, row) ∈ d.downloads.pageOf phone.cursor (d.reads phone.answered) table
  · exact absurd (key_le_nextMark hmem) hlt.not_ge
  · have hlen := (full_of_notMem_page hnow (mark_le_nextMark.trans_lt hlt) hready hmem).1
    have htrue : (d.response phone).hasMore = true :=
      hasMore_response.mpr ⟨table, hshown, hlen.ge⟩
    rw [hmore] at htrue
    cases htrue

/-- A late page with a full table leaves fewer rows. -/
theorem left_applyNext_lt (hround : d.server.text.RoundTrips)
    (hsize : 1 ≤ d.server.settings.pageSize)
    (hquiet : ∀ j, final ≤ j → d.server.history.db j = d.server.history.db final)
    (hr : PullCompleteness.Settled d.downloads final (d.reads phone.answered))
    (hmore : (d.response phone).hasMore = true) :
    left d.downloads final ((d.applyNext phone).position d) <
      left d.downloads final (phone.position d) := by
  obtain ⟨table, hshown, hlen⟩ := hasMore_response.mp hmore
  apply Finset.sum_lt_sum
  · intro other _
    exact remaining_anti (mark_le_applyNext hround other)
  · refine ⟨table, Finset.mem_univ _, ?_⟩
    have hpage : d.downloads.pageOf phone.cursor (d.reads phone.answered) table =
        page (table.rows (d.server.history.db final)) table.key
          (ready d.server.settings table d.storeId ((d.reads phone.answered).now table))
          ((phone.position d).mark table) d.server.settings.pageSize := by
      rw [← hquiet _ (hr.at_le table)]
      rfl
    rw [mark_applyNext hround, if_pos hshown, hpage]
    apply remaining_nextMark_lt
    intro hnil
    have hzero := hsize.trans hlen
    rw [hpage] at hzero
    exact absurd (hzero.trans_eq (List.length_eq_zero_iff.mpr hnil)) (Nat.not_succ_le_zero 0)

/-- A page never sets the download back, and a late one takes it further. -/
theorem Progress.applyNext (hround : d.server.text.RoundTrips)
    (hsize : 1 ≤ d.server.settings.pageSize)
    (hquiet : ∀ j, final ≤ j → d.server.history.db j = d.server.history.db final)
    (hlate : ∀ n, settledFrom ≤ n → PullCompleteness.Settled d.downloads final (d.reads n))
    (hp : Progress d final settledFrom phone) :
    Progress d final settledFrom (d.applyNext phone) := by
  rcases hp with hdone | hleft
  · left
    intro table id row hrow hstore hw
    exact (hdone table id row hrow hstore hw).trans (mark_le_applyNext hround table)
  · by_cases hn : settledFrom ≤ phone.answered
    · cases hmore : (d.response phone).hasMore with
      | false => exact Or.inl (finished_applyNext hround hquiet (hlate _ hn) hmore)
      | true =>
        have hless := left_applyNext_lt hround hsize hquiet (hlate _ hn) hmore
        right
        change _ + (phone.answered + 1 - settledFrom) ≤ _
        omega
    · -- nothing is asked of the early pages but not to fall back
      have hzero : phone.answered + 1 - settledFrom = 0 := by omega
      right
      change _ + (phone.answered + 1 - settledFrom) ≤ _
      rw [hzero, Nat.add_zero]
      exact left_le _

/-- What one page keeps, a sync keeps. -/
theorem pullChanges_induct {motive : Phone → Prop}
    (hpage : ∀ phone, motive phone → motive (d.applyNext phone)) (pages : ℕ) (phone : Phone)
    (h : motive phone) : motive (d.pullChanges pages phone) := by
  induction pages generalizing phone with
  | zero => exact h
  | succ pages ih =>
    rw [StoreDownload.pullChanges]
    split_ifs
    · exact ih _ (hpage phone h)
    · exact hpage phone h

/-- A step keeps the invariant and the progress. -/
theorem step_keeps (hs : d.server.history.Stamped d.server.settings.settleWindow)
    (hround : d.server.text.RoundTrips) (hone : KeepsStores d.server.history)
    (hsize : 1 ≤ d.server.settings.pageSize)
    (hquiet : ∀ j, final ≤ j → d.server.history.db j = d.server.history.db final)
    (hturn : InTurn d sentAt)
    (hlate : ∀ n, settledFrom ≤ n → PullCompleteness.Settled d.downloads final (d.reads n))
    {a : Action} (hstep : step d phone a = some phone') (hi : Invariant d sentAt phone)
    (hp : Progress d final settledFrom phone) :
    Invariant d sentAt phone' ∧ Progress d final settledFrom phone' := by
  cases a with
  | sync reached =>
    cases hstep
    apply @pullChanges_induct d fun phone =>
      Invariant d sentAt phone ∧ Progress d final settledFrom phone
    · rintro phone ⟨hi, hp⟩
      exact ⟨hi.applyNext hs hround hone hturn, hp.applyNext hround hsize hquiet hlate⟩
    · exact ⟨hi, hp⟩
  | write table id row items =>
    rw [step] at hstep
    split_ifs at hstep with hown
    cases hstep
    exact ⟨hi.write hown, hp⟩
  | uploaded table id =>
    cases hstep
    exact ⟨hi.uploaded table id, hp⟩

/-- A run keeps the invariant and the progress. -/
theorem run_keeps (hs : d.server.history.Stamped d.server.settings.settleWindow)
    (hround : d.server.text.RoundTrips) (hone : KeepsStores d.server.history)
    (hsize : 1 ≤ d.server.settings.pageSize)
    (hquiet : ∀ j, final ≤ j → d.server.history.db j = d.server.history.db final)
    (hturn : InTurn d sentAt)
    (hlate : ∀ n, settledFrom ≤ n → PullCompleteness.Settled d.downloads final (d.reads n))
    {actions : List Action} (hrun : run d phone actions = some phone')
    (hi : Invariant d sentAt phone) (hp : Progress d final settledFrom phone) :
    Invariant d sentAt phone' ∧ Progress d final settledFrom phone' := by
  induction actions generalizing phone with
  | nil =>
    cases hrun
    exact ⟨hi, hp⟩
  | cons a rest ih =>
    rw [run, List.foldlM_cons, Option.bind_eq_bind, Option.bind_eq_some_iff] at hrun
    obtain ⟨next, hnext, hrest⟩ := hrun
    obtain ⟨hi', hp'⟩ := step_keeps hs hround hone hsize hquiet hturn hlate hnext hi hp
    exact ih hrest hi' hp'

/-- A phone that starts over keeps the invariant from the first. -/
theorem invariant_start (hs : d.server.history.Stamped d.server.settings.settleWindow)
    (hstart : phone.position d = SyncCursor.default)
    (hcopies : Copies d (sentAt phone.answered) phone.db) : Invariant d sentAt phone := by
  refine ⟨?_, ?_, hcopies⟩
  · intro table
    rw [hstart]
    exact pastFrom_origin hs
  · intro now _ table id row hpassed _
    exfalso
    rw [hstart] at hpassed
    apply hpassed.2.2.not_gt
    rw [TableMark.lt_iff]
    exact Or.inl (hs.afterEpoch table id now row hpassed.1)

/-- A finished download mirrors the server. -/
theorem Invariant.mirrors (hi : Invariant d sentAt phone) (hkept : KeepsRows d.server.history)
    (hone : KeepsStores d.server.history)
    (hquiet : ∀ j, final ≤ j → d.server.history.db j = d.server.history.db final)
    (hdone : Finished d final (phone.position d)) :
    Mirrors d (d.server.history.db final) phone.db := by
  have hnow : d.server.history.db (max final (sentAt phone.answered)) =
      d.server.history.db final := hquiet _ (le_max_left _ _)
  have hpresent : ∀ (table : SyncTable) id row,
      (table.rows (d.server.history.db final)).find? id = some row →
      table.storeId row = d.storeId → (table.withheld = true → d.seesCosts = true) →
      Present phone.db (d.server.history.db final) d.seesCosts table id row := by
    intro table id row hrow hstore hw
    have hcovers := hi.covers (max final (sentAt phone.answered)) (le_max_right _ _) table id row
    rw [Passed, hnow] at hcovers
    exact hcovers ⟨hrow, hstore, hdone table id row hrow hstore hw⟩ hw
  refine ⟨hpresent, ?_⟩
  intro table id copy hcopy hstore hw
  obtain ⟨i, old, hle, hold, hof⟩ := hi.copies table id copy hcopy hstore
  have hthere := hkept.le (hle.trans (le_max_right final _)) (Option.isSome_of_eq_some hold)
  rw [hnow, Option.isSome_iff_exists] at hthere
  obtain ⟨row, hrow⟩ := hthere
  have hrowStore : table.storeId row = d.storeId :=
    (hone.row table id _ _ _ _ hrow hold).trans hof
  refine ⟨row, hrow, hrowStore, ?_⟩
  rcases hpresent table id row hrow hrowStore hw with ⟨mine, _, hmine, -⟩ | ⟨c, hc, hshown, -⟩
  · rw [hcopy] at hmine
    cases hmine
  · rw [hcopy] at hc
    cases hc
    exact hshown

end

/-- Starting over is slow but never wrong: a phone without a readable cursor
that syncs while the server is written to and while records are written on
the phone has, once the server's writes have settled and one more further
request than the server has rows was answered, every row of the store this
person is shown, every sale with the server's lines, and no copy that is out
of date. -/
theorem starting_over_mirrors (d : StoreDownload)
    (hs : d.server.history.Stamped d.server.settings.settleWindow)
    (hround : d.server.text.RoundTrips) (hone : KeepsStores d.server.history)
    (hkept : KeepsRows d.server.history) (hsize : 1 ≤ d.server.settings.pageSize) (final : ℕ)
    (hquiet : ∀ j, final ≤ j → d.server.history.db j = d.server.history.db final)
    (sentAt : ℕ → ℕ) (hturn : InTurn d sentAt) (settledFrom : ℕ)
    (hlate : ∀ n, settledFrom ≤ n → PullCompleteness.Settled d.downloads final (d.reads n))
    (phone : Phone) (hstart : phone.position d = SyncCursor.default) (hnone : phone.answered = 0)
    (hcopies : Copies d (sentAt 0) phone.db) (actions : List Action) (phone' : Phone)
    (hrun : run d phone actions = some phone')
    (henough : settledFrom + rowCount (d.server.history.db final) < phone'.answered) :
    Mirrors d (d.server.history.db final) phone'.db := by
  have hi := invariant_start hs hstart (by rw [hnone]; exact hcopies)
  have hp : Progress d final settledFrom phone := by
    right
    rw [hnone, Nat.zero_sub, Nat.add_zero]
    exact left_le _
  obtain ⟨hi', hp'⟩ := run_keeps hs hround hone hsize hquiet hturn hlate hrun hi hp
  apply hi'.mirrors hkept hone hquiet
  rcases hp' with hdone | hleft
  · exact hdone
  · exfalso
    omega

/-- The owner's downloads of the store with one product, each request sent
and answered after the product has settled. -/
def riceDownload : StoreDownload :=
  ⟨riceServer, riceOwner, Permissions.ALL, ⟨0⟩, fun _ => settledReads⟩

/-- A new phone. -/
def newPhone : Phone := ⟨LocalDb.empty, none, 0⟩

/-- Two syncs, and a withdrawal recorded between them. -/
def twoSyncs : List Action :=
  [.sync 1, .write .withdrawals ⟨3⟩ ⟨⟨0⟩, 100, none, 0, 0, none⟩ [], .sync 5]

theorem starting_over_mirrors_rice :
    ∃ phone, run riceDownload newPhone twoSyncs = some phone ∧
      ((phone.db.rows .products).find? ⟨2⟩).isSome = true ∧
      Mirrors riceDownload (riceHistory.db 1) phone.db := by
  have hglance : (run riceDownload newPhone twoSyncs).map
      (fun phone => (phone.answered, ((phone.db.rows .products).find? ⟨2⟩).isSome)) =
        some (2, true) := by
    decide +kernel
  obtain ⟨phone, hrun, hphone⟩ := Option.map_eq_some_iff.mp hglance
  obtain ⟨hanswered, hsome⟩ := Prod.mk.inj hphone
  refine ⟨phone, hrun, hsome, ?_⟩
  refine starting_over_mirrors riceDownload riceHistory_stamped riceText_roundTrips
    riceHistory_keepsStores ?_ (by decide) 1 ?_ (fun _ => 2) ?_ 0 ?_ newPhone rfl rfl ?_ twoSyncs phone hrun ?_
  · intro table id i hi
    by_cases hzero : i = 0
    · subst hzero
      cases table <;> cases hi
    · simpa [riceDownload, riceServer, riceHistory, hzero] using hi
  · intro j hj
    simp [riceDownload, riceServer, riceHistory, Nat.one_le_iff_ne_zero.mp hj]
  · intro n
    exact (by decide : ReadsBetween riceServer 2 2 settledReads)
  · intro n _
    constructor
    · intro table
      exact Nat.le_succ 1
    · intro table id row h
      rw [riceHistory_updatedAt h]
      change (8000000 : ℤ) + 2000000 < 11000000
      decide
  · intro table id copy hcopy
    cases hcopy
  · rw [hanswered]
    decide +kernel

end Kitaza.PhoneMirror
