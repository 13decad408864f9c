import Mathlib.Algebra.Order.BigOperators.Group.Finset
import Mathlib.Logic.Equiv.List
import Mathlib.Order.Monotone.Basic
import Mathlib.Data.Int.ConditionallyCompleteOrder
import Kitaza.SyncPull

/-!
# A pull skips no row

The server's committed state changes while a device pages through it. A
version may become visible after rows with later stamps, but no later than
the settle window after its own; the pages stay that far behind the clock.
So a version still to come lies past every mark handed out, and once the
writes stop the last pages deliver it.
-/

namespace Kitaza.PullCompleteness

open KeyedTable KeysetPaging Primitives Access Schema SaleRepository SyncPull

/-- The committed state at successive moments, and the clock at each. Any
number of moments may pass without a write. -/
structure ServerHistory where
  /-- The clock. -/
  clock : ℕ → Timestamp
  /-- What a snapshot taken then sees. -/
  db : ℕ → Db

/-- The lines that belong to a row; only sales have any. -/
def lines : SyncTable → Uuid → Db → Table Uuid SaleItem
  | .sales, id, db => linesFor id db
  | _, _, _ => Table.empty

/-- A version of a row, or of its lines, is stamped no more than the window
before its commit becomes visible. -/
structure ServerHistory.Stamped (h : ServerHistory) (window : ℤ) : Prop where
  /-- The clock does not run back. -/
  monotone : Monotone h.clock
  /-- A version that has just become visible is stamped recently. -/
  stamped : ∀ (table : SyncTable) id i row, (table.rows (h.db (i + 1))).find? id = some row →
    (table.rows (h.db i)).find? id ≠ some row ∨
      lines table id (h.db i) ≠ lines table id (h.db (i + 1)) →
    h.clock (i + 1) ≤ table.updatedAt row + window
  /-- Stamps are readings of a clock set past the epoch. -/
  afterEpoch : ∀ (table : SyncTable) id i row, (table.rows (h.db i)).find? id = some row →
    0 < table.updatedAt row

/-- When the statements of one pull run: the snapshot each table's page is
read from, its `now()`, and the snapshot the lines are read from. -/
structure PullReads where
  /-- The snapshot of each table. -/
  seenAt : SyncTable → ℕ
  /-- The instant each statement began. -/
  now : SyncTable → Timestamp
  /-- The snapshot of the lines. -/
  linesAt : ℕ

/-- A statement begins no later than its snapshot, and the lines are read
after the sales. -/
def PullReads.InOrder (r : PullReads) (h : ServerHistory) : Prop :=
  (∀ table, r.now table ≤ h.clock (r.seenAt table)) ∧ r.seenAt .sales ≤ r.linesAt

/-- One pull reads before another. -/
def PullReads.Before (a b : PullReads) : Prop := ∀ table, a.seenAt table ≤ b.seenAt table

/-- The downloads of one device from one server. -/
structure Downloads where
  /-- What the server committed, and when. -/
  history : ServerHistory
  /-- How cursors are written. -/
  text : CursorText
  /-- What the server is set up with. -/
  settings : SyncSettings
  /-- The store. -/
  storeId : Uuid
  /-- Who pulls. -/
  actor : Actor

namespace Downloads

/-- One pull. -/
def pull (d : Downloads) (raw : Option String) (r : PullReads) : PullResponse :=
  SyncPull.pull d.text d.settings d.storeId d.actor raw
    (fun table => ⟨d.history.db (r.seenAt table), r.now table⟩) (d.history.db r.linesAt)

/-- Pulls in a row, each with the cursor of the one before. -/
def pulls (d : Downloads) : Option String → List PullReads → List PullResponse
  | _, [] => []
  | raw, r :: rest => d.pull raw r :: d.pulls (some (d.pull raw r).cursor) rest

/-- The cursor the device is left with. -/
def cursorAfter (d : Downloads) : Option String → List PullReads → Option String
  | raw, [] => raw
  | raw, r :: rest => d.cursorAfter (some (d.pull raw r).cursor) rest

/-- Pull until nothing is left, for as many rounds as the fuel lasts. -/
def repeatPull (d : Downloads) (reads : ℕ → PullReads) :
    ℕ → ℕ → Option String → Option (List PullResponse)
  | 0, _, _ => none
  | fuel + 1, n, raw =>
    if (d.pull raw (reads n)).hasMore then
      (d.repeatPull reads fuel (n + 1) (some (d.pull raw (reads n)).cursor)).map
        (d.pull raw (reads n) :: ·)
    else some [d.pull raw (reads n)]

end Downloads

/-- The lines a response delivers for a row. -/
def deliveredLines : SyncTable → Uuid → PullResponse → List (Uuid × SaleItem)
  | .sales, id, response => response.saleItems.filter fun e => e.2.saleId == id
  | _, _, _ => []

/-- The version of a row a response delivers, with its lines. -/
def delivered (table : SyncTable) (id : Uuid) (response : PullResponse) :
    Option (table.Row × List (Uuid × SaleItem)) :=
  ((response.pages table).find? fun e => e.1 == id).map fun e =>
    (e.2, deliveredLines table id response)

/-- The last version of a row that was delivered. -/
def lastDelivered (table : SyncTable) (id : Uuid) (responses : List PullResponse) :
    Option (table.Row × List (Uuid × SaleItem)) :=
  responses.reverse.findSome? (delivered table id)

/-- The last delivered version of a row is the given one. -/
def HasVersion (db : Db) (table : SyncTable) (id : Uuid) (row : table.Row)
    (responses : List PullResponse) : Prop :=
  ∃ items, lastDelivered table id responses = some (row, items) ∧
    ∀ j item, (j, item) ∈ items ↔ (lines table id db).find? j = some item

/-- Every row of the store was delivered in its final version, and every
sale with its final lines. -/
def Complete (d : Downloads) (final : ℕ) (responses : List PullResponse) : Prop :=
  ∀ (table : SyncTable) id row, (table.rows (d.history.db final)).find? id = some row →
    table.storeId row = d.storeId → HasVersion (d.history.db final) table id row responses

/-- A pull after the last write has settled. -/
structure Settled (d : Downloads) (final : ℕ) (r : PullReads) : Prop where
  /-- It sees the final rows. -/
  at_le : ∀ table, final ≤ r.seenAt table
  /-- The settle window has passed for them. -/
  now_gt : ∀ (table : SyncTable) id row, (table.rows (d.history.db final)).find? id = some row →
    table.updatedAt row + d.settings.settleWindow < r.now table

/-- From a moment on a row and its lines are what they are in the end. -/
def SettledBy (h : ServerHistory) (final : ℕ) (table : SyncTable) (id : Uuid) (i : ℕ) : Prop :=
  ∀ j, i ≤ j → (table.rows (h.db j)).find? id = (table.rows (h.db final)).find? id ∧
    lines table id (h.db j) = lines table id (h.db final)

theorem SettledBy.mono {h : ServerHistory} {final : ℕ} {table : SyncTable} {id : Uuid} {i j : ℕ}
    (hs : SettledBy h final table id i) (hij : i ≤ j) : SettledBy h final table id j :=
  fun k hk => hs k (hij.trans hk)

/-- Where a final version is still to come, the clock has not passed its
stamp by more than the window. -/
theorem ServerHistory.Stamped.clock_le {h : ServerHistory} {window : ℤ} (hs : h.Stamped window)
    {final : ℕ} (hquiet : ∀ j, final ≤ j → h.db j = h.db final) {table : SyncTable} {id : Uuid}
    {row : table.Row} (hrow : (table.rows (h.db final)).find? id = some row) {i : ℕ}
    (hn : ¬SettledBy h final table id i) : h.clock i ≤ table.updatedAt row + window := by
  -- the last moment at which the row or its lines differ from the final ones
  obtain ⟨j, hij, hj, hlast⟩ : ∃ j, i ≤ j ∧
      ¬((table.rows (h.db j)).find? id = (table.rows (h.db final)).find? id ∧
        lines table id (h.db j) = lines table id (h.db final)) ∧
      ((table.rows (h.db (j + 1))).find? id = (table.rows (h.db final)).find? id ∧
        lines table id (h.db (j + 1)) = lines table id (h.db final)) := by
    by_contra hnone
    simp only [SettledBy, not_forall] at hn
    obtain ⟨j₀, hj₀, hdiff⟩ := hn
    have hall : ∀ k, ¬((table.rows (h.db (j₀ + k))).find? id = (table.rows (h.db final)).find? id ∧
        lines table id (h.db (j₀ + k)) = lines table id (h.db final)) := by
      intro k
      induction k with
      | zero => exact hdiff
      | succ k ih =>
        intro hlast
        exact hnone ⟨j₀ + k, by omega, ih, hlast⟩
    apply hall final
    rw [hquiet (j₀ + final) (by omega)]
    exact ⟨rfl, rfl⟩
  have hchanged : (table.rows (h.db j)).find? id ≠ some row ∨
      lines table id (h.db j) ≠ lines table id (h.db (j + 1)) := by
    rw [hlast.2, ← hrow]
    by_contra hsame
    rw [not_or, not_not, not_not] at hsame
    exact hj hsame
  exact (hs.monotone (by omega)).trans
    (hs.stamped table id j row (by rw [hlast.1, hrow]) hchanged)

section

variable {table : SyncTable} {id : Uuid}

/-- The last delivery, after one more response. -/
theorem lastDelivered_concat (responses : List PullResponse) (response : PullResponse) :
    lastDelivered table id (responses ++ [response]) =
      (delivered table id response).or (lastDelivered table id responses) := by
  rw [lastDelivered, List.reverse_concat, List.findSome?_cons]
  cases delivered table id response <;> rfl

/-- A row that is not on a page was not delivered with it. -/
theorem delivered_eq_none {response : PullResponse}
    (h : ∀ row, (id, row) ∉ response.pages table) : delivered table id response = none := by
  rw [delivered, Option.map_eq_none_iff, List.find?_eq_none]
  rintro ⟨k, row⟩ he hk
  exact h row ((beq_iff_eq.mp hk) ▸ he)

end

/-- The paging key of a row determines the row's identifier. -/
theorem key_injective {table : SyncTable} {id j : Uuid} {row s : table.Row}
    (h : table.key j s = table.key id row) : j = id := congrArg TableMark.id h

/-- What the pulls so far have achieved for a row's final version: it was
delivered and its mark is past it, or the mark is still short of it. -/
def Progress (d : Downloads) (final : ℕ) (cursor : SyncCursor) (pos : SyncTable → ℕ)
    (responses : List PullResponse) : Prop :=
  ∀ (table : SyncTable) id row, (table.rows (d.history.db final)).find? id = some row →
    table.storeId row = d.storeId →
    (SettledBy d.history final table id (pos table) ∧ table.key id row ≤ cursor.mark table ∧
      HasVersion (d.history.db final) table id row responses) ∨
    cursor.mark table < table.key id row

/-- A device that has nothing is short of every row. -/
theorem progress_nil {d : Downloads} {final : ℕ} (hs : d.history.Stamped d.settings.settleWindow) :
    Progress d final SyncCursor.default (fun _ => 0) [] := by
  intro table id row hrow _
  right
  rw [TableMark.lt_iff]
  exact Or.inl (hs.afterEpoch table id final row hrow)

section

variable {d : Downloads} {final : ℕ} {raw : Option String} {r : PullReads}

/-- The page a pull reads of a table. -/
abbrev Downloads.pageOf (d : Downloads) (raw : Option String) (r : PullReads) (table : SyncTable) :
    List (Uuid × table.Row) :=
  pageAt d.settings d.storeId (fun table => ⟨d.history.db (r.seenAt table), r.now table⟩)
    (d.text.decode raw) table

/-- A row of a page is a row of the store, older than the window. -/
theorem of_mem_pageOf {table : SyncTable} {e : Uuid × table.Row} (he : e ∈ d.pageOf raw r table) :
    (table.rows (d.history.db (r.seenAt table))).find? e.1 = some e.2 ∧
      (d.text.decode raw).mark table < table.key e.1 e.2 ∧
      table.updatedAt e.2 < r.now table - d.settings.settleWindow := by
  obtain ⟨hfind, hlt, hready⟩ := of_mem_page he
  rw [ready, Bool.and_eq_true, decide_eq_true_iff] at hready
  exact ⟨hfind, hlt, hready.2⟩

/-- The pages of a pull are the ones its marks lead to. -/
theorem pages_pull (hsees : d.actor.can .viewProfit = true) (table : SyncTable) :
    (d.pull raw r).pages table = d.pageOf raw r table :=
  (@pull_spec d.text d.settings d.storeId d.actor raw
    (fun table => ⟨d.history.db (r.seenAt table), r.now table⟩) (d.history.db r.linesAt) hsees).1
    table

/-- The cursor of a pull has its marks at the ends of the pages. -/
theorem mark_pull (hround : d.text.RoundTrips) (hsees : d.actor.can .viewProfit = true)
    (table : SyncTable) :
    (d.text.decode (some (d.pull raw r).cursor)).mark table =
      nextMark table.key ((d.text.decode raw).mark table) (d.pageOf raw r table) := by
  obtain ⟨-, ⟨next, hnext, hmark⟩, -, -⟩ := @pull_spec d.text d.settings d.storeId d.actor raw
    (fun table => ⟨d.history.db (r.seenAt table), r.now table⟩) (d.history.db r.linesAt) hsees
  rw [Downloads.pull, hnext, hround.decode_encode]
  exact hmark table

/-- A pull says there is more when one of its pages is full. -/
theorem hasMore_pull (hsees : d.actor.can .viewProfit = true) :
    (d.pull raw r).hasMore = true ↔
      ∃ table, d.settings.pageSize ≤ (d.pageOf raw r table).length :=
  (@pull_spec d.text d.settings d.storeId d.actor raw
    (fun table => ⟨d.history.db (r.seenAt table), r.now table⟩) (d.history.db r.linesAt)
    hsees).2.2.1

/-- A pull that sees a row's final state delivers its final lines with it. -/
theorem hasVersion_of_mem_page (hsees : d.actor.can .viewProfit = true) (hr : r.InOrder d.history)
    {table : SyncTable} {id : Uuid} {row : table.Row}
    (hrow : (table.rows (d.history.db final)).find? id = some row)
    (hsettled : SettledBy d.history final table id (r.seenAt table))
    (hmem : (id, row) ∈ d.pageOf raw r table) (responses : List PullResponse) :
    HasVersion (d.history.db final) table id row (responses ++ [d.pull raw r]) := by
  obtain ⟨-, -, -, hitems⟩ := @pull_spec d.text d.settings d.storeId d.actor raw
    (fun table => ⟨d.history.db (r.seenAt table), r.now table⟩) (d.history.db r.linesAt) hsees
  have hpage : (d.pull raw r).pages table = d.pageOf raw r table := pages_pull hsees table
  have hfound : ((d.pull raw r).pages table).find? (fun e => e.1 == id) = some (id, row) := by
    cases hf : ((d.pull raw r).pages table).find? (fun e => e.1 == id) with
    | none =>
      rw [List.find?_eq_none] at hf
      exact absurd (beq_self_eq_true id) (hf (id, row) (hpage ▸ hmem))
    | some e =>
      have hp := List.find?_some hf
      have hid : e.1 = id := beq_iff_eq.mp hp
      have hfind := (of_mem_pageOf (hpage ▸ List.mem_of_find?_eq_some hf)).1
      rw [hid, (hsettled _ le_rfl).1, hrow] at hfind
      rw [← hid, Option.some.inj hfind]
  refine ⟨deliveredLines table id (d.pull raw r), ?_, ?_⟩
  · rw [lastDelivered_concat, delivered, hfound]
    rfl
  · intro j item
    cases table with
    | sales =>
      have hid : id ∈ ((d.pull raw r).pages .sales).map Prod.fst :=
        List.mem_map_of_mem (hpage ▸ hmem)
      have hlines : linesFor id (d.history.db r.linesAt) = linesFor id (d.history.db final) :=
        (hsettled _ hr.2).2
      change (j, item) ∈ (d.pull raw r).saleItems.filter _ ↔
        (linesFor id (d.history.db final)).find? j = some item
      rw [← hlines, linesFor, Table.find?_filter_eq_some, List.mem_filter]
      have hi : (d.pull raw r).saleItems = linesForSales
        (((d.pull raw r).pages .sales).map Prod.fst) (d.history.db r.linesAt) := hitems
      rw [hi, mem_linesForSales, and_assoc, and_congr_right_iff]
      intro _
      rw [beq_iff_eq, and_iff_right_iff_imp]
      rintro rfl
      exact hid
    | products => simp [deliveredLines, lines]
    | expenses => simp [deliveredLines, lines]
    | withdrawals => simp [deliveredLines, lines]
    | stockMovements => simp [deliveredLines, lines]

/-- A pull makes progress: what is still to come stays past the marks, and
what is passed has been delivered. -/
theorem Progress.pull {responses : List PullResponse} {pos : SyncTable → ℕ}
    (hp : Progress d final (d.text.decode raw) pos responses)
    (hs : d.history.Stamped d.settings.settleWindow) (hround : d.text.RoundTrips)
    (hsees : d.actor.can .viewProfit = true)
    (hquiet : ∀ j, final ≤ j → d.history.db j = d.history.db final)
    (hr : r.InOrder d.history) (hpos : ∀ table, pos table ≤ r.seenAt table) :
    Progress d final (d.text.decode (some (d.pull raw r).cursor)) r.seenAt
      (responses ++ [d.pull raw r]) := by
  intro table id row hrow hstore
  rw [mark_pull hround hsees]
  by_cases hsettled : SettledBy d.history final table id (r.seenAt table)
  · have hnow : (table.rows (d.history.db (r.seenAt table))).find? id = some row := by
      rw [(hsettled _ le_rfl).1, hrow]
    rcases hp table id row hrow hstore with ⟨-, hle, items, hlast, hitems⟩ | hlt
    · -- it was delivered before, and the page starts past it
      refine Or.inl ⟨hsettled, hle.trans mark_le_nextMark, items, ?_, hitems⟩
      rw [lastDelivered_concat, delivered_eq_none, Option.none_or, hlast]
      intro row' hmem
      have hpage : (d.pull raw r).pages table = d.pageOf raw r table := pages_pull hsees table
      obtain ⟨hfind, hpast, -⟩ := of_mem_pageOf (hpage ▸ hmem)
      rw [hnow] at hfind
      cases hfind
      exact absurd hle hpast.not_ge
    · have hcase : (id, row) ∈ d.pageOf raw r table ∨
          nextMark table.key ((d.text.decode raw).mark table) (d.pageOf raw r table) <
            table.key id row := by
        apply mem_page_or_nextMark_lt hnow hlt
        · exact fun j s h => key_injective h
        · -- a row too young to be ready has a later stamp than every ready one
          intro hyoung j s hready
          rw [ready, Bool.and_eq_true, decide_eq_true_iff] at hready
          simp only [ready, hstore, beq_self_eq_true, Bool.true_and,
            decide_eq_false_iff_not, not_lt] at hyoung
          rw [TableMark.lt_iff]
          exact Or.inl (hready.2.trans_le hyoung)
      rcases hcase with hmem | hshort
      · exact Or.inl ⟨hsettled, key_le_nextMark hmem,
          hasVersion_of_mem_page hsees hr hrow hsettled hmem responses⟩
      · exact Or.inr hshort
  · -- the final version is still to come, and no ready row is stamped after it
    have hclock := hs.clock_le hquiet hrow hsettled
    have hlt := (hp table id row hrow hstore).resolve_left
      fun h => hsettled (h.1.mono (hpos table))
    right
    apply nextMark_lt hlt
    intro e he
    rw [TableMark.lt_iff]
    left
    calc table.updatedAt e.2
      _ < r.now table - d.settings.settleWindow := (of_mem_pageOf he).2.2
      _ ≤ d.history.clock (r.seenAt table) - d.settings.settleWindow :=
          sub_le_sub_right (hr.1 table) _
      _ ≤ table.updatedAt row := sub_le_iff_le_add.mpr hclock

/-- A settled pull without a full page leaves no row behind. -/
theorem Progress.complete {responses : List PullResponse}
    (hp : Progress d final (d.text.decode (some (d.pull raw r).cursor)) r.seenAt responses)
    (hround : d.text.RoundTrips) (hsees : d.actor.can .viewProfit = true)
    (hquiet : ∀ j, final ≤ j → d.history.db j = d.history.db final) (hr : Settled d final r)
    (hmore : (d.pull raw r).hasMore = false) : Complete d final responses := by
  intro table id row hrow hstore
  rcases hp table id row hrow hstore with ⟨-, -, hversion⟩ | hlt
  · exact hversion
  · exfalso
    rw [mark_pull hround hsees] at hlt
    have hnow : (table.rows (d.history.db (r.seenAt table))).find? id = some row := by
      rw [hquiet _ (hr.at_le table), hrow]
    have hready : ready d.settings table d.storeId (r.now table) id row = true := by
      have hgt := hr.now_gt table id row hrow
      rw [ready, Bool.and_eq_true, decide_eq_true_iff, beq_iff_eq]
      exact ⟨hstore, lt_sub_iff_add_lt.mpr hgt⟩
    by_cases hmem : (id, row) ∈ d.pageOf raw r table
    · exact absurd (key_le_nextMark hmem) hlt.not_ge
    · have hlen := (full_of_notMem_page hnow (mark_le_nextMark.trans_lt hlt) hready hmem).1
      have htrue : (d.pull raw r).hasMore = true := (hasMore_pull hsees).mpr ⟨table, hlen.ge⟩
      rw [hmore] at htrue
      cases htrue

/-- Rows of the final state still past the marks. -/
def left (d : Downloads) (final : ℕ) (cursor : SyncCursor) : ℕ :=
  ∑ table, remaining (table.rows (d.history.db final)) table.key (cursor.mark table)

/-- A full page leaves fewer rows. -/
theorem left_pull_lt (hround : d.text.RoundTrips) (hsees : d.actor.can .viewProfit = true)
    (hsize : 1 ≤ d.settings.pageSize)
    (hquiet : ∀ j, final ≤ j → d.history.db j = d.history.db final) (hr : Settled d final r)
    (hmore : (d.pull raw r).hasMore = true) :
    left d final (d.text.decode (some (d.pull raw r).cursor)) < left d final (d.text.decode raw) := by
  have hpage : ∀ table : SyncTable, d.pageOf raw r table =
      page (table.rows (d.history.db final)) table.key
        (ready d.settings table d.storeId (r.now table)) ((d.text.decode raw).mark table)
        d.settings.pageSize := by
    intro table
    rw [← hquiet _ (hr.at_le table)]
    rfl
  obtain ⟨table, hlen⟩ := (hasMore_pull hsees).mp hmore
  apply Finset.sum_lt_sum
  · intro table _
    rw [mark_pull hround hsees, hpage]
    exact remaining_anti mark_le_nextMark
  · refine ⟨table, Finset.mem_univ _, ?_⟩
    rw [mark_pull hround hsees, hpage]
    apply remaining_nextMark_lt
    intro hnil
    rw [hpage, hnil] at hlen
    exact absurd (hsize.trans hlen) (Nat.not_succ_le_zero 0)

/-- The pulls made while the server is written to make progress. -/
theorem progress_pulls (hs : d.history.Stamped d.settings.settleWindow)
    (hround : d.text.RoundTrips) (hsees : d.actor.can .viewProfit = true)
    (hquiet : ∀ j, final ≤ j → d.history.db j = d.history.db final) {reads : List PullReads}
    (hr : ∀ r ∈ reads, r.InOrder d.history) (hord : reads.Pairwise PullReads.Before)
    {responses : List PullResponse} {pos : SyncTable → ℕ}
    (hpos : ∀ r ∈ reads, ∀ table, pos table ≤ r.seenAt table)
    (hp : Progress d final (d.text.decode raw) pos responses) :
    ∃ pos', (∀ b : PullReads, (∀ table, pos table ≤ b.seenAt table) →
        (∀ r ∈ reads, r.Before b) → ∀ table, pos' table ≤ b.seenAt table) ∧
      Progress d final (d.text.decode (d.cursorAfter raw reads)) pos'
        (responses ++ d.pulls raw reads) := by
  induction reads generalizing raw responses pos with
  | nil => exact ⟨pos, fun b hb _ => hb, by simpa [Downloads.pulls, Downloads.cursorAfter] using hp⟩
  | cons r rest ih =>
    obtain ⟨hfirst, hrest⟩ := List.pairwise_cons.mp hord
    have hstep := hp.pull hs hround hsees hquiet (hr r List.mem_cons_self)
      (hpos r List.mem_cons_self)
    obtain ⟨pos', hpos', hp'⟩ := ih (fun a ha => hr a (List.mem_cons_of_mem _ ha)) hrest
      (fun a ha => hfirst a ha) hstep
    refine ⟨pos', fun b _ hb => hpos' b (hb r List.mem_cons_self)
      fun a ha => hb a (List.mem_cons_of_mem _ ha), ?_⟩
    simpa [Downloads.pulls, Downloads.cursorAfter] using hp'

/-- Settled pulls end, and with them everything is delivered. -/
theorem repeatPull_complete (hs : d.history.Stamped d.settings.settleWindow)
    (hround : d.text.RoundTrips) (hsees : d.actor.can .viewProfit = true)
    (hsize : 1 ≤ d.settings.pageSize)
    (hquiet : ∀ j, final ≤ j → d.history.db j = d.history.db final) {reads : ℕ → PullReads}
    (hr : ∀ n, (reads n).InOrder d.history) (hord : ∀ n, (reads n).Before (reads (n + 1)))
    (hsettled : ∀ n, Settled d final (reads n)) {fuel n : ℕ} {responses : List PullResponse}
    {pos : SyncTable → ℕ} (hpos : ∀ table, pos table ≤ (reads n).seenAt table)
    (hp : Progress d final (d.text.decode raw) pos responses)
    (hfuel : left d final (d.text.decode raw) < fuel) :
    ∃ last, d.repeatPull reads fuel n raw = some last ∧ Complete d final (responses ++ last) := by
  induction fuel generalizing n raw responses pos with
  | zero => exact absurd hfuel (Nat.not_lt_zero _)
  | succ fuel ih =>
    have hstep := hp.pull hs hround hsees hquiet (hr n) hpos
    cases hmore : (d.pull raw (reads n)).hasMore with
    | false =>
      refine ⟨[d.pull raw (reads n)], by simp [Downloads.repeatPull, hmore], ?_⟩
      exact hstep.complete hround hsees hquiet (hsettled n) hmore
    | true =>
      have hless := left_pull_lt hround hsees hsize hquiet (hsettled n) hmore
      obtain ⟨last, hlast, hcomplete⟩ := ih (hord n) hstep (by omega)
      refine ⟨d.pull raw (reads n) :: last, by simp [Downloads.repeatPull, hmore, hlast], ?_⟩
      simpa using hcomplete

end

/-- Whatever was written while a device paged through the server, once the
writes have stopped and settled the device's pulls come to an end, and over
all of them the last version delivered of every row is its final one, with
its final lines. -/
theorem pull_complete (d : Downloads) (hs : d.history.Stamped d.settings.settleWindow)
    (hround : d.text.RoundTrips) (hsees : d.actor.can .viewProfit = true)
    (hsize : 1 ≤ d.settings.pageSize) (final : ℕ)
    (hquiet : ∀ j, final ≤ j → d.history.db j = d.history.db final)
    (before : List PullReads) (hbefore : ∀ r ∈ before, r.InOrder d.history)
    (hord : before.Pairwise PullReads.Before) (after : ℕ → PullReads)
    (hafter : ∀ n, (after n).InOrder d.history) (hnext : ∀ r ∈ before, r.Before (after 0))
    (hord' : ∀ n, (after n).Before (after (n + 1))) (hsettled : ∀ n, Settled d final (after n)) :
    ∃ fuel last, d.repeatPull after fuel 0 (d.cursorAfter none before) = some last ∧
      Complete d final (d.pulls none before ++ last) := by
  obtain ⟨pos, hpos, hp⟩ := @progress_pulls d final none hs hround hsees hquiet before hbefore hord
    [] (fun _ => 0) (fun _ _ _ => Nat.zero_le _) (progress_nil hs)
  refine ⟨_, repeatPull_complete hs hround hsees hsize hquiet hafter hord' hsettled
    (hpos (after 0) (fun _ => Nat.zero_le _) hnext) hp (Nat.lt_succ_self _)⟩

/-- A product as it was stamped eight seconds past the epoch. -/
def rice : Product :=
  ⟨⟨0⟩, "rice", none, "piece", 40, 55, 10, 2, true, 8000000, none⟩

/-- The product becomes visible a second and a half after its stamp. -/
def riceHistory : ServerHistory where
  clock i := 8000000 + 1500000 * i
  db i := if i = 0 then Db.empty else { Db.empty with products := Table.empty.put ⟨2⟩ rice }

theorem riceHistory_updatedAt {table : SyncTable} {id : Uuid} {i : ℕ} {row : table.Row}
    (h : (table.rows (riceHistory.db i)).find? id = some row) :
    table.updatedAt row = 8000000 := by
  by_cases hi : i = 0
  · simp only [riceHistory, hi, if_true] at h
    cases table <;> cases h
  · simp only [riceHistory, hi, if_false] at h
    cases table with
    | products =>
      change (Table.empty.put ⟨2⟩ rice).find? id = some row at h
      rw [Table.find?_put] at h
      split_ifs at h
      · cases h
        rfl
      · cases h
    | _ => cases h

theorem riceHistory_stamped : riceHistory.Stamped 2000000 := by
  constructor
  · intro i j hij
    have : (i : ℤ) ≤ j := by exact_mod_cast hij
    simp only [riceHistory]
    linarith
  · intro table id i row h hchanged
    by_cases hi : i = 0
    · subst hi
      rw [riceHistory_updatedAt h]
      decide
    · have hsame : riceHistory.db i = riceHistory.db (i + 1) := by simp [riceHistory, hi]
      rw [hsame] at hchanged
      simp [h] at hchanged
  · intro table id i row h
    rw [riceHistory_updatedAt h]
    decide

/-- The text of the empty cursor. -/
def emptyCursorText : String := "7b" ++ "226d61726b73223a7b7d7d"

/-- The cursor of a device that has the product, and its text. -/
def riceCursor : SyncCursor := SyncCursor.default.advance .products ⟨8000000, ⟨2⟩⟩

/-- The text of that cursor. -/
def riceCursorText : String :=
  "7b" ++ ("226d61726b73223a7b2270726f6475637473223a7b22757064617465645f6174223a2231393730" ++
  "2d30312d30315430303a30303a30385a222c226964223a2230303030303030302d303030302d3030" ++
  "30302d303030302d303030303030303030303032227d7d7d")

/-- The marks of a cursor, table by table. -/
def marksOf (cursor : SyncCursor) : List (Option (ℤ × ℕ)) :=
  SyncTable.ALL.map fun table => (cursor.marks table).map fun m => (m.updatedAt, m.id.bits)

/-- The cursor with the given marks. -/
def cursorOf (marks : List (Option (ℤ × ℕ))) : SyncCursor :=
  ⟨fun table => (marks.getD (SyncTable.ALL.idxOf table) none).map fun m => ⟨m.1, ⟨m.2⟩⟩⟩

theorem cursorOf_marksOf (cursor : SyncCursor) : cursorOf (marksOf cursor) = cursor := by
  obtain ⟨marks⟩ := cursor
  rw [cursorOf]
  congr 1
  funext table
  have hback : ∀ mark : Option TableMark, (mark.map fun m => (m.updatedAt, m.id.bits)).map
      (fun m => (⟨m.1, ⟨m.2⟩⟩ : TableMark)) = mark := by
    intro mark
    cases mark <;> rfl
  cases table <;> exact hback _

/-- The two texts the device meets as they are, and every other cursor as
a row of dashes of its own length. -/
def riceText : CursorText where
  encode cursor :=
    if marksOf cursor = marksOf SyncCursor.default then emptyCursorText
    else if marksOf cursor = marksOf riceCursor then riceCursorText
    else String.ofList (List.replicate (Encodable.encode (marksOf cursor)) '-')
  read text :=
    if text = emptyCursorText then some SyncCursor.default
    else if text = riceCursorText then some riceCursor
    else (Encodable.decode text.toList.length).map cursorOf

/-- A row of dashes is neither of the two texts. -/
theorem dashes_ne {n : ℕ} {s : String} : String.ofList (List.replicate n '-') ≠ "7b" ++ s := by
  intro h
  have hmem : '7' ∈ List.replicate n '-' := by
    rw [← @String.toList_ofList (List.replicate n '-'), h, String.toList_append]
    exact List.mem_append_left _ (by decide)
  exact absurd (List.eq_of_mem_replicate hmem) (by decide)

theorem riceText_roundTrips : riceText.RoundTrips := by
  intro cursor
  have hback : ∀ other, marksOf cursor = marksOf other → other = cursor := by
    intro other h
    rw [← cursorOf_marksOf other, ← h, cursorOf_marksOf]
  simp only [riceText]
  by_cases hempty : marksOf cursor = marksOf SyncCursor.default
  · rw [if_pos hempty, if_pos rfl, hback _ hempty]
  · rw [if_neg hempty]
    by_cases hrice : marksOf cursor = marksOf riceCursor
    · rw [if_pos hrice, if_neg (by decide), if_pos rfl, hback _ hrice]
    · rw [if_neg hrice, emptyCursorText, if_neg dashes_ne, riceCursorText,
        if_neg dashes_ne, String.toList_ofList, List.length_replicate, Encodable.encodek, Option.map_some,
        cursorOf_marksOf]

/-- A device that pulled before the product was visible, and again after. -/
def riceDownloads : Downloads :=
  ⟨riceHistory, riceText, ⟨2000000, 1⟩, ⟨0⟩, ⟨⟨9⟩, "owner", "phone", none⟩⟩

theorem pull_complete_rice :
    let early : PullReads := ⟨fun _ => 0, fun _ => 8000000, 0⟩
    let late : ℕ → PullReads := fun _ => ⟨fun _ => 2, fun _ => 11000000, 2⟩
    ∃ fuel last, riceDownloads.repeatPull late fuel 0 (riceDownloads.cursorAfter none [early]) =
        some last ∧
      HasVersion (riceHistory.db 1) .products ⟨2⟩ rice
        (riceDownloads.pulls none [early] ++ last) := by
  intro early late
  obtain ⟨fuel, last, hlast, hcomplete⟩ := pull_complete riceDownloads riceHistory_stamped
    riceText_roundTrips (by decide) (by decide) 1
    (by
      intro j hj
      simp [riceDownloads, riceHistory, Nat.one_le_iff_ne_zero.mp hj])
    [early] (by simp [early, PullReads.InOrder, riceDownloads, riceHistory]) (by simp) late
    (by
      intro n
      simp [late, PullReads.InOrder, riceDownloads, riceHistory])
    (by
      intro r hr table
      rw [List.mem_singleton.mp hr]
      exact Nat.zero_le _)
    (by
      intro n table
      exact le_rfl)
    (by
      intro n
      constructor
      · intro table
        exact Nat.le_succ 1
      · intro table id row h
        rw [riceHistory_updatedAt h]
        change (8000000 : ℤ) + 2000000 < 11000000
        decide)
  exact ⟨fuel, last, hlast, hcomplete .products ⟨2⟩ rice rfl rfl⟩

end Kitaza.PullCompleteness
