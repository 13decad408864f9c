import Kitaza.Access
import Kitaza.KeysetPaging

/-!
# Paging through the activity log

The log is asked for page by page, newest first; each full page names the
entry before which the next one starts. Entries may be added between two
pages, anywhere in the order in which numbers were drawn. Whatever is added,
the pages come to an end, and every entry that was there at the start and
belongs to the store's log is on exactly one of them.
-/

namespace Kitaza.ActivityPaging

open KeyedTable Primitives Access

/-- A row of `audit_events`, without its number. -/
structure AuditRow where
  /-- The account. -/
  ownerId : Uuid
  /-- The store; absent for an account-wide event. -/
  storeId : Option Uuid
  /-- The staff member who did it; absent for the owner. -/
  staffId : Option Uuid
  /-- Their name at the time. -/
  actorName : String
  /-- The device at the time. -/
  deviceName : String
  /-- The stored name of the action. -/
  action : String
  /-- The record it was about. -/
  entityId : Option Uuid
  /-- The details, as JSON. -/
  details : String
  /-- When it happened on the device. -/
  occurredAt : Timestamp
  /-- When the server wrote it. -/
  recordedAt : Timestamp
  deriving DecidableEq, Repr

/-- The log, by the numbers its identity column has drawn. -/
abbrev Log := Table ℕ AuditRow

/-- What a page shows of an event. -/
structure AuditEventView where
  /-- Its number. -/
  seq : ℕ
  /-- The stored name of the action. -/
  action : String
  /-- Who did it. -/
  actorName : String
  /-- Whether that was a staff member. -/
  isStaff : Bool
  /-- On which device. -/
  deviceName : String
  /-- The record it was about. -/
  entityId : Option Uuid
  /-- The details. -/
  details : String
  /-- When it happened. -/
  occurredAt : Timestamp
  /-- When the server wrote it. -/
  recordedAt : Timestamp
  deriving DecidableEq, Repr

/-- The view of a row. -/
def viewOf (event : ℕ × AuditRow) : AuditEventView :=
  ⟨event.1, event.2.action, event.2.actorName, event.2.staffId.isSome, event.2.deviceName,
    event.2.entityId, event.2.details, event.2.occurredAt, event.2.recordedAt⟩

/-- Which events are asked for. -/
inductive AuditFilter where
  | all
  | removals
  deriving DecidableEq, Repr

/-- The stored names of `AuditAction::REMOVALS`. -/
def REMOVALS : List String :=
  ["sale_voided", "expense_deleted", "withdrawal_deleted", "product_removed"]

/-- The actions a filter keeps, if it does not keep all. -/
def AuditFilter.only : AuditFilter → Option (List String)
  | .all => none
  | .removals => some REMOVALS

def MAX_PAGE : ℤ := 100

/-- `AuditTrail::page`: newest first. `before` is the number of the last entry
already shown. -/
def page (log : Log) (ownerId storeId : Uuid) (filter : AuditFilter) (before : Option ℤ)
    (limit : ℤ) : List AuditEventView :=
  (((log.entries.filter fun event =>
      event.2.ownerId == ownerId && (event.2.storeId == some storeId || event.2.storeId == none) &&
        before.all (fun b => decide ((event.1 : ℤ) < b)) &&
        filter.only.all (fun names => names.contains event.2.action)).insertionSort
    fun a b => b.1 ≤ a.1).take (max 1 (min limit MAX_PAGE)).toNat).map viewOf

def DEFAULT_PAGE : ℤ := 50

/-- What is asked for. -/
structure ActivityQuery where
  /-- The last entry already shown. -/
  before : Option ℤ
  /-- How many entries. -/
  limit : Option ℤ
  /-- Which. -/
  filter : AuditFilter
  deriving DecidableEq, Repr

/-- What is answered. -/
structure ActivityPage where
  /-- The entries. -/
  events : List AuditEventView
  /-- The `before` of the next, older page. -/
  nextBefore : Option ℤ
  deriving DecidableEq, Repr

/-- A signed-in actor in one of their stores. -/
structure StoreScope where
  /-- The store. -/
  storeId : Uuid
  /-- The actor. -/
  actor : Actor
  deriving DecidableEq, Repr

/-- `list_activity`. -/
def listActivity (log : Log) (scope : StoreScope) (query : ActivityQuery) :
    Except ApiError ActivityPage := do
  scope.actor.requireOwner
  let limit := query.limit.getD DEFAULT_PAGE
  let events := page log scope.actor.ownerId scope.storeId query.filter query.before limit
  let nextBefore :=
    if (events.length : ℤ) ≥ max 1 (min limit 100) then
      events.getLast?.map fun event => (event.seq : ℤ)
    else none
  return ⟨events, nextBefore⟩

/-- Follow `next_before` until it is absent, for at most so many pages. The
log is as it stands when each page is asked for. -/
def follow (logs : ℕ → Log) (scope : StoreScope) (limit : Option ℤ) (filter : AuditFilter) :
    ℕ → ℕ → Option ℤ → Option (List AuditEventView)
  | 0, _, _ => none
  | fuel + 1, i, before =>
    match listActivity (logs i) scope ⟨before, limit, filter⟩ with
    | .error _ => none
    | .ok answer =>
      match answer.nextBefore with
      | none => some answer.events
      | some next =>
        (follow logs scope limit filter fuel (i + 1) (some next)).map (answer.events ++ ·)

/-- The row is in the store's log, and the filter keeps it. -/
def Matches (scope : StoreScope) (filter : AuditFilter) (row : AuditRow) : Prop :=
  row.ownerId = scope.actor.ownerId ∧ (row.storeId = some scope.storeId ∨ row.storeId = none) ∧
    ∀ names, filter.only = some names → row.action ∈ names

/-- Rows are added to the log, and none goes. -/
def Appended (log log' : Log) : Prop :=
  ∀ seq row, log.find? seq = some row → log'.find? seq = some row

/-- Numbers, highest first, as a key that grows from page to page. -/
abbrev Rank := WithBot ℕᵒᵈ

/-- A number's place. -/
def rank (seq : ℕ) : Rank := ((OrderDual.toDual seq : ℕᵒᵈ) : Rank)

/-- The place before which a page starts. -/
def markOf (before : Option ℤ) : Rank := before.elim ⊥ fun b => rank b.toNat

/-- `Matches`, as the query computes it. -/
def ready (scope : StoreScope) (filter : AuditFilter) (_ : ℕ) (row : AuditRow) : Bool :=
  row.ownerId == scope.actor.ownerId &&
    (row.storeId == some scope.storeId || row.storeId == none) &&
    filter.only.all (fun names => names.contains row.action)

/-- How many entries a page holds. -/
def pageSize (limit : ℤ) : ℕ := (max 1 (min limit MAX_PAGE)).toNat

/-- The rows of a page. -/
def rowsOf (log : Log) (scope : StoreScope) (filter : AuditFilter) (before : Option ℤ)
    (limit : ℤ) : List (ℕ × AuditRow) :=
  KeysetPaging.page log (fun seq _ => rank seq) (ready scope filter) (markOf before)
    (pageSize limit)

theorem rank_lt_rank {a b : ℕ} : rank a < rank b ↔ b < a := by
  rw [rank, rank, WithBot.coe_lt_coe, OrderDual.toDual_lt_toDual]

theorem rank_le_rank {a b : ℕ} : rank a ≤ rank b ↔ b ≤ a := by
  rw [rank, rank, WithBot.coe_le_coe, OrderDual.toDual_le_toDual]

theorem markOf_lt_rank {before : Option ℤ} {seq : ℕ} :
    markOf before < rank seq ↔ ∀ b, before = some b → (seq : ℤ) < b := by
  cases before with
  | none => simp [markOf, rank, WithBot.bot_lt_coe]
  | some b =>
    rw [markOf, Option.elim_some, rank_lt_rank, Int.lt_toNat]
    simp

theorem ready_eq_true {scope : StoreScope} {filter : AuditFilter} {seq : ℕ} {row : AuditRow} :
    ready scope filter seq row = true ↔ Matches scope filter row := by
  rw [ready, Matches, Bool.and_eq_true, Bool.and_eq_true, Bool.or_eq_true, beq_iff_eq, beq_iff_eq,
    beq_iff_eq, and_assoc]
  cases filter.only with
  | none => simp
  | some names => simp

/-- A page is a keyset page. -/
theorem page_eq (log : Log) (scope : StoreScope) (filter : AuditFilter) (before : Option ℤ)
    (limit : ℤ) :
    page log scope.actor.ownerId scope.storeId filter before limit =
      (rowsOf log scope filter before limit).map viewOf := by
  have hkept : (fun event : ℕ × AuditRow =>
      event.2.ownerId == scope.actor.ownerId &&
        (event.2.storeId == some scope.storeId || event.2.storeId == none) &&
        before.all (fun b => decide ((event.1 : ℤ) < b)) &&
        filter.only.all (fun names => names.contains event.2.action)) =
      fun event => decide (markOf before < rank event.1) && ready scope filter event.1 event.2 := by
    funext event
    have hmark : before.all (fun b => decide ((event.1 : ℤ) < b)) =
        decide (markOf before < rank event.1) := by
      rw [Bool.eq_iff_iff, decide_eq_true_eq, markOf_lt_rank]
      cases before <;> simp
    rw [hmark, ready]
    ac_rfl
  have horder : (fun a b : ℕ × AuditRow => b.1 ≤ a.1) = fun a b => rank a.1 ≤ rank b.1 := by
    funext a b
    rw [rank_le_rank]
  rw [page, hkept, rowsOf, KeysetPaging.page, pageSize]
  congr! 3

theorem one_le_pageSize (limit : ℤ) : 1 ≤ pageSize limit := by
  rw [pageSize]
  omega

section

variable {log : Log} {scope : StoreScope} {filter : AuditFilter} {before : Option ℤ} {limit : ℤ}

/-- A row of a page is in the log, is older than asked for and matches. -/
theorem of_mem_rowsOf {event : ℕ × AuditRow} (h : event ∈ rowsOf log scope filter before limit) :
    log.find? event.1 = some event.2 ∧ (∀ b, before = some b → (event.1 : ℤ) < b) ∧
      Matches scope filter event.2 := by
  obtain ⟨hfind, hmark, hready⟩ := KeysetPaging.of_mem_page h
  exact ⟨hfind, markOf_lt_rank.mp hmark, ready_eq_true.mp hready⟩

/-- The rows of a page come newest first. -/
theorem rowsOf_ordered :
    (rowsOf log scope filter before limit).Pairwise fun a b => b.1 < a.1 := by
  have hordered : (rowsOf log scope filter before limit).Pairwise
      fun a b => rank a.1 ≤ rank b.1 :=
    @KeysetPaging.page_ordered _ _ _ _ _ log (fun seq _ => rank seq) _ _ _
  have hnodup : (rowsOf log scope filter before limit).Nodup := KeysetPaging.nodup_page
  refine (hordered.and hnodup).imp_of_mem ?_
  intro a b ha hb h
  apply (rank_le_rank.mp h.1).lt_of_ne
  intro hseq
  have hrow := (of_mem_rowsOf ha).1
  rw [← hseq, (of_mem_rowsOf hb).1, Option.some.injEq] at hrow
  exact h.2 (Prod.ext hseq.symm hrow.symm)

/-- A matching row that is not on the page was cut off: the page is full and
its rows are newer. -/
theorem full_of_notMem_rowsOf {seq : ℕ} {row : AuditRow} (hfind : log.find? seq = some row)
    (hmatch : Matches scope filter row) (hbefore : ∀ b, before = some b → (seq : ℤ) < b)
    (hn : (seq, row) ∉ rowsOf log scope filter before limit) :
    (rowsOf log scope filter before limit).length = pageSize limit ∧
      ∀ event ∈ rowsOf log scope filter before limit, seq < event.1 := by
  obtain ⟨hfull, hnewer⟩ := KeysetPaging.full_of_notMem_page hfind (markOf_lt_rank.mpr hbefore)
    (ready_eq_true.mpr hmatch) hn
  refine ⟨hfull, fun event hevent => ?_⟩
  have hle : seq ≤ event.1 := rank_le_rank.mp (hnewer event hevent)
  apply hle.lt_of_ne
  intro hseq
  have hrow := (of_mem_rowsOf hevent).1
  rw [← hseq, hfind, Option.some.injEq] at hrow
  have hmem : (seq, row) = event := Prod.ext hseq hrow
  exact hn (hmem ▸ hevent)

end

/-- An answer: the views of a page's rows, and the number of the last of them
where the page is full. -/
theorem listActivity_ok (log : Log) {scope : StoreScope} (howner : scope.actor.isOwner = true)
    (filter : AuditFilter) (before limit : Option ℤ) :
    ∃ answer rows, listActivity log scope ⟨before, limit, filter⟩ = .ok answer ∧
      rows = rowsOf log scope filter before (limit.getD DEFAULT_PAGE) ∧
      answer.events = rows.map viewOf ∧
      (answer.nextBefore = none → rows.length < pageSize (limit.getD DEFAULT_PAGE)) ∧
      ∀ next, answer.nextBefore = some next → ∃ init last, rows = init ++ [last] ∧
        next = (last.1 : ℤ) := by
  have howns := Actor.requireOwner_eq_ok.mpr howner
  have hpage := page_eq log scope filter before (limit.getD DEFAULT_PAGE)
  have hsize := one_le_pageSize (limit.getD DEFAULT_PAGE)
  obtain ⟨rows, hrows⟩ : ∃ rows, rows = rowsOf log scope filter before
      (limit.getD DEFAULT_PAGE) := ⟨_, rfl⟩
  rw [← hrows] at hpage
  have hclamp : (pageSize (limit.getD DEFAULT_PAGE) : ℤ) =
      max 1 (min (limit.getD DEFAULT_PAGE) 100) := by
    rw [pageSize, MAX_PAGE]
    omega
  refine ⟨_, rows, by rw [listActivity, howns]; rfl, hrows, hpage, ?_, ?_⟩
  · intro hnone
    rw [hpage, List.length_map, ← hclamp] at hnone
    by_contra hlong
    rw [if_pos (by omega), Option.map_eq_none_iff, List.getLast?_eq_none_iff,
      List.map_eq_nil_iff] at hnone
    rw [hnone, List.length_nil] at hlong
    omega
  · intro next hnext
    rw [hpage, List.length_map, ← hclamp] at hnext
    split at hnext
    · rw [List.getLast?_map, Option.map_map, Option.map_eq_some_iff] at hnext
      obtain ⟨last, hlast, rfl⟩ := hnext
      obtain ⟨init, rfl⟩ := List.getLast?_eq_some_iff.mp hlast
      exact ⟨init, last, rfl, rfl⟩
    · cases hnext

/-- What following the pages from some point shows. -/
structure Visited (logs : ℕ → Log) (scope : StoreScope) (filter : AuditFilter) (i : ℕ)
    (before : Option ℤ) (events : List (ℕ × AuditRow)) : Prop where
  /-- Every event shown was in the log of some page, and matches. -/
  shown : ∀ event ∈ events, (∃ j, i ≤ j ∧ (logs j).find? event.1 = some event.2) ∧
    (∀ b, before = some b → (event.1 : ℤ) < b) ∧ Matches scope filter event.2
  /-- The events come newest first. -/
  ordered : events.Pairwise fun a b => b.1 < a.1
  /-- Every event of the log as it stood at first is shown. -/
  complete : ∀ seq row, (logs i).find? seq = some row → (∀ b, before = some b → (seq : ℤ) < b) →
    Matches scope filter row → (seq, row) ∈ events

section

variable {logs : ℕ → Log} {scope : StoreScope} {filter : AuditFilter}

/-- A page that is the last one. -/
theorem Visited.last {i : ℕ} {before : Option ℤ} {limit : ℤ}
    (hshort : (rowsOf (logs i) scope filter before limit).length < pageSize limit) :
    Visited logs scope filter i before (rowsOf (logs i) scope filter before limit) where
  shown event h := ⟨⟨i, le_rfl, (of_mem_rowsOf h).1⟩, (of_mem_rowsOf h).2⟩
  ordered := rowsOf_ordered
  complete := by
    intro seq row hfind hbefore hmatch
    by_contra hn
    exact hshort.ne (full_of_notMem_rowsOf hfind hmatch hbefore hn).1

/-- A page and those after it. -/
theorem Visited.cons {i : ℕ} {before : Option ℤ} {limit : ℤ} {init events : List (ℕ × AuditRow)}
    {last : ℕ × AuditRow} (happend : Appended (logs i) (logs (i + 1)))
    (hpage : rowsOf (logs i) scope filter before limit = init ++ [last])
    (hrest : Visited logs scope filter (i + 1) (some last.1) events) :
    Visited logs scope filter i before (init ++ [last] ++ events) := by
  have hlastMem : last ∈ rowsOf (logs i) scope filter before limit := by simp [hpage]
  have hlast := of_mem_rowsOf hlastMem
  have hordered : (init ++ [last]).Pairwise fun a b => b.1 < a.1 := hpage ▸ rowsOf_ordered
  have hnewer : ∀ event ∈ init ++ [last], last.1 ≤ event.1 := by
    intro event hevent
    cases List.mem_append.mp hevent with
    | inl hinit =>
      exact ((List.pairwise_append.mp hordered).2.2 event hinit last (by simp)).le
    | inr heq => rw [List.mem_singleton.mp heq]
  have holder : ∀ event ∈ events, event.1 < last.1 := by
    intro event hevent
    exact_mod_cast (hrest.shown event hevent).2.1 last.1 rfl
  constructor
  · intro event hevent
    cases List.mem_append.mp hevent with
    | inl hhere =>
      rw [← hpage] at hhere
      exact ⟨⟨i, le_rfl, (of_mem_rowsOf hhere).1⟩, (of_mem_rowsOf hhere).2⟩
    | inr hthere =>
      obtain ⟨⟨j, hj, hfind⟩, _, hmatch⟩ := hrest.shown event hthere
      refine ⟨⟨j, by omega, hfind⟩, ?_, hmatch⟩
      intro b hb
      have := hlast.2.1 b hb
      have := holder event hthere
      omega
  · rw [List.pairwise_append]
    refine ⟨hordered, hrest.ordered, ?_⟩
    intro a ha b hb
    exact (holder b hb).trans_le (hnewer a ha)
  · intro seq row hfind hbefore hmatch
    by_cases hhere : (seq, row) ∈ rowsOf (logs i) scope filter before limit
    · rw [hpage] at hhere
      exact List.mem_append_left _ hhere
    · have holderRow := (full_of_notMem_rowsOf hfind hmatch hbefore hhere).2 last hlastMem
      apply List.mem_append_right
      apply hrest.complete seq row (happend seq row hfind) _ hmatch
      intro b hb
      cases hb
      exact_mod_cast holderRow

/-- Following the pages from a mark ends, within as many pages as there are
numbers below it. -/
theorem follow_from (filter : AuditFilter) (howner : scope.actor.isOwner = true)
    (limit : Option ℤ)
    (happend : ∀ i, Appended (logs i) (logs (i + 1))) (mark fuel i : ℕ) (hfuel : mark < fuel) :
    ∃ events, follow logs scope limit filter fuel i (some mark) = some (events.map viewOf) ∧
      Visited logs scope filter i (some mark) events := by
  induction fuel generalizing mark i with
  | zero => omega
  | succ fuel ih =>
    obtain ⟨answer, rows, hanswer, hrows, hevents, hlast, hnext⟩ :=
      listActivity_ok (logs i) howner filter (some mark) limit
    rw [follow, hanswer]
    cases hbefore : answer.nextBefore with
    | none =>
      refine ⟨rows, by simp [hbefore, hevents], ?_⟩
      rw [hrows]
      exact Visited.last (hrows ▸ hlast hbefore)
    | some next =>
      obtain ⟨init, last, hpage, rfl⟩ := hnext next hbefore
      rw [hrows] at hpage
      have hlastMem : last ∈ rowsOf (logs i) scope filter (some mark)
          (limit.getD DEFAULT_PAGE) := by simp [hpage]
      have hlower : last.1 < mark := by
        exact_mod_cast (of_mem_rowsOf hlastMem).2.1 mark rfl
      obtain ⟨events, hfollow, hvisited⟩ := ih last.1 (i + 1) (by omega)
      refine ⟨init ++ [last] ++ events, ?_, Visited.cons (happend i) hpage hvisited⟩
      simp [hbefore, hfollow, hevents, hrows, hpage]

/-- Following the pages from the first one ends. -/
theorem follow_first (filter : AuditFilter) (howner : scope.actor.isOwner = true)
    (limit : Option ℤ)
    (happend : ∀ i, Appended (logs i) (logs (i + 1))) :
    ∃ pages events, follow logs scope limit filter pages 0 none = some (events.map viewOf) ∧
      Visited logs scope filter 0 none events := by
  obtain ⟨answer, rows, hanswer, hrows, hevents, hlast, hnext⟩ :=
    listActivity_ok (logs 0) howner filter none limit
  cases hbefore : answer.nextBefore with
  | none =>
    refine ⟨1, rows, by rw [follow, hanswer]; simp [hbefore, hevents], ?_⟩
    rw [hrows]
    exact Visited.last (hrows ▸ hlast hbefore)
  | some next =>
    obtain ⟨init, last, hpage, rfl⟩ := hnext next hbefore
    obtain ⟨events, hfollow, hvisited⟩ :=
      follow_from filter howner limit happend last.1 (last.1 + 1) 1 (by omega)
    refine ⟨last.1 + 2, init ++ [last] ++ events, ?_, ?_⟩
    · rw [follow, hanswer]
      simp [hbefore, hfollow, hevents, hpage]
    · rw [hrows] at hpage
      exact Visited.cons (happend 0) hpage hvisited

end

/-- From the first page on, following `next_before` ends, and shows the events
newest first. Every event that was in the log when the first page was asked
for, and belongs to the store's log under the filter, is shown exactly once,
whatever is added meanwhile; and only events of the log are shown. -/
theorem activity_paged (logs : ℕ → Log) (happend : ∀ i, Appended (logs i) (logs (i + 1)))
    (scope : StoreScope) (howner : scope.actor.isOwner = true) (filter : AuditFilter)
    (limit : Option ℤ) :
    ∃ (pages : ℕ) (events : List (ℕ × AuditRow)),
      follow logs scope limit filter pages 0 none = some (events.map viewOf) ∧
      (events.map viewOf).Pairwise (fun a b => b.seq < a.seq) ∧
      (∀ event ∈ events, Matches scope filter event.2 ∧
        ∃ j, (logs j).find? event.1 = some event.2) ∧
      ∀ seq row, (logs 0).find? seq = some row → Matches scope filter row →
        (events.map viewOf).count (viewOf (seq, row)) = 1 := by
  obtain ⟨pages, events, hfollow, hvisited⟩ :=
    follow_first filter howner limit happend
  have hordered : (events.map viewOf).Pairwise fun a b => b.seq < a.seq :=
    List.pairwise_map.mpr hvisited.ordered
  refine ⟨pages, events, hfollow, hordered, ?_, ?_⟩
  · intro event hevent
    obtain ⟨⟨j, _, hfind⟩, _, hmatch⟩ := hvisited.shown event hevent
    exact ⟨hmatch, j, hfind⟩
  · intro seq row hfind hmatch
    have hmem := hvisited.complete seq row hfind (by simp) hmatch
    have hnodup : (events.map viewOf).Nodup := hordered.imp fun h heq => (heq ▸ h).ne rfl
    exact List.count_eq_one_of_mem hnodup (List.mem_map_of_mem hmem)

/-- The owner, in one of their stores. -/
def ownerScope : StoreScope := ⟨⟨3⟩, ⟨⟨7⟩, "Nena", "phone", none⟩⟩

/-- An event of the owner's account or of a store. -/
def eventOf (storeId : Option Uuid) (action : String) (at_ : Timestamp) : AuditRow :=
  ⟨⟨7⟩, storeId, none, "Nena", "phone", action, none, "null", at_, at_⟩

/-- Five events, of which one is another store's, and two sales recorded after
the first page. -/
def grownLog (i : ℕ) : Log :=
  let log := ((((Table.empty.put 1 (eventOf none "device_signed_out" 1)).put 2
    (eventOf (some ⟨3⟩) "sale_recorded" 2)).put 3 (eventOf (some ⟨4⟩) "sale_recorded" 3)).put 4
    (eventOf (some ⟨3⟩) "sale_voided" 4)).put 5 (eventOf (some ⟨3⟩) "product_saved" 5)
  if i = 0 then log
  else (log.put 6 (eventOf (some ⟨3⟩) "sale_recorded" 6)).put 7
    (eventOf (some ⟨3⟩) "sale_recorded" 7)

/-- The events of a log that grows are shown, two a page, and those of the first
moment once each. -/
theorem activity_paged_grown :
    ∃ (pages : ℕ) (events : List (ℕ × AuditRow)),
      follow grownLog ownerScope (some 2) .all pages 0 none = some (events.map viewOf) ∧
      (events.map viewOf).Pairwise (fun a b => b.seq < a.seq) ∧
      ∀ seq ∈ [1, 2, 4, 5], ∀ row, (grownLog 0).find? seq = some row →
        (events.map viewOf).count (viewOf (seq, row)) = 1 := by
  have happend : ∀ i, Appended (grownLog i) (grownLog (i + 1)) := by
    intro i seq row h
    cases i with
    | zero =>
      have hsix : seq ≠ 6 := by
        rintro rfl
        cases h
      have hseven : seq ≠ 7 := by
        rintro rfl
        cases h
      rw [grownLog, if_neg (by omega), Table.find?_put_ne _ _ hseven, Table.find?_put_ne _ _ hsix]
      exact h
    | succ i => exact h
  obtain ⟨pages, events, hfollow, hordered, _, honce⟩ :=
    activity_paged grownLog happend ownerScope rfl .all (some 2)
  refine ⟨pages, events, hfollow, hordered, fun seq hseq row hrow => honce seq row hrow ?_⟩
  have hready : ∀ seq ∈ [1, 2, 4, 5],
      ((grownLog 0).find? seq).all (ready ownerScope .all seq) = true := by decide +kernel
  have hthis := hready seq hseq
  rw [hrow, Option.all_some] at hthis
  exact ready_eq_true.mp hthis

end Kitaza.ActivityPaging
