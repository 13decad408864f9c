import Kitaza.Dashboard
import Kitaza.SyncPush
import Kitaza.Versions

/-!
# Remembered summaries

A summary is remembered for a short while under its store and what was asked
for. Reading it, computing it and remembering it are separate steps, and so
are a change of the store's records, reading which summaries are remembered
and forgetting them; the steps of any number of requests come in any order.

The server keeps, for the record, every earlier state of the database, and
each remembered summary the state it was computed from.
-/

namespace Kitaza.DashboardCache

open KeyedTable Primitives Access Schema Payloads BillingPlan ReportWindows Dashboard SyncPush
  Versions

/-- What a summary is asked for with. -/
structure DashboardQuery where
  /-- The period. -/
  period : ReportPeriod
  /-- The device's clock, in minutes east of UTC. -/
  utcOffsetMinutes : ℤ
  deriving DecidableEq, Repr

/-- The key of a summary in its store. -/
def DashboardQuery.cacheKey (query : DashboardQuery) : String :=
  "summary:" ++ (query.period.asCacheKey ++ (":" ++ toString query.utcOffsetMinutes))

/-- A remembered summary. -/
structure Entry where
  /-- The summary. -/
  summary : DashboardSummary
  /-- When it is forgotten by itself. -/
  expires : Timestamp
  /-- The state of the database it was computed from. -/
  version : ℕ
  deriving DecidableEq

/-- The remembered summaries, and for each store the keys of its summaries with
the instant that list is forgotten by itself. -/
structure Cache where
  /-- The summaries under their stores and keys. -/
  entries : Table (Uuid × String) Entry
  /-- The keys of each store. -/
  indexes : Table Uuid (Finset String × Timestamp)

namespace Cache

/-- Nothing is remembered. -/
def empty : Cache := ⟨Table.empty, Table.empty⟩

/-- Look for a summary. -/
def read (cache : Cache) (now : Timestamp) (storeId : Uuid) (scope : String) :
    Option DashboardSummary :=
  (cache.entries.find? (storeId, scope)).bind fun e =>
    if now < e.expires then some e.summary else none

/-- The keys listed for a store. -/
def members (cache : Cache) (now : Timestamp) (storeId : Uuid) : Finset String :=
  ((cache.indexes.find? storeId).map fun index =>
    if now < index.2 then index.1 else ∅).getD ∅

/-- Remember a summary and list its key; the list is kept four times as
long. -/
def write (cache : Cache) (ttlSeconds : ℕ) (now : Timestamp) (storeId : Uuid) (scope : String)
    (summary : DashboardSummary) (version : ℕ) : Cache where
  entries := cache.entries.put (storeId, scope) ⟨summary, now + ttlSeconds * SECOND, version⟩
  indexes := cache.indexes.put storeId
    (insert scope (cache.members now storeId), now + ttlSeconds * 4 * SECOND)

/-- Forget the summaries with some keys, and the list. -/
def delete (cache : Cache) (storeId : Uuid) (keys : Finset String) : Cache where
  entries := cache.entries.filter fun key _ => decide (¬ (key.1 = storeId ∧ key.2 ∈ keys))
  indexes := cache.indexes.filter fun id _ => decide (id ≠ storeId)

end Cache

/-- What a request asks for. -/
inductive Operation where
  /-- A store's summary. -/
  | summary (storeId : Uuid) (query : DashboardQuery)
  /-- A change of a store's records. -/
  | write (storeId : Uuid) (actor : Actor) (row : PushRow)
  deriving DecidableEq

/-- How a request ended. -/
inductive Outcome where
  /-- With a summary. -/
  | answered (summary : DashboardSummary)
  /-- The change is made. -/
  | done
  /-- The change was refused. -/
  | refused (error : ApiError)
  /-- It was broken off. -/
  | failed
  deriving DecidableEq

/-- How far a request has come: what it does next. -/
inductive Phase where
  /-- Look into the memory, or make the change. -/
  | begun
  /-- Compute the summary. -/
  | missed
  /-- Remember the summary computed from a state. -/
  | computed (summary : DashboardSummary) (version : ℕ)
  /-- Read which summaries of the store are remembered. -/
  | written
  /-- Forget them. -/
  | indexed (members : Finset String)
  | returned (outcome : Outcome)
  deriving DecidableEq

/-- A request. -/
structure Call where
  /-- What it asks for. -/
  operation : Operation
  /-- How far it has come. -/
  phase : Phase
  /-- The state its change led to. -/
  committedAt : Option ℕ
  deriving DecidableEq

/-- The server and its database. -/
structure State where
  /-- What is committed, and was before. -/
  data : Versioned Db
  /-- The time. -/
  clock : Timestamp
  /-- The remembered summaries. -/
  cache : Cache
  /-- The requests so far. -/
  calls : Table ℕ Call

/-- A server nobody has asked anything. -/
def State.initial (db : Db) : State := ⟨Versioned.initial db, 0, Cache.empty, Table.empty⟩

/-- What is committed. -/
def State.db (s : State) : Db := s.data.now

/-- What can happen next. -/
inductive Action where
  /-- A request arrives. -/
  | start (i : ℕ) (operation : Operation)
  /-- A request does its next step. -/
  | next (i : ℕ)
  /-- A request is broken off. -/
  | fail (i : ℕ)
  /-- Time passes. -/
  | wait (ticks : ℕ)
  deriving DecidableEq

/-- The summary of a store as a state of the database gives it. -/
def summaryOf (storeId : Uuid) (query : DashboardQuery) (now : Timestamp) (db : Db) :
    DashboardSummary :=
  compute storeId query.period (forPeriod query.period query.utcOffsetMinutes now) db

/-- Whether a change clears the memory of its store afterwards: saving and
removing products does not, and neither does a movement or a removal that was
made before. -/
def clearsCache (now : Timestamp) (storeId : Uuid) (actor : Actor) (row : PushRow) (db : Db) :
    Bool :=
  match row with
  | .product _ => false
  | .sale _ => true
  | .movement request =>
    (db.stockMovements.find? (request.id.getD (Uuid.newV4 db.stockMovements 0))).isNone
  | .expense _ => true
  | .withdrawal _ => true
  | .deletion request =>
    request.entity != "product" && (removeEntity now storeId actor request db).toOption.isSome

/-- A request that has come further. -/
def State.advance (s : State) (i : ℕ) (c : Call) (phase : Phase) : State :=
  { s with calls := s.calls.put i { c with phase := phase } }

/-- A change is committed. -/
def State.commit (s : State) (i : ℕ) (c : Call) (db : Db) (phase : Phase) : State :=
  let data := s.data.write db
  { s with
    data := data
    calls := s.calls.put i { c with phase := phase, committedAt := some data.version } }

/-- The next step of a request. -/
def advance (ttlSeconds : ℕ) (s : State) (i : ℕ) (c : Call) : Option State :=
  match c.operation, c.phase with
  | .summary storeId query, .begun =>
    match s.cache.read s.clock storeId query.cacheKey with
    | some cached => some (s.advance i c (.returned (.answered cached)))
    | none => some (s.advance i c .missed)
  | .summary storeId query, .missed =>
    some (s.advance i c (.computed (summaryOf storeId query s.clock s.db) s.data.version))
  | .summary storeId query, .computed summary version =>
    some { s.advance i c (.returned (.answered summary)) with
      cache := s.cache.write ttlSeconds s.clock storeId query.cacheKey summary version }
  | .write storeId actor row, .begun =>
    match row.apply s.clock storeId actor s.db with
    | .error e => some (s.advance i c (.returned (.refused e)))
    | .ok (_, db) =>
      if clearsCache s.clock storeId actor row s.db then some (s.commit i c db .written)
      else some (s.commit i c db (.returned .done))
  | .write storeId _ _, .written =>
    some (s.advance i c (.indexed (s.cache.members s.clock storeId)))
  | .write storeId _ _, .indexed members =>
    some { s.advance i c (.returned .done) with cache := s.cache.delete storeId members }
  | _, _ => none

/-- The phases a request has ended in. -/
def Phase.ended : Phase → Bool
  | .returned _ => true
  | _ => false

/-- One step. -/
def step (ttlSeconds : ℕ) (s : State) : Action → Option State
  | .start i operation =>
    match s.calls.find? i with
    | some _ => none
    | none => some { s with calls := s.calls.put i ⟨operation, .begun, none⟩ }
  | .next i =>
    match s.calls.find? i with
    | none => none
    | some c => advance ttlSeconds s i c
  | .fail i =>
    match s.calls.find? i with
    | none => none
    | some c => if c.phase.ended then none else some (s.advance i c (.returned .failed))
  | .wait ticks => some { s with clock := s.clock + ticks }

/-- Steps one after another. -/
def run (ttlSeconds : ℕ) (s : State) : List Action → Option State
  | [] => some s
  | a :: rest => (step ttlSeconds s a).bind fun s' => run ttlSeconds s' rest

end Kitaza.DashboardCache
