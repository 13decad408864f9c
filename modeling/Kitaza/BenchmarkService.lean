import Kitaza.Benchmarks
import Kitaza.Versions

/-!
# Comparisons that are asked for

Any number of stores ask for comparisons, one database statement or one look
into the memory of medians at a time, while sales are made and owners change
what they share. Medians that enough stores stand behind are remembered for
six hours under the kind and size of the store that asked.

The server keeps, for the record, every earlier state of the database, and with
remembered medians which question they answered.
-/

namespace Kitaza.BenchmarkService

open KeyedTable Primitives BillingPlan Rounding Benchmarks Versions

/-- No comparison is shown until this many other stores stand behind it. -/
def MINIMUM_PEERS : ℕ := 20

/-- How long medians are remembered. -/
def MEDIAN_FRESH_FOR : ℤ := 6 * 60 * 60 * SECOND

/-- The question that medians answered. -/
structure Computation where
  /-- The store that asked. -/
  askedBy : Uuid
  /-- The kind of business. -/
  businessType : String
  /-- The size. -/
  band : SizeBand
  /-- When. -/
  now : Timestamp
  /-- The state of the database. -/
  version : ℕ
  deriving DecidableEq

/-- The remembered medians under a kind of business and a size, with the instant
they were remembered. -/
abbrev Cached := Table (String × String) (Timestamp × PeerMedians × Computation)

/-- The medians that are remembered and still fresh. -/
def remembered (medians : Cached) (key : String × String) (now : Timestamp) :
    Option (PeerMedians × Computation) :=
  (medians.find? key).bind fun entry =>
    if now - entry.1 < MEDIAN_FRESH_FOR then some entry.2 else none

/-- Why there is nothing to show. -/
inductive NoComparison where
  | tooFewStores
  | tooLittleHistory
  | sharingOff
  deriving DecidableEq, Repr

/-- One figure of the store's, beside what similar stores show. -/
structure Comparison where
  /-- Which figure. -/
  metric : String
  /-- The store's. -/
  yours : ℚ
  /-- The median. -/
  typical : ℚ
  deriving DecidableEq, Repr

/-- What is shown. -/
structure BenchmarkReport where
  /-- Why there is nothing to show; absent if there is something. -/
  unavailableBecause : Option NoComparison
  /-- How many other stores the medians come from. -/
  sampleSize : ℕ
  /-- The kind of business. -/
  businessType : Option String
  /-- The size. -/
  sizeBand : Option SizeBand
  /-- The figures. -/
  comparisons : List Comparison
  deriving DecidableEq, Repr

/-- A comparison is shown. -/
def BenchmarkReport.available (report : BenchmarkReport) : Bool := report.unavailableBecause.isNone

/-- There is nothing to show. -/
def BenchmarkReport.unavailable (reason : NoComparison) : BenchmarkReport :=
  ⟨some reason, 0, none, none, []⟩

/-- A figure with one decimal. -/
def rounded (value : ℚ) : ℚ := roundHalfAway (value * 10) / 10

/-- The figures that both sides have. -/
def comparisons (month : StoreMonth) (medians : PeerMedians) : List Comparison :=
  [("gross_margin_percent", month.marginPercent, medians.marginPercent),
    ("expense_percent", month.expensePercent, medians.expensePercent),
    ("daily_sales", some month.dailySales, medians.dailySales)].filterMap
      fun (metric, yours, typical) =>
        yours.bind fun yours => typical.map fun typical =>
          ⟨metric, rounded yours, rounded typical⟩

/-- What is shown of some medians. -/
def reportOf (month : StoreMonth) (businessType : String) (medians : PeerMedians) :
    BenchmarkReport where
  unavailableBecause := none
  sampleSize := medians.sampleSize
  businessType := some businessType
  sizeBand := some (SizeBand.of month.salesTotal)
  comparisons := comparisons month medians

/-- How far a request has come: what it does next. -/
inductive Phase where
  /-- Read the store's month, if it shares its figures. -/
  | begun
  /-- Read what kind of business it is. -/
  | measured (month : StoreMonth)
  /-- Look for remembered medians. -/
  | typed (month : StoreMonth) (businessType : String)
  /-- Ask the database for them. -/
  | asking (month : StoreMonth) (businessType : String)
  /-- Remember them, if there are enough stores, and answer. -/
  | asked (month : StoreMonth) (businessType : String) (medians : PeerMedians)
      (computation : Computation)
  /-- A comparison was shown, over medians that had answered some question. -/
  | compared (report : BenchmarkReport) (month : StoreMonth) (medians : PeerMedians)
      (computation : Computation)
  /-- There was nothing to show. -/
  | refused (report : BenchmarkReport)
  /-- It was broken off. -/
  | failed
  deriving DecidableEq

/-- A request. -/
structure Call where
  /-- The store that asks. -/
  storeId : Uuid
  /-- Whether it shares its figures. -/
  shares : Bool
  /-- How far it has come. -/
  phase : Phase
  deriving DecidableEq

/-- The server and its database. -/
structure State where
  /-- What is committed, and was before. -/
  data : Versioned Db
  /-- The time. -/
  clock : Timestamp
  /-- The remembered medians. -/
  medians : Cached
  /-- The requests so far. -/
  calls : Table ℕ Call

/-- A server nobody has asked anything. -/
def State.initial (db : Db) : State := ⟨Versioned.initial db, 0, Table.empty, Table.empty⟩

/-- What is committed. -/
def State.db (s : State) : Db := s.data.now

/-- What can happen next. -/
inductive Action where
  /-- A store asks for a comparison. -/
  | start (i : ℕ) (storeId : Uuid) (shares : Bool)
  /-- A request does its next step. -/
  | next (i : ℕ)
  /-- A request is broken off. -/
  | fail (i : ℕ)
  /-- Sales, expenses or what is shared change. -/
  | change (db : Db)
  /-- Time passes. -/
  | wait (ticks : ℕ)

/-- A request that has come further. -/
def State.advance (s : State) (i : ℕ) (c : Call) (phase : Phase) : State :=
  { s with calls := s.calls.put i { c with phase := phase } }

/-- The phase after the medians are there. -/
def publish (month : StoreMonth) (businessType : String) (medians : PeerMedians)
    (computation : Computation) : Phase :=
  if medians.sampleSize < MINIMUM_PEERS then .refused (.unavailable .tooFewStores)
  else .compared (reportOf month businessType medians) month medians computation

/-- The next step of a request. -/
def advance (s : State) (i : ℕ) (c : Call) : Option State :=
  match c.phase with
  | .begun =>
    if c.shares then
      let month := storeMonth c.storeId s.clock s.db
      if month.isTrading then some (s.advance i c (.measured month))
      else some (s.advance i c (.refused (.unavailable .tooLittleHistory)))
    else some (s.advance i c (.refused (.unavailable .sharingOff)))
  | .measured month =>
    match s.db.stores.find? c.storeId with
    | some st => some (s.advance i c (.typed month st.businessType))
    | none => some (s.advance i c .failed)
  | .typed month businessType =>
    match remembered s.medians (businessType, (SizeBand.of month.salesTotal).asStr) s.clock with
    | some (medians, computation) =>
      some (s.advance i c (publish month businessType medians computation))
    | none => some (s.advance i c (.asking month businessType))
  | .asking month businessType =>
    let band := SizeBand.of month.salesTotal
    let medians := peerMedians c.storeId businessType band s.clock s.db
    some (s.advance i c (.asked month businessType medians
      ⟨c.storeId, businessType, band, s.clock, s.data.version⟩))
  | .asked month businessType medians computation =>
    let key := (businessType, (SizeBand.of month.salesTotal).asStr)
    some { s.advance i c (publish month businessType medians computation) with
      medians :=
        if MINIMUM_PEERS ≤ medians.sampleSize then
          s.medians.put key (s.clock, medians, computation)
        else s.medians }
  | .compared _ _ _ _ => none
  | .refused _ => none
  | .failed => none

/-- The phases a request has ended in. -/
def Phase.ended : Phase → Bool
  | .compared _ _ _ _ => true
  | .refused _ => true
  | .failed => true
  | _ => false

/-- One step. -/
def step (s : State) : Action → Option State
  | .start i storeId shares =>
    match s.calls.find? i with
    | some _ => none
    | none => some { s with calls := s.calls.put i ⟨storeId, shares, .begun⟩ }
  | .next i =>
    match s.calls.find? i with
    | none => none
    | some c => advance s i c
  | .fail i =>
    match s.calls.find? i with
    | none => none
    | some c => if c.phase.ended then none else some (s.advance i c .failed)
  | .change db => some { s with data := s.data.write db }
  | .wait ticks => some { s with clock := s.clock + ticks }

/-- Steps one after another. -/
def run (s : State) : List Action → Option State
  | [] => some s
  | a :: rest => (step s a).bind fun s' => run s' rest

end Kitaza.BenchmarkService
