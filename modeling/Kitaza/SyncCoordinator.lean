import Kitaza.OutboxDelivery

/-!
# Sync cycles over a server that refuses some stores

A cycle sends the outbox in batches of the oldest rows, one request a store,
and then downloads. A request that fails as a whole ends the uploading of
that cycle: the batches are cut by age, so the same request comes first in
the next cycle again, whatever the stores behind it are waiting for.

What the outbox still has to hear about it is counted in refusals to come;
a cycle lowers the count exactly when its first request is answered.
-/

namespace Kitaza.SyncCoordinator

open KeyedTable Primitives SyncQueue OutboxDelivery

/-- What went wrong, in the terms the app acts on. -/
inductive FailureKind where
  | offline
  | server
  | unauthorized
  | rejected
  | paused
  deriving DecidableEq, Repr

/-- A failure already translated into something worth showing an owner. -/
structure AppFailure where
  /-- The message shown. -/
  message : String
  /-- What went wrong. -/
  kind : FailureKind
  /-- The server's machine-readable error code. -/
  code : Option String
  deriving DecidableEq, Repr

/-- Whether waiting and trying again could succeed. -/
def AppFailure.isTransient (failure : AppFailure) : Bool :=
  failure.kind == .offline || failure.kind == .server

/-- The failure of a phone with no network. -/
def AppFailure.offline : AppFailure :=
  ⟨"You are offline. Your entry is saved on this device and will sync when you reconnect.",
    .offline, none⟩

/-- The failure of a session the server no longer honours. -/
def AppFailure.unauthorized : AppFailure :=
  ⟨"Your session expired. Please sign in again.", .unauthorized, none⟩

/-- Where a request failed. -/
inductive DioExceptionType where
  | connectionTimeout
  | sendTimeout
  | receiveTimeout
  | connectionError
  | badResponse
  | other
  deriving DecidableEq, Repr

/-- A request that failed: how, and what the response said if there was one. -/
structure DioException where
  /-- Where it failed. -/
  type : DioExceptionType
  /-- The status of the response. -/
  status : Option ℕ
  /-- The error code in its body. -/
  code : Option String
  /-- The error message in its body. -/
  message : Option String
  deriving DecidableEq, Repr

/-- The message shown for a refusal. -/
def messageFrom (error : DioException) : String :=
  match error.message with
  | some message => if message = "" then "Something went wrong. Please try again." else message
  | none => "Something went wrong. Please try again."

/-- Turn a transport failure into a message an owner can act on. A 401 to a
request without a token means a wrong password. -/
def translate (anonymous : Bool) (error : DioException) : AppFailure :=
  match error.type with
  | .connectionTimeout | .sendTimeout | .receiveTimeout | .connectionError => .offline
  | .badResponse | .other =>
    if error.status = some 401 ∧ anonymous = false then .unauthorized
    else if error.status = some 402 ∧ error.code = some "subscription_required" then
      ⟨messageFrom error, .paused, some "subscription_required"⟩
    else if error.status.any (500 ≤ ·) then
      ⟨"The Kitaza server is having trouble.", .server, none⟩
    else ⟨messageFrom error, .rejected, error.code⟩

/-- How the server answers the requests of a cycle. -/
structure Server (α : Type*) where
  /-- The answer to the changes pushed to a store. -/
  push : Uuid → List (QueuedChange α) → Except DioException Answer
  /-- Whether downloading a store wrote any row. -/
  pull : Uuid → Except DioException Bool

/-- Rows of one push. -/
def pushBatchSize : ℕ := 200

/-- Pushes of one cycle. -/
def maxPushBatches : ℕ := 50

/-- Read the answer for each change of a request: refusals are counted, and
the rows accepted are collected. -/
def readAnswer {α : Type*} (answer : Answer) :
    List (QueuedChange α) → Queue α → Queue α × List ℕ
  | [], q => (q, [])
  | change :: changes, q =>
    match answer.rejected (key change) with
    | some reason => readAnswer answer changes (recordFailure change.rowId reason q)
    | none =>
      let rest := readAnswer answer changes q
      if answer.applied (key change) then (rest.1, change.rowId :: rest.2) else rest

/-- Push one store's changes and clear what was accepted. -/
def pushStore {α : Type*} (server : Server α) (storeId : Uuid) (changes : List (QueuedChange α))
    (q : Queue α) : Except AppFailure (Queue α × Bool) :=
  match server.push storeId changes with
  | .error error => .error (translate false error)
  | .ok answer =>
    let read := readAnswer answer changes q
    .ok (clearRows read.2 read.1, !read.2.isEmpty)

/-- Push the changes of a batch store by store. A push that fails leaves the
loop; what the stores before it were answered stays done. -/
def pushStores {α : Type*} (server : Server α) :
    List (Uuid × List (QueuedChange α)) → Bool → Queue α → Queue α × Except AppFailure Bool
  | [], acceptedAny, q => (q, .ok acceptedAny)
  | (storeId, changes) :: rest, acceptedAny, q =>
    match pushStore server storeId changes q with
    | .error failure => (q, .error failure)
    | .ok (q', accepted) => pushStores server rest (acceptedAny || accepted) q'

/-- Push batch after batch while something gets through. -/
def pushBatches {α : Type*} (server : Server α) (activeStoreId : Uuid) :
    ℕ → Queue α → Queue α × Except AppFailure Unit
  | 0, q => (q, .ok ())
  | batches + 1, q =>
    match pending pushBatchSize q with
    | [] => (q, .ok ())
    | change :: changes =>
      match pushStores server (byStore activeStoreId (change :: changes)) false q with
      | (q', .error failure) => (q', .error failure)
      | (q', .ok false) => (q', .ok ())
      | (q', .ok true) => pushBatches server activeStoreId batches q'

/-- Send every store's queued changes to that store, whichever is open. -/
def pushOutbox {α : Type*} (server : Server α) (activeStoreId : Uuid) (q : Queue α) :
    Queue α × Except AppFailure Unit :=
  pushBatches server activeStoreId maxPushBatches q

/-- What the sync indicator shows. -/
inductive SyncPhase where
  | idle
  | syncing
  | offline
  | failed
  | paused
  deriving DecidableEq, Repr

/-- The coordinator and the outbox it drains. Times are in microseconds. -/
structure Coordinator (α : Type*) where
  /-- Whether the phone keeps its data in the cloud. -/
  isCloud : Bool
  /-- The open store. -/
  activeStoreId : Option Uuid
  /-- The outbox. -/
  outbox : Queue α
  /-- Set when the server refuses this phone's session. -/
  sessionLost : Bool
  /-- Failed cycles since the last good one. -/
  consecutiveFailures : ℕ
  /-- No cycle of its own accord before this. -/
  retryAfter : Option ℤ
  /-- What the indicator shows. -/
  phase : SyncPhase
  /-- When a cycle last went through. -/
  lastSyncedAt : Option ℤ
  /-- What the last failed cycle reported. -/
  lastError : Option String

/-- Whether cycles run at all. -/
def Coordinator.enabled {α : Type*} (s : Coordinator α) : Bool :=
  !s.sessionLost && s.isCloud && s.activeStoreId.isSome

/-- The longest pause between cycles. -/
def maxBackoff : ℤ := 15 * 60 * 1000000

/-- The first pause after a failure. -/
def firstBackoff : ℤ := 30 * 1000000

/-- The whole part of two to a power: powers wrap at 64 bits, and nothing is
left of a half. -/
def powToInt : ℤ → ℤ
  | .ofNat n => Int.bmod (2 ^ n) (2 ^ 64)
  | .negSucc _ => 0

/-- The pause after so many failures: thirty seconds, doubled each time, in
the wrapping arithmetic of 64-bit integers. -/
def backoffFor (failures : ℕ) : ℤ :=
  let doubled := Int.bmod (firstBackoff * powToInt (failures - 1)) (2 ^ 64)
  if maxBackoff < doubled then maxBackoff else doubled

/-- One call for a cycle: by the owner or the network coming back, or by the
timer. -/
structure Call where
  /-- Skip the pause after a failure. -/
  force : Bool
  /-- The phone's clock. -/
  now : ℤ
  deriving DecidableEq, Repr

/-- A cycle that ended in a failure. -/
def fail {α : Type*} (failure : AppFailure) (now : ℤ) (s : Coordinator α) : Coordinator α :=
  match failure.kind with
  | .paused =>
    { s with
      retryAfter := some (now + maxBackoff)
      phase := .paused
      lastError := none }
  | kind =>
    { s with
      sessionLost := s.sessionLost || kind == .unauthorized
      consecutiveFailures := s.consecutiveFailures + 1
      retryAfter := some (now + backoffFor (s.consecutiveFailures + 1))
      phase := if failure.isTransient then .offline else .failed
      lastError := some failure.message }

/-- The download after the uploads, and the end of the cycle. -/
def finish {α : Type*} (server : Server α) (storeId : Uuid) (uploadsPaused : Bool) (now : ℤ)
    (s : Coordinator α) : Coordinator α :=
  match server.pull storeId with
  | .error error => fail (translate false error) now s
  | .ok _ =>
    { s with
      consecutiveFailures := 0
      retryAfter := if uploadsPaused then some (now + maxBackoff) else none
      phase := if uploadsPaused then .paused else .idle
      lastSyncedAt := some now
      lastError := none }

/-- One cycle. A paused account still downloads; any other failed push ends
the cycle. -/
def syncNow {α : Type*} (server : Server α) (call : Call) (s : Coordinator α) : Coordinator α :=
  match s.enabled, s.activeStoreId with
  | true, some storeId =>
    if !call.force && s.retryAfter.any (call.now < ·) then s
    else
      match pushOutbox server storeId s.outbox with
      | (outbox, .ok ()) => finish server storeId false call.now { s with outbox := outbox }
      | (outbox, .error failure) =>
        if failure.kind = .paused then
          finish server storeId true call.now { s with outbox := outbox }
        else fail failure call.now { s with outbox := outbox }
  | _, _ => s

/-- One call after another. -/
def run {α : Type*} (server : Server α) (calls : List Call) (s : Coordinator α) : Coordinator α :=
  calls.foldl (fun s call => syncNow server call s) s

end Kitaza.SyncCoordinator
