import Mathlib.Data.List.Basic
import Kitaza.BroadcastChannel
import Kitaza.SessionDirectory
import Kitaza.StoreLimit
import Kitaza.Versions

/-!
# The live events of a store

Every instance of the server keeps a channel for each store and hands its
events to the sockets attached to it. What one instance publishes reaches the
others through Redis, as long as their bridge listens. A socket is opened for
a session the instance trusts, and the session is looked at again with every
keepalive.
-/

namespace Kitaza.Realtime

open BroadcastChannel KeyedTable Primitives SessionDirectory Versions

/-- What changed. -/
inductive RealtimeTopic where
  | saleRecorded
  | saleVoided
  | expenseRecorded
  | expenseRemoved
  | withdrawalRecorded
  | productChanged
  | stockLow
  | dashboardStale
  | accessChanged
  deriving DecidableEq, Repr

/-- An event of a store. -/
structure RealtimeEvent where
  /-- The store. -/
  storeId : Uuid
  /-- What changed. -/
  topic : RealtimeTopic
  /-- The record it is about. -/
  entityId : Option Uuid
  /-- A text to show. -/
  message : Option String
  /-- When it was published. -/
  emittedAt : Timestamp
  deriving DecidableEq, Repr

/-- How many events a channel keeps. -/
def CHANNEL_CAPACITY : ℕ := 128

/-- What is sent over a socket. -/
inductive Frame where
  /-- An event, as JSON. -/
  | event (e : RealtimeEvent)
  /-- The notice to a client that fell behind. -/
  | stale
  | ping
  | close
  deriving DecidableEq, Repr

/-- The frame a read of the channel leads to. -/
def frameOf : Received RealtimeEvent → Frame
  | .value e => .event e
  | .lagged _ => .stale

/-- A frame that comes from the channel. -/
def Frame.isText : Frame → Bool
  | .event _ => true
  | .stale => true
  | _ => false

/-- How far a socket has come. -/
inductive Phase where
  /-- The handshake was accepted. -/
  | accepted
  /-- It is subscribed to its store's channel. -/
  | pumping
  | closed
  deriving DecidableEq, Repr

/-- A socket. -/
structure Socket (ι : Type) where
  /-- The instance it is attached to. -/
  host : ι
  /-- The store. -/
  storeId : Uuid
  /-- The session it was opened for. -/
  sessionId : Uuid
  /-- How far it has come. -/
  phase : Phase
  /-- The connection is gone, which the server learns when it sends. -/
  broken : Bool
  /-- The position it subscribed at. -/
  start : ℕ
  /-- The position it reads next. -/
  next : ℕ
  /-- What it was given. -/
  received : List (Received RealtimeEvent)
  /-- What it sent. -/
  frames : List Frame
  deriving DecidableEq, Repr

namespace Socket

variable {ι : Type}

/-- A socket whose handshake was accepted. -/
def opened (host : ι) (storeId sessionId : Uuid) : Socket ι :=
  ⟨host, storeId, sessionId, .accepted, false, 0, 0, [], []⟩

/-- `pump_events` begins: subscribe at the end of the channel. -/
def subscribe (channel : List RealtimeEvent) (a : Socket ι) : Socket ι :=
  if a.phase = .accepted then
    { a with phase := .pumping, start := channel.length, next := channel.length }
  else a

/-- `pump_events`, the branch of the channel. -/
def read (channel : List RealtimeEvent) (a : Socket ι) : Socket ι :=
  if a.phase = .pumping then
    match recv CHANNEL_CAPACITY channel a.next with
    | none => a
    | some (.value e, next) =>
      if a.broken then
        { a with phase := .closed, next := next, received := a.received ++ [.value e] }
      else
        { a with
          next := next
          received := a.received ++ [.value e]
          frames := a.frames ++ [.event e] }
    | some (.lagged missed, next) =>
      { a with
        next := next
        received := a.received ++ [.lagged missed]
        frames := if a.broken then a.frames else a.frames ++ [.stale] }
  else a

/-- `pump_events`, the branch of the keepalive. -/
def check (found : Option SessionActor) (a : Socket ι) : Socket ι :=
  if a.phase = .pumping then
    if found.isNone then
      { a with phase := .closed, frames := if a.broken then a.frames else a.frames ++ [.close] }
    else if a.broken then { a with phase := .closed }
    else { a with frames := a.frames ++ [.ping] }
  else a

/-- `pump_events`, the client hanging up. -/
def hangUp (a : Socket ι) : Socket ι := { a with phase := .closed }

/-- The connection is gone. -/
def lose (a : Socket ι) : Socket ι := { a with broken := true }

end Socket

/-- A look at a session that has read the database. -/
structure Lookup (ι : Type) where
  /-- The instance. -/
  host : ι
  /-- The session. -/
  sessionId : Uuid
  /-- When it read. -/
  readAt : Timestamp
  /-- What it found. -/
  actor : Option SessionActor

/-- The instances, what is between them, and the sockets attached to them. -/
structure State (ι : Type) where
  /-- The clock. -/
  now : Timestamp
  /-- The database and what it was. -/
  data : Versioned Db
  /-- What each instance remembers of sessions. -/
  memory : ι → Remembered
  /-- The owners and stores each instance has confirmed. -/
  confirmed : ι → Finset (Uuid × Uuid)
  /-- Looks at sessions that are about to be remembered. -/
  lookups : List (Lookup ι)
  /-- What was sent to each channel of each instance. -/
  channels : ι → Uuid → List RealtimeEvent
  /-- What Redis carried. -/
  redis : List RealtimeEvent
  /-- How far each bridge has read; none if it does not listen. -/
  bridges : ι → Option ℕ
  /-- The sockets, in the order they were opened. -/
  sockets : List (Socket ι)

/-- Where an answer about a session comes from. -/
inductive Source where
  /-- The instance remembers it. -/
  | memory
  /-- A look has just read it. -/
  | lookup (n : ℕ)
  /-- The database could not be asked. -/
  | failure
  deriving DecidableEq, Repr

/-- What happens next. -/
inductive Action (ι : Type) where
  /-- Time passes. -/
  | wait (micros : ℕ)
  /-- Anything is written to the database. -/
  | commit (db : Db)
  /-- A request looks at a session. -/
  | look (host : ι) (sessionId : Uuid)
  /-- What it read is remembered. -/
  | remember (n : ℕ)
  /-- An instance forgets all sessions. -/
  | forget (host : ι)
  /-- A request of an owner confirms a store. -/
  | confirm (host : ι) (ownerId storeId : Uuid)
  /-- An event is published, and carried by Redis or not. -/
  | publish (host : ι) (e : RealtimeEvent) (carried : Bool)
  /-- A bridge reads the next message. -/
  | bridge (host : ι)
  /-- A bridge stops. -/
  | unbridge (host : ι)
  /-- A handshake. -/
  | upgrade (host : ι) (sessionId storeId : Uuid) (source : Source)
  /-- A socket subscribes. -/
  | subscribe (k : ℕ)
  /-- A socket reads its channel. -/
  | read (k : ℕ)
  /-- A keepalive. -/
  | tick (k : ℕ) (source : Source)
  /-- A client hangs up. -/
  | hangUp (k : ℕ)
  /-- A connection breaks. -/
  | lose (k : ℕ)

section

variable {ι : Type} [DecidableEq ι]

namespace State

/-- Servers nobody is attached to, with the bridges that listen. -/
def initial (db : Db) (listening : ι → Bool) : State ι :=
  ⟨0, .initial db, fun _ => Table.empty, fun _ => ∅, [], fun _ _ => [], [],
    fun host => if listening host then some 0 else none, []⟩

/-- `SessionDirectory::resolve`: the answer about a session, if there is one
yet. -/
def resolve (s : State ι) (host : ι) (sessionId : Uuid) : Source → Option (Option SessionActor)
  | .memory => remembered (s.memory host) sessionId s.now
  | .lookup n => s.lookups[n]?.bind fun look =>
      if look.host = host ∧ look.sessionId = sessionId then some look.actor else none
  | .failure => some none

/-- A look is over, and what it read is remembered. -/
def remember (s : State ι) (n : ℕ) : State ι :=
  match s.lookups[n]? with
  | none => s
  | some look =>
    { s with
      memory := Function.update s.memory look.host
        (SessionDirectory.remember (s.memory look.host) look.sessionId s.now look.actor)
      lookups := s.lookups.eraseIdx n }

/-- An answer leaves its trace. -/
def learn (s : State ι) : Source → State ι
  | .lookup n => s.remember n
  | _ => s

/-- `StoreDirectory::assert_owner_of`, what is remembered of it. -/
def confirm (s : State ι) (host : ι) (ownerId storeId : Uuid) : State ι :=
  if s.data.now.stores.find? storeId = some ownerId then
    { s with
      confirmed := Function.update s.confirmed host
        (insert (ownerId, storeId) (s.confirmed host)) }
  else s

/-- `authorise`. -/
def authorise (s : State ι) (host : ι) (actor : SessionActor) (storeId : Uuid) : Bool :=
  match actor.storeId with
  | some granted => granted == storeId
  | none => decide ((actor.actor.ownerId, storeId) ∈ s.confirmed host) ||
      s.data.now.stores.find? storeId == some actor.actor.ownerId

/-- `check_store_request` for a request that takes no entries. -/
def staffCovered (settings : StoreLimit.Settings) (s : State ι) (actor : SessionActor) : Bool :=
  actor.storeId.isNone || (StoreLimit.standing settings actor.subscription s.now).allowsStaff

/-- A store's channel of an instance with one more event. -/
def publishLocally (s : State ι) (host : ι) (e : RealtimeEvent) : State ι :=
  { s with
    channels := Function.update s.channels host
      (Function.update (s.channels host) e.storeId (s.channels host e.storeId ++ [e])) }

/-- `EventBroadcaster::publish`. -/
def publish (s : State ι) (host : ι) (e : RealtimeEvent) (carried : Bool) : State ι :=
  { s.publishLocally host e with redis := if carried then s.redis ++ [e] else s.redis }

/-- `spawn_cross_instance_bridge`, one message. -/
def bridge (s : State ι) (host : ι) : State ι :=
  match s.bridges host with
  | none => s
  | some next =>
    match s.redis[next]? with
    | none => s
    | some e =>
      { s.publishLocally host e with
        bridges := Function.update s.bridges host (some (next + 1)) }

/-- `upgrade_connection`. -/
def upgrade (settings : StoreLimit.Settings) (s : State ι) (host : ι) (sessionId storeId : Uuid)
    (source : Source) : State ι :=
  match s.resolve host sessionId source with
  | some (some actor) =>
    if s.authorise host actor storeId then
      let known := (s.learn source).confirm host actor.actor.ownerId storeId
      if s.staffCovered settings actor then
        { known with sockets := known.sockets ++ [Socket.opened host storeId sessionId] }
      else known
    else s.learn source
  | _ => s.learn source

/-- One socket goes on. -/
def withSocket (s : State ι) (k : ℕ) (f : Socket ι → Socket ι) : State ι :=
  { s with sockets := s.sockets.modify k f }

/-- The keepalive of a socket, once its session has been looked at. -/
def tick (s : State ι) (k : ℕ) (source : Source) : State ι :=
  match s.sockets[k]? with
  | none => s
  | some a =>
    match s.resolve a.host a.sessionId source with
    | none => s
    | some found => (s.learn source).withSocket k (Socket.check found)

end State

/-- The channel of a socket. -/
def State.channelOf (s : State ι) (a : Socket ι) : List RealtimeEvent := s.channels a.host a.storeId

/-- One step. -/
def step (settings : StoreLimit.Settings) (s : State ι) : Action ι → State ι
  | .wait micros => { s with now := s.now + micros }
  | .commit db => { s with data := s.data.write db }
  | .look host sessionId =>
    { s with
      lookups := s.lookups ++ [⟨host, sessionId, s.now, s.data.now.describe sessionId⟩] }
  | .remember n => s.remember n
  | .forget host => { s with memory := Function.update s.memory host Table.empty }
  | .confirm host ownerId storeId => s.confirm host ownerId storeId
  | .publish host e carried => s.publish host e carried
  | .bridge host => s.bridge host
  | .unbridge host => { s with bridges := Function.update s.bridges host none }
  | .upgrade host sessionId storeId source => s.upgrade settings host sessionId storeId source
  | .subscribe k => s.withSocket k fun a => a.subscribe (s.channelOf a)
  | .read k => s.withSocket k fun a => a.read (s.channelOf a)
  | .tick k source => s.tick k source
  | .hangUp k => s.withSocket k Socket.hangUp
  | .lose k => s.withSocket k Socket.lose

/-- A run. -/
def run (settings : StoreLimit.Settings) (s : State ι) (actions : List (Action ι)) : State ι :=
  actions.foldl (step settings) s

end

end Kitaza.Realtime
