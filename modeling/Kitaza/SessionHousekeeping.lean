import Kitaza.SessionServer

/-!
# Session housekeeping

Signing in clears away tokens that cannot be exchanged any more and sessions
that have no token left. One operation after another, with housekeeping
anywhere in between, compared with the same operations without it: nothing
that is cleared away can be exchanged again, but an old token still signs
its session out as long as it is there.
-/

namespace Kitaza.SessionHousekeeping

open KeyedTable Primitives Access BillingPlan SessionDirectory SessionServer

/-- The server and its database. -/
structure State where
  /-- The tables. -/
  db : Db
  /-- When sessions were opened, those included that are gone. -/
  createdAt : Table Uuid Timestamp
  /-- The tokens drawn so far. -/
  drawn : Finset String
  /-- The time. -/
  clock : Timestamp
  /-- What is remembered of sessions. -/
  resolved : Remembered

/-- A server without sessions. -/
def State.initial (db : Db) (clock : Timestamp) : State where
  db := { db with sessions := Table.empty, tokens := Table.empty }
  createdAt := Table.empty
  drawn := ∅
  clock := clock
  resolved := Table.empty

/-- What can be asked of the server. -/
inductive Operation where
  /-- A session is opened under the id that was drawn for it. -/
  | openSession (id ownerId : Uuid) (staffId : Option Uuid) (deviceName : String)
  /-- A token is stored for a session. -/
  | storeRefreshToken (actor : SessionActor) (tokenHash : String)
  /-- A token is exchanged; `fresh` is the one that may be drawn for it. -/
  | refresh (tokenHash fresh : String)
  /-- A session is looked up. -/
  | resolve (sessionId : Uuid)
  /-- A device signs out. -/
  | logout (tokenHash : String)
  /-- An owner signs a device out from elsewhere. -/
  | revoke (ownerId sessionId : Uuid)
  /-- Time passes. -/
  | wait (ticks : ℕ)
  /-- Housekeeping. -/
  | purgeDeadSessions (ownerId : Uuid)
  deriving DecidableEq

/-- Whether an operation is housekeeping. -/
def Operation.isPurge : Operation → Bool
  | .purgeDeadSessions _ => true
  | _ => false

/-- The person behind a session, looked up unless remembered. -/
def resolve (resolved : Remembered) (db : Db) (sessionId : Uuid) (now : Timestamp) :
    Remembered × Option SessionActor :=
  match remembered resolved sessionId now with
  | some actor => (resolved, actor)
  | none => (remember resolved sessionId now (db.describe sessionId), db.describe sessionId)

/-- Some sessions are signed out, and their tokens revoked. -/
def signOut (db : Db) (ended : Finset Uuid) (now : Timestamp) : Db :=
  writeAll db ⟨∅, ended, liveTokens db ended, ∅, now⟩

/-- The sessions that a device signs out of. -/
def endedByToken (db : Db) (tokenHash : String) : Finset Uuid :=
  match db.tokens.find? tokenHash with
  | some token => liveSessions db {token.sessionId}
  | none => ∅

/-- The sessions that an owner signs out. -/
def endedByOwner (db : Db) (ownerId sessionId : Uuid) : Finset Uuid :=
  match db.sessions.find? sessionId with
  | some row =>
    if row.ownerId = ownerId ∧ row.revokedAt = none ∧ (db.owners.find? ownerId).isSome then
      {sessionId}
    else ∅
  | none => ∅

/-- A token that housekeeping clears away. -/
def Dead (now : Timestamp) (token : RefreshToken) : Prop :=
  token.expiresAt < now ∨ (∃ revoked ∈ token.revokedAt, revoked < now - 7 * DAY) ∨
    ∃ rotated ∈ token.rotatedAt, rotated < now - 7 * DAY

instance (now : Timestamp) (token : RefreshToken) : Decidable (Dead now token) :=
  inferInstanceAs (Decidable (_ ∨ _ ∨ _))

/-- The tokens that are left. -/
def tokensLeft (s : State) (ownerId : Uuid) : Table String RefreshToken :=
  s.db.tokens.filter fun _ token => ¬ (token.ownerId = ownerId ∧ Dead s.clock token)

/-- The sessions that are left: those that are new, or have a token left. -/
def sessionsLeft (s : State) (ownerId : Uuid) : Table Uuid DeviceSession :=
  s.db.sessions.filter fun id row =>
    ¬ (row.ownerId = ownerId ∧ (∃ created ∈ s.createdAt.find? id, created < s.clock - DAY) ∧
      ¬ (tokensLeft s ownerId).Any fun _ token => token.sessionId = id)

/-- Housekeeping on sign-in. -/
def purgeDeadSessions (s : State) (ownerId : Uuid) : State :=
  { s with db := { s.db with
      tokens := tokensLeft s ownerId
      sessions := sessionsLeft s ownerId } }

/-- A token is exchanged. -/
def refresh (refreshLifetime : ℤ) (s : State) (tokenHash fresh : String) : State × Outcome :=
  match findRefreshToken s.db tokenHash with
  | none => (s, .signInAgain)
  | some record =>
    if Acceptable record s.clock then
      let db := touchSession (markRotated s.db tokenHash s.clock) record.sessionId s.clock
      let (resolved, found) := resolve s.resolved db record.sessionId s.clock
      match found with
      | none => ({ s with db := db, resolved := resolved }, .signInAgain)
      | some actor =>
        ({ s with
            db := storeRefreshToken db actor fresh (s.clock + refreshLifetime)
            drawn := insert fresh s.drawn
            resolved := resolved }, .issued actor fresh)
    else (s, .signInAgain)

/-- One operation, and what it answers. Ids and tokens are drawn at random: a
draw that repeats does not happen. Only sessions that were opened are looked
up, by their access tokens. -/
def perform (refreshLifetime : ℤ) (s : State) : Operation → State × Outcome
  | .openSession id ownerId staffId deviceName =>
    if s.createdAt.find? id = none ∧ (s.db.owners.find? ownerId).isSome ∧
        ∀ member ∈ staffId, (s.db.staff.find? member).isSome then
      ({ s with
          db := openSession s.db id ownerId staffId deviceName s.clock
          createdAt := s.createdAt.put id s.clock }, .done)
    else (s, .failed)
  | .storeRefreshToken actor tokenHash =>
    if tokenHash ∉ s.drawn ∧ (s.db.sessions.find? actor.sessionId).isSome ∧
        (s.db.owners.find? actor.actor.ownerId).isSome then
      ({ s with
          db := storeRefreshToken s.db actor tokenHash (s.clock + refreshLifetime)
          drawn := insert tokenHash s.drawn }, .issued actor tokenHash)
    else (s, .failed)
  | .refresh tokenHash fresh =>
    if fresh ∈ s.drawn then (s, .failed) else refresh refreshLifetime s tokenHash fresh
  | .resolve sessionId =>
    if (s.createdAt.find? sessionId).isSome then
      let (resolved, actor) := resolve s.resolved s.db sessionId s.clock
      ({ s with resolved := resolved }, .described actor)
    else (s, .failed)
  | .logout tokenHash =>
    ({ s with
        db := signOut s.db (endedByToken s.db tokenHash) s.clock
        resolved := Table.empty }, .done)
  | .revoke ownerId sessionId =>
    let ended := endedByOwner s.db ownerId sessionId
    if ended = ∅ then (s, .notFound)
    else ({ s with db := signOut s.db ended s.clock, resolved := Table.empty }, .done)
  | .wait ticks => ({ s with clock := s.clock + ticks }, .done)
  | .purgeDeadSessions ownerId => (purgeDeadSessions s ownerId, .done)

/-- Operations one after another. -/
def run (refreshLifetime : ℤ) (s : State) (operations : List Operation) : State :=
  operations.foldl (fun s operation => (perform refreshLifetime s operation).1) s

/-- The operations that are not housekeeping. -/
def undisturbed (operations : List Operation) : List Operation :=
  operations.filter fun operation => !operation.isPurge

end Kitaza.SessionHousekeeping
