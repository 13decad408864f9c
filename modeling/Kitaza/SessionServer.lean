import Kitaza.SessionDirectory
import Kitaza.Versions

/-!
# Signing in, refreshing, signing out

One server instance working for any number of devices, one database statement
or one look at its memory of sessions at a time, in any order. Statements of a
transaction are seen by nobody before its commit, and change only what is
still unchanged then. Row locks are left out: they make a statement wait, and
it then does what it would have done had it been issued later.

The server keeps, for the record, every earlier state of the database, and
each call the state it began with.
-/

namespace Kitaza.SessionServer

open KeyedTable Primitives Access BillingPlan SessionDirectory Versions

/-- How long a refresh token keeps working after it has been exchanged. -/
def ROTATION_GRACE : ℤ := 24 * 3600 * SECOND

/-- What the server is configured with. -/
structure Settings where
  /-- How long a refresh token lasts. -/
  refreshLifetime : ℤ
  /-- How long an account keeps working after its paid time. -/
  grace : ℤ
  /-- Whether accounts have to be paid for. -/
  enforced : Bool
  deriving DecidableEq

/-- What a refresh reads of a token and its session. -/
structure RefreshTokenRecord where
  /-- The account. -/
  ownerId : Uuid
  /-- The session. -/
  sessionId : Uuid
  /-- The staff member. -/
  staffId : Option Uuid
  /-- When the token expires. -/
  expiresAt : Timestamp
  /-- When it was revoked. -/
  revokedAt : Option Timestamp
  /-- When it was first exchanged. -/
  rotatedAt : Option Timestamp
  /-- The session is not signed out. -/
  sessionLive : Bool
  /-- The staff member, if any, has not been removed. -/
  staffLive : Bool
  deriving DecidableEq

/-- What a request asks for. -/
inductive Operation where
  /-- An owner has registered or proved their password. -/
  | openOwnerSession (ownerId : Uuid) (deviceName : String)
  /-- A staff member's phone joins with a code. -/
  | join (codeHash : String) (deviceName : String)
  /-- A token is exchanged for a fresh pair. -/
  | refresh (tokenHash : String)
  /-- A device signs out. -/
  | logout (tokenHash : String)
  /-- An owner signs a device out from elsewhere. -/
  | revoke (ownerId sessionId : Uuid)
  /-- An owner removes a staff member. -/
  | remove (storeId staffId : Uuid)
  /-- An owner changes a staff member's name and switches. -/
  | update (storeId staffId : Uuid) (displayName : String) (permissions : Permissions)
  /-- A confirmed payment extends a subscription. -/
  | pay (ownerId : Uuid) (subscription : SubscriptionRecord)
  /-- Any request with an access token of a session. -/
  | request (sessionId : Uuid)
  deriving DecidableEq

/-- What a transaction is about to write. -/
structure Writes where
  /-- The staff members to remove. -/
  staff : Finset Uuid
  /-- The sessions to sign out. -/
  sessions : Finset Uuid
  /-- The tokens to revoke. -/
  tokens : Finset String
  /-- The join codes to delete. -/
  invites : Finset String
  /-- When the transaction began. -/
  began : Timestamp
  deriving DecidableEq

/-- How a call ended. -/
inductive Outcome where
  /-- A fresh pair of tokens. -/
  | issued (actor : SessionActor) (tokenHash : String)
  /-- The person behind the request, if there is one. -/
  | described (actor : Option SessionActor)
  /-- Done. -/
  | done
  /-- Nothing to sign out, remove or change. -/
  | notFound
  /-- The device has to sign in again. -/
  | signInAgain
  /-- The join code is not valid or has expired. -/
  | invalidCode
  /-- The plan does not include staff. -/
  | upgradeRequired
  /-- The account is paused. -/
  | subscriptionRequired
  /-- An error, or a lost connection. -/
  | failed
  deriving DecidableEq

/-- How far a call has come: what it does next. -/
inductive Phase where
  | begun
  /-- Check the token that was found. -/
  | found (record : RefreshTokenRecord)
  /-- Mark the token exchanged. -/
  | passed (record : RefreshTokenRecord)
  /-- Note when the session was last used. -/
  | rotated (record : RefreshTokenRecord)
  /-- Check whether the account's plan includes staff. -/
  | owned (ownerId : Uuid)
  /-- Look for the join code and lock it. -/
  | checked
  /-- Mark the join code used. -/
  | invited (staffId : Uuid) (began : Timestamp)
  /-- Read whom the code is for. -/
  | redeeming (staffId : Uuid) (began : Timestamp)
  /-- Commit the use of the code. -/
  | redeemed (ownerId staffId : Uuid) (began : Timestamp)
  /-- Open a session for the device. -/
  | opening (ownerId : Uuid) (staffId : Option Uuid) (deviceName : String)
  /-- Look for the session in memory; `floor` is what was last forgotten. -/
  | resolving (sessionId : Uuid) (floor : ℕ)
  /-- Look for it in the database. -/
  | looking (sessionId : Uuid) (floor : ℕ)
  /-- Remember what the database said, in the state it was read from. -/
  | looked (sessionId : Uuid) (floor : ℕ) (actor : Option SessionActor) (version : ℕ)
  /-- Store a fresh refresh token. -/
  | issuing (actor : SessionActor)
  /-- Sign out the sessions of a removed staff member. -/
  | staffMarked (writes : Writes)
  /-- Revoke the tokens of the sessions. -/
  | sessionsMarked (writes : Writes)
  /-- Delete the join codes of a removed staff member. -/
  | tokensMarked (writes : Writes)
  /-- Commit. -/
  | ready (writes : Writes)
  /-- Forget what is remembered, after a commit that led to a state. -/
  | forgetting (version : ℕ)
  | returned (outcome : Outcome)
  deriving DecidableEq

/-- A call. -/
structure Call where
  /-- What it was asked to do. -/
  operation : Operation
  /-- How far it has come. -/
  phase : Phase
  /-- The state of the database it began with. -/
  begun : ℕ
  /-- When it began. -/
  begunAt : Timestamp
  /-- When it marked its token exchanged. -/
  exchangedAt : Option Timestamp
  /-- The state its commit led to. -/
  committedAt : Option ℕ
  /-- What its look at a session answered, and what was last forgotten when
  that began. -/
  resolved : Option (Uuid × ℕ × Option SessionActor)
  deriving DecidableEq

/-- The server and its database. -/
structure State where
  /-- What is committed, and was before. -/
  data : Versioned Db
  /-- The time. -/
  clock : Timestamp
  /-- What is remembered of sessions. -/
  resolved : Remembered
  /-- The state that the last change led to whose memory was cleared. -/
  forgotten : ℕ
  /-- The calls so far. -/
  calls : Table ℕ Call

/-- A server without sessions. -/
def State.initial (db : Db) : State where
  data := Versioned.initial { db with sessions := Table.empty, tokens := Table.empty }
  clock := 0
  resolved := Table.empty
  forgotten := 0
  calls := Table.empty

/-- What is committed. -/
def State.db (s : State) : Db := s.data.now

/-- What can happen next. -/
inductive Action where
  /-- A request arrives. -/
  | start (i : ℕ) (operation : Operation)
  /-- A call does its next step, with the random session id or token it may
  draw. -/
  | next (i : ℕ) (id : Uuid) (token : String)
  /-- A call ends early: an error, a lost connection. -/
  | fail (i : ℕ)
  /-- Time passes. -/
  | wait (ticks : ℕ)
  deriving DecidableEq

/-- Read a token and its session. -/
def findRefreshToken (db : Db) (tokenHash : String) :
    Option RefreshTokenRecord :=
  (db.tokens.find? tokenHash).bind fun t =>
    (db.sessions.find? t.sessionId).map fun s =>
      { ownerId := t.ownerId
        sessionId := t.sessionId
        staffId := s.staffId
        expiresAt := t.expiresAt
        revokedAt := t.revokedAt
        rotatedAt := t.rotatedAt
        sessionLive := s.revokedAt.isNone
        staffLive := ((s.staffId.bind db.staff.find?).map fun st => st.removedAt.isNone).getD true }

/-- Mark a token exchanged, unless it is. -/
def markRotated (db : Db) (tokenHash : String) (now : Timestamp) :
    Db :=
  { db with tokens := db.tokens.mapRows fun hash t =>
      if hash = tokenHash ∧ t.rotatedAt = none then { t with rotatedAt := some now } else t }

/-- Note that a session was used. -/
def touchSession (db : Db) (sessionId : Uuid) (now : Timestamp) :
    Db :=
  { db with sessions := db.sessions.mapRows fun id s =>
      if id = sessionId then { s with lastSeenAt := now } else s }

/-- Store a token. -/
def storeRefreshToken (db : Db) (actor : SessionActor) (tokenHash : String)
    (expiresAt : Timestamp) : Db :=
  let token : RefreshToken := ⟨actor.actor.ownerId, actor.sessionId, expiresAt, none, none⟩
  { db with tokens := db.tokens.put tokenHash token }

/-- Open a session. -/
def openSession (db : Db) (id ownerId : Uuid) (staffId : Option Uuid)
    (deviceName : String) (now : Timestamp) : Db :=
  { db with sessions := db.sessions.put id ⟨ownerId, staffId, deviceName, now, none⟩ }

/-- Mark a join code used. -/
def markRedeemed (db : Db) (codeHash : String) (now : Timestamp) :
    Db :=
  { db with invites := db.invites.mapRows fun hash i =>
      if hash = codeHash then { i with redeemedAt := some now } else i }

/-- Change a staff member's name and switches. -/
def updateStaff (db : Db) (storeId staffId : Uuid) (displayName : String)
    (permissions : Permissions) : Db :=
  { db with staff := db.staff.mapRows fun id st =>
      if st.storeId = storeId ∧ id = staffId ∧ st.removedAt = none then
        { st with displayName := displayName, permissions := permissions }
      else st }

/-- Write a subscription. -/
def subscribe (db : Db) (ownerId : Uuid) (subscription : SubscriptionRecord) :
    Db :=
  { db with subscriptions := db.subscriptions.put ownerId subscription }

/-- What a transaction wrote. -/
def writeAll (db : Db) (w : Writes) : Db :=
  { db with
    staff := db.staff.mapRows fun id st =>
      if id ∈ w.staff then { st with removedAt := st.removedAt.or (some w.began) } else st
    sessions := db.sessions.mapRows fun id s =>
      if id ∈ w.sessions then { s with revokedAt := s.revokedAt.or (some w.began) } else s
    tokens := db.tokens.mapRows fun hash t =>
      if hash ∈ w.tokens then { t with revokedAt := t.revokedAt.or (some w.began) } else t
    invites := db.invites.filter fun hash _ => decide (hash ∉ w.invites) }

/-- The sessions of a staff member. -/
def sessionsOf (db : Db) (staffId : Uuid) : Finset Uuid :=
  (db.sessions.filter fun _ s => decide (s.staffId = some staffId)).ids

/-- The live ones of some sessions. -/
def liveSessions (db : Db) (ids : Finset Uuid) : Finset Uuid :=
  (db.sessions.filter fun id s => decide (id ∈ ids ∧ s.revokedAt = none)).ids

/-- The tokens of some sessions that are not revoked. -/
def liveTokens (db : Db) (ids : Finset Uuid) : Finset String :=
  (db.tokens.filter fun _ t => decide (t.sessionId ∈ ids ∧ t.revokedAt = none)).ids

/-- The unused join codes of a staff member. -/
def unusedInvites (db : Db) (staffId : Uuid) : Finset String :=
  (db.invites.filter fun _ i => decide (i.staffId = staffId ∧ i.redeemedAt = none)).ids

/-- The account a live code joins. -/
def ownerOfCode (db : Db) (codeHash : String) (now : Timestamp) : Option Uuid :=
  ((db.invites.find? codeHash).filter fun i => decide (i.redeemedAt = none ∧ now < i.expiresAt)).bind
    fun i => (db.staff.find? i.staffId).bind fun st => db.stores.find? st.storeId

/-- The staff member a live code lets in. -/
def liveInvite (db : Db) (codeHash : String) (now : Timestamp) : Option Uuid :=
  ((db.invites.find? codeHash).filter fun i => decide (i.redeemedAt = none ∧ now < i.expiresAt)).bind
    fun i => ((db.staff.find? i.staffId).filter fun st => st.removedAt.isNone).map
      fun _ => i.staffId

/-- The checks of a refresh. -/
def Acceptable (record : RefreshTokenRecord) (now : Timestamp) : Prop :=
  record.revokedAt = none ∧ now < record.expiresAt ∧
    (∀ rotated ∈ record.rotatedAt, now < rotated + ROTATION_GRACE) ∧
    record.sessionLive = true ∧ record.staffLive = true

instance (record : RefreshTokenRecord) (now : Timestamp) : Decidable (Acceptable record now) :=
  inferInstanceAs (Decidable (_ ∧ _ ∧ _ ∧ _ ∧ _))

/-- The join code a request came with. -/
def Operation.joinCode : Operation → Option String
  | .join codeHash _ => some codeHash
  | _ => none

/-- The phases in which a join code is locked. -/
def Phase.locksCode : Phase → Bool
  | .invited _ _ => true
  | .redeeming _ _ => true
  | .redeemed _ _ _ => true
  | _ => false

/-- Another phone has locked the join code. -/
def CodeHeld (i : ℕ) (codeHash : String) (s : State) : Prop :=
  s.calls.Any fun j c => j ≠ i ∧ c.operation.joinCode = some codeHash ∧ c.phase.locksCode = true

instance (i : ℕ) (codeHash : String) (s : State) : Decidable (CodeHeld i codeHash s) :=
  inferInstanceAs (Decidable (s.calls.Any _))

/-- The session whose access token a request came with. -/
def Operation.session : Operation → Option Uuid
  | .request sessionId => some sessionId
  | _ => none

/-- A call that begins. -/
def State.arrive (s : State) (i : ℕ) (operation : Operation) : State :=
  let call : Call :=
    { operation := operation
      phase := .begun
      begun := s.data.version
      begunAt := s.clock
      exchangedAt := none
      committedAt := none
      resolved := none }
  { s with calls := s.calls.put i call }

/-- A call that has come further. -/
def State.advance (s : State) (i : ℕ) (c : Call) (phase : Phase) : State :=
  { s with calls := s.calls.put i { c with phase := phase } }

/-- The database in another state. -/
def State.write (s : State) (db : Db) : State := { s with data := s.data.write db }

/-- What a call does with the person behind a session. -/
def continued (operation : Operation) (actor : Option SessionActor) : Phase :=
  match operation, actor with
  | .request _, actor => .returned (.described actor)
  | _, some actor => .issuing actor
  | .refresh _, none => .returned .signInAgain
  | _, none => .returned .failed

/-- A look at a session is answered. -/
def State.answer (s : State) (i : ℕ) (c : Call) (sessionId : Uuid) (floor : ℕ)
    (actor : Option SessionActor) : State :=
  { s with calls := s.calls.put i { c with
      phase := continued c.operation actor
      resolved := some (sessionId, floor, actor) } }

/-- A change is committed; the memory is cleared next. -/
def State.change (s : State) (i : ℕ) (c : Call) (db : Db) : State :=
  let s' := s.write db
  { s' with calls := s.calls.put i { c with
      phase := .forgetting s'.data.version
      committedAt := some s'.data.version } }

/-- The first step of a call. -/
def firstStep (s : State) (i : ℕ) (c : Call) : State :=
  match c.operation with
  | .openOwnerSession ownerId deviceName => s.advance i c (.opening ownerId none deviceName)
  | .join codeHash _ =>
    match ownerOfCode s.db codeHash s.clock with
    | some ownerId => s.advance i c (.owned ownerId)
    | none => s.advance i c .checked
  | .refresh tokenHash =>
    match findRefreshToken s.db tokenHash with
    | some record => s.advance i c (.found record)
    | none => s.advance i c (.returned .signInAgain)
  | .logout tokenHash =>
    let ended := match s.db.tokens.find? tokenHash with
      | some t => liveSessions s.db {t.sessionId}
      | none => ∅
    s.advance i c (.ready ⟨∅, ended, liveTokens s.db ended, ∅, s.clock⟩)
  | .revoke ownerId sessionId =>
    match s.db.sessions.find? sessionId with
    | some row =>
      if row.ownerId = ownerId ∧ row.revokedAt = none then
        s.advance i c (.sessionsMarked ⟨∅, {sessionId}, ∅, ∅, s.clock⟩)
      else s.advance i c (.returned .notFound)
    | none => s.advance i c (.returned .notFound)
  | .remove storeId staffId =>
    match s.db.staff.find? staffId with
    | some st =>
      if st.storeId = storeId ∧ st.removedAt = none then
        s.advance i c (.staffMarked ⟨{staffId}, ∅, ∅, ∅, s.clock⟩)
      else s.advance i c (.returned .notFound)
    | none => s.advance i c (.returned .notFound)
  | .update storeId staffId displayName permissions =>
    match s.db.staff.find? staffId with
    | some st =>
      if st.storeId = storeId ∧ st.removedAt = none then
        s.change i c (updateStaff s.db storeId staffId displayName permissions)
      else s.advance i c (.returned .notFound)
    | none => s.advance i c (.returned .notFound)
  | .pay ownerId subscription => s.change i c (subscribe s.db ownerId subscription)
  | .request sessionId => s.advance i c (.resolving sessionId s.forgotten)

/-- The tokens a transaction revokes after it has marked its sessions. -/
def tokensToRevoke (db : Db) (operation : Operation) : Finset String :=
  match operation with
  | .revoke _ sessionId => liveTokens db {sessionId}
  | .remove _ staffId => liveTokens db (sessionsOf db staffId)
  | _ => ∅

/-- The next step of a call; absent if it waits for a join code or has
ended. -/
def advance (settings : Settings) (s : State) (i : ℕ) (c : Call) (id : Uuid) (token : String) :
    Option State :=
  match c.phase with
  | .begun => some (firstStep s i c)
  | .found record =>
    if Acceptable record s.clock then some (s.advance i c (.passed record))
    else some (s.advance i c (.returned .signInAgain))
  | .passed record =>
    match c.operation with
    | .refresh tokenHash => some <|
        (s.write (markRotated s.db tokenHash s.clock)).advance i
          { c with exchangedAt := some s.clock } (.rotated record)
    | _ => none
  | .rotated record => some <|
      (s.write (touchSession s.db record.sessionId s.clock)).advance i c
        (.resolving record.sessionId s.forgotten)
  | .owned ownerId =>
    let standing := Standing.of (s.db.subscriptions.find? ownerId) s.clock settings.grace
      settings.enforced
    if standing.allowsStaff then some (s.advance i c .checked)
    else if standing.canUpload then some (s.advance i c (.returned .upgradeRequired))
    else some (s.advance i c (.returned .subscriptionRequired))
  | .checked =>
    match c.operation with
    | .join codeHash _ =>
      match liveInvite s.db codeHash s.clock with
      | none => some (s.advance i c (.returned .invalidCode))
      | some staffId =>
        if CodeHeld i codeHash s then none else some (s.advance i c (.invited staffId s.clock))
    | _ => none
  | .invited staffId began => some (s.advance i c (.redeeming staffId began))
  | .redeeming staffId began =>
    match (s.db.staff.find? staffId).bind fun st => s.db.stores.find? st.storeId with
    | some ownerId => some (s.advance i c (.redeemed ownerId staffId began))
    | none => some (s.advance i c (.returned .failed))
  | .redeemed ownerId staffId began =>
    match c.operation with
    | .join codeHash deviceName => some <|
        (s.write (markRedeemed s.db codeHash began)).advance i c
          (.opening ownerId (some staffId) deviceName)
    | _ => none
  | .opening ownerId staffId deviceName =>
    -- A drawn id that is taken, or an owner or staff member that is not there,
    -- violates a constraint.
    if (s.db.sessions.find? id).isNone ∧ (s.db.owners.find? ownerId).isSome ∧
        ∀ member ∈ staffId, (s.db.staff.find? member).isSome then
      some <| (s.write (openSession s.db id ownerId staffId deviceName s.clock)).advance i c
        (.resolving id s.forgotten)
    else some (s.advance i c (.returned .failed))
  | .resolving sessionId floor =>
    match remembered s.resolved sessionId s.clock with
    | some actor => some (s.answer i c sessionId floor actor)
    | none => some (s.advance i c (.looking sessionId floor))
  | .looking sessionId floor =>
    some (s.advance i c (.looked sessionId floor (s.db.describe sessionId) s.data.version))
  | .looked sessionId floor actor _ =>
    some { s.answer i c sessionId floor actor with
      resolved := remember s.resolved sessionId s.clock actor }
  | .issuing actor =>
    if (s.db.tokens.find? token).isNone then
      some <| (s.write (storeRefreshToken s.db actor token
        (s.clock + settings.refreshLifetime))).advance i c (.returned (.issued actor token))
    else some (s.advance i c (.returned .failed))
  | .staffMarked w =>
    match c.operation with
    | .remove _ staffId => some (s.advance i c (.sessionsMarked
        { w with sessions := liveSessions s.db (sessionsOf s.db staffId) }))
    | _ => none
  | .sessionsMarked w =>
    let w' := { w with tokens := tokensToRevoke s.db c.operation }
    match c.operation with
    | .remove _ _ => some (s.advance i c (.tokensMarked w'))
    | _ => some (s.advance i c (.ready w'))
  | .tokensMarked w =>
    match c.operation with
    | .remove _ staffId => some (s.advance i c (.ready
        { w with invites := unusedInvites s.db staffId }))
    | _ => none
  | .ready w => some (s.change i c (writeAll s.db w))
  | .forgetting version => some
      { s.advance i c (.returned .done) with
        resolved := Table.empty
        forgotten := max s.forgotten version }
  | .returned _ => none

/-- The phases a call has ended in. -/
def Phase.ended : Phase → Bool
  | .returned _ => true
  | _ => false

/-- One step. A request carries an access token of a session there is. -/
def step (settings : Settings) (s : State) : Action → Option State
  | .start i operation =>
    match s.calls.find? i with
    | some _ => none
    | none =>
      if ∀ sessionId ∈ operation.session, (s.db.sessions.find? sessionId).isSome then
        some (s.arrive i operation)
      else none
  | .next i id token =>
    match s.calls.find? i with
    | none => none
    | some c => advance settings s i c id token
  | .fail i =>
    match s.calls.find? i with
    | none => none
    | some c => if c.phase.ended then none else some (s.advance i c (.returned .failed))
  | .wait ticks => some { s with clock := s.clock + ticks }

/-- Steps one after another. -/
def run (settings : Settings) (s : State) : List Action → Option State
  | [] => some s
  | a :: rest => (step settings s a).bind fun s' => run settings s' rest

end Kitaza.SessionServer
