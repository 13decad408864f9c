import Mathlib.Data.Finset.Card
import Kitaza.Access
import Kitaza.BillingPlan

/-!
# Who is behind a session

The tables that sign devices in: owners, stores, staff members, device
sessions, refresh tokens, join codes and subscriptions. A session id is turned
into the person behind it by one query, and what it found is remembered for
a while.
-/

namespace Kitaza.SessionDirectory

open KeyedTable Primitives Access BillingPlan

/-- A person an owner lets use a store. -/
structure StaffMember where
  /-- The store. -/
  storeId : Uuid
  /-- The name. -/
  displayName : String
  /-- What the owner switched on. -/
  permissions : Permissions
  /-- When the person was removed. -/
  removedAt : Option Timestamp
  deriving DecidableEq, Repr

/-- A signed-in device. -/
structure DeviceSession where
  /-- The account. -/
  ownerId : Uuid
  /-- The staff member; absent for the owner. -/
  staffId : Option Uuid
  /-- The device's name. -/
  deviceName : String
  /-- When it was last used. -/
  lastSeenAt : Timestamp
  /-- When it was signed out. -/
  revokedAt : Option Timestamp
  deriving DecidableEq, Repr

/-- A refresh token. -/
structure RefreshToken where
  /-- The account. -/
  ownerId : Uuid
  /-- The session it belongs to. -/
  sessionId : Uuid
  /-- When it expires. -/
  expiresAt : Timestamp
  /-- When it was revoked. -/
  revokedAt : Option Timestamp
  /-- When it was first exchanged. -/
  rotatedAt : Option Timestamp
  deriving DecidableEq, Repr

/-- A join code. -/
structure StaffInvite where
  /-- The staff member it lets in. -/
  staffId : Uuid
  /-- When it expires. -/
  expiresAt : Timestamp
  /-- When it was used. -/
  redeemedAt : Option Timestamp
  deriving DecidableEq, Repr

/-- The tables that sign devices in. -/
structure Db where
  /-- The owners' names. -/
  owners : Table Uuid String
  /-- The owners of the stores. -/
  stores : Table Uuid Uuid
  /-- Staff members. -/
  staff : Table Uuid StaffMember
  /-- Device sessions. -/
  sessions : Table Uuid DeviceSession
  /-- Refresh tokens under their fingerprints, which are unique. -/
  tokens : Table String RefreshToken
  /-- Join codes under their fingerprints, which are unique. -/
  invites : Table String StaffInvite
  /-- Subscriptions under their owners. -/
  subscriptions : Table Uuid SubscriptionRecord

/-- The person behind a request, with the session, the store a staff member is
limited to, and the owner's subscription. -/
structure SessionActor where
  /-- Who makes the request. -/
  actor : Actor
  /-- The session. -/
  sessionId : Uuid
  /-- The store of a staff member. -/
  storeId : Option Uuid
  /-- The owner's subscription, which covers their staff too. -/
  subscription : Option SubscriptionRecord
  deriving DecidableEq

/-- What the query for a session finds. -/
structure SessionRow where
  /-- The account. -/
  ownerId : Uuid
  /-- The owner's name. -/
  ownerName : String
  /-- The device's name. -/
  deviceName : String
  /-- It is not signed out. -/
  sessionLive : Bool
  /-- The staff member. -/
  staff : Option (Uuid × StaffMember)
  /-- The owner's subscription. -/
  subscription : Option SubscriptionRecord

/-- The query for a session. -/
def Db.sessionRow (db : Db) (sessionId : Uuid) : Option SessionRow :=
  (db.sessions.find? sessionId).bind fun s =>
    (db.owners.find? s.ownerId).map fun ownerName =>
      { ownerId := s.ownerId
        ownerName := ownerName
        deviceName := s.deviceName
        sessionLive := s.revokedAt.isNone
        staff := s.staffId.bind fun id => (db.staff.find? id).map fun st => (id, st)
        subscription := db.subscriptions.find? s.ownerId }

/-- The person a row stands for, if the device is signed in and the staff
member has not been removed. -/
def intoActor (sessionId : Uuid) (row : SessionRow) : Option SessionActor :=
  if !row.sessionLive then none
  else
    match row.staff with
    | none => some
        { actor := ⟨row.ownerId, row.ownerName, row.deviceName, none⟩
          sessionId := sessionId
          storeId := none
          subscription := row.subscription }
    | some (staffId, st) =>
      if st.removedAt.isSome then none
      else some
        { actor := ⟨row.ownerId, st.displayName, row.deviceName, some ⟨staffId, st.permissions⟩⟩
          sessionId := sessionId
          storeId := some st.storeId
          subscription := row.subscription }

/-- The person behind a session, as the database describes them. -/
def Db.describe (db : Db) (sessionId : Uuid) : Option SessionActor :=
  (db.sessionRow sessionId).bind (intoActor sessionId)

theorem sessionId_of_describe {db : Db} {sessionId : Uuid} {actor : SessionActor}
    (h : db.describe sessionId = some actor) : actor.sessionId = sessionId := by
  obtain ⟨row, _, hrow⟩ := Option.bind_eq_some_iff.mp h
  unfold intoActor at hrow
  split_ifs at hrow
  split at hrow
  · cases hrow
    rfl
  · split_ifs at hrow
    cases hrow
    rfl

/-- How long a resolved session is trusted before being looked up again. -/
def TRUST_WINDOW : ℤ := 20 * SECOND

/-- Past this many remembered sessions the memory is simply cleared. -/
def MAX_REMEMBERED : ℕ := 10000

/-- When each session was looked up, and who it turned out to be. -/
abbrev Remembered := Table Uuid (Timestamp × Option SessionActor)

/-- What is remembered of a session and still trusted. -/
def remembered (resolved : Remembered) (sessionId : Uuid) (now : Timestamp) :
    Option (Option SessionActor) :=
  (resolved.find? sessionId).bind fun (looked, actor) =>
    if now - looked < TRUST_WINDOW then some actor else none

/-- Remember what a lookup found. -/
def remember (resolved : Remembered) (sessionId : Uuid) (now : Timestamp)
    (actor : Option SessionActor) : Remembered :=
  (if MAX_REMEMBERED ≤ resolved.ids.card then Table.empty else resolved).put sessionId (now, actor)

/-- A memory that remembers only what satisfies a predicate. -/
def Remembers (p : Uuid → Option SessionActor → Prop) (resolved : Remembered) : Prop :=
  ∀ sessionId looked actor, resolved.find? sessionId = some (looked, actor) → p sessionId actor

theorem remembers_empty (p : Uuid → Option SessionActor → Prop) : Remembers p Table.empty := by
  intro sessionId looked actor h
  cases h

theorem Remembers.remember {p : Uuid → Option SessionActor → Prop} {resolved : Remembered}
    (h : Remembers p resolved) {sessionId : Uuid} {actor : Option SessionActor}
    (hactor : p sessionId actor) (now : Timestamp) :
    Remembers p (remember resolved sessionId now actor) := by
  intro id looked found hfound
  rw [SessionDirectory.remember, Table.find?_put] at hfound
  by_cases hid : id = sessionId
  · rw [if_pos hid] at hfound
    cases hfound
    rw [hid]
    exact hactor
  · rw [if_neg hid] at hfound
    by_cases hfull : MAX_REMEMBERED ≤ resolved.ids.card
    · rw [if_pos hfull] at hfound
      cases hfound
    · rw [if_neg hfull] at hfound
      exact h id looked found hfound

theorem Remembers.of_remembered {p : Uuid → Option SessionActor → Prop} {resolved : Remembered}
    (h : Remembers p resolved) {sessionId : Uuid} {now : Timestamp} {actor : Option SessionActor}
    (hfound : remembered resolved sessionId now = some actor) : p sessionId actor := by
  obtain ⟨⟨looked, found⟩, hfind, hmatch⟩ := Option.bind_eq_some_iff.mp hfound
  dsimp only at hmatch
  split_ifs at hmatch
  cases hmatch
  exact h sessionId looked _ hfind

/-- A staff member has been removed. -/
def Db.StaffRemoved (db : Db) (staffId : Uuid) : Prop :=
  ∃ st, db.staff.find? staffId = some st ∧ st.removedAt.isSome

/-- A session is signed out, or its staff member removed. -/
def Db.SessionOver (db : Db) (sessionId : Uuid) : Prop :=
  ∃ s, db.sessions.find? sessionId = some s ∧
    (s.revokedAt.isSome ∨ ∃ staffId, s.staffId = some staffId ∧ db.StaffRemoved staffId)

/-- A session nobody is behind is over. -/
theorem Db.sessionOver_of_describe {db : Db} {sessionId : Uuid} {s : DeviceSession}
    (hs : db.sessions.find? sessionId = some s) (howner : (db.owners.find? s.ownerId).isSome)
    (h : db.describe sessionId = none) : db.SessionOver sessionId := by
  obtain ⟨ownerName, hname⟩ := Option.isSome_iff_exists.mp howner
  refine ⟨s, hs, ?_⟩
  rw [describe, sessionRow, hs, Option.bind_some, hname, Option.map_some, Option.bind_some,
    intoActor] at h
  cases hrevoked : s.revokedAt with
  | some at_ => exact Or.inl rfl
  | none =>
    right
    simp only [hrevoked, Option.isNone_none, Bool.not_true, Bool.false_eq_true, if_false] at h
    cases hstaff : s.staffId with
    | none => simp [hstaff] at h
    | some staffId =>
      cases hst : db.staff.find? staffId with
      | none => simp [hstaff, hst] at h
      | some st =>
        refine ⟨staffId, rfl, st, hst, ?_⟩
        by_contra hremoved
        simp [hstaff, hst, hremoved] at h

/-- Nobody is behind a session that is over. -/
theorem Db.describe_eq_none_of_over {db : Db} {sessionId : Uuid} (h : db.SessionOver sessionId) :
    db.describe sessionId = none := by
  obtain ⟨s, hs, hwhy⟩ := h
  rw [describe, sessionRow, hs, Option.bind_some]
  cases db.owners.find? s.ownerId with
  | none => rfl
  | some ownerName =>
    rw [Option.map_some, Option.bind_some, intoActor]
    cases hwhy with
    | inl hrevoked =>
      obtain ⟨at_, hat⟩ := Option.isSome_iff_exists.mp hrevoked
      rw [hat]
      rfl
    | inr hremoved =>
      obtain ⟨staffId, hstaff, st, hst, hsome⟩ := hremoved
      cases s.revokedAt with
      | some at_ => rfl
      | none => simp [hstaff, hst, hsome]

end Kitaza.SessionDirectory
