import Kitaza.SessionServer

/-!
# Join codes

Adding and inviting staff, removing them, and joining with a code, statement
by statement. A statement works on what is committed when it starts, waits
for rows that other transactions have locked, and looks again at the rows it
waited for. A new code first deletes the unused ones it sees, and no lock
covers those it does not see.

The server keeps, for the record, the codes in the order of their commits and
the sessions that were opened with them.
-/

namespace Kitaza.JoinCodes

open KeyedTable Primitives Access BillingPlan SessionDirectory
open SessionServer (Settings Outcome Writes unusedInvites liveSessions liveTokens sessionsOf writeAll
  ownerOfCode liveInvite markRedeemed openSession storeRefreshToken)

/-- How long a join code works. -/
def INVITE_LIFETIME : ℤ := 24 * 3600 * SECOND

/-- What a request asks for. -/
inductive Operation where
  /-- An owner adds a staff member. -/
  | add (storeId : Uuid) (displayName : String) (permissions : Permissions)
      (subscription : Option SubscriptionRecord)
  /-- An owner asks for a new code. -/
  | reinvite (storeId staffId : Uuid) (subscription : Option SubscriptionRecord)
  /-- An owner removes a staff member. -/
  | remove (storeId staffId : Uuid)
  /-- A phone joins with a code. -/
  | join (codeHash deviceName : String)
  deriving DecidableEq

/-- How far a call has come: what it does next. -/
inductive Phase where
  | begun
  /-- Insert the staff member. -/
  | creating
  /-- Look for the staff member. -/
  | finding
  /-- Read the unused codes, to delete them. -/
  | issuing (staffId : Uuid)
  /-- Delete those that are still unused. -/
  | deleting (staffId : Uuid) (codeHash : String) (expiresAt : Timestamp) (listed : Finset String)
  /-- Insert the new code. -/
  | deleted (staffId : Uuid) (codeHash : String) (expiresAt : Timestamp) (gone : Finset String)
  /-- Commit. -/
  | inserted (staffId : Uuid) (codeHash : String) (expiresAt : Timestamp) (gone : Finset String)
  /-- Sign out the sessions of a removed staff member. -/
  | staffMarked (staffId : Uuid) (writes : Writes)
  /-- Revoke their tokens. -/
  | sessionsMarked (staffId : Uuid) (writes : Writes)
  /-- Read their unused codes. -/
  | tokensMarked (staffId : Uuid) (writes : Writes)
  /-- Delete those that are still unused. -/
  | clearing (staffId : Uuid) (writes : Writes) (listed : Finset String)
  /-- Commit. -/
  | cleared (staffId : Uuid) (writes : Writes)
  /-- Check whether the account's plan includes staff. -/
  | owned (ownerId : Uuid)
  /-- Look for the code. -/
  | checked
  /-- Lock it, if it still works. -/
  | matching (staffId : Uuid) (began : Timestamp)
  /-- Mark it used. -/
  | locked (staffId : Uuid) (began : Timestamp)
  /-- Read whom it is for. -/
  | marked (staffId : Uuid) (began : Timestamp)
  /-- Commit. -/
  | read (ownerId staffId : Uuid) (began : Timestamp)
  /-- Open a session. -/
  | redeemed (ownerId staffId : Uuid)
  /-- Look the session up. -/
  | opened (sessionId : Uuid)
  /-- Store a refresh token. -/
  | answering (actor : SessionActor)
  | returned (outcome : Outcome)
  deriving DecidableEq

namespace Phase

/-- The codes that are deleted, and the deletion not yet committed. -/
def gone : Phase → Finset String
  | .deleted _ _ _ gone => gone
  | .inserted _ _ _ gone => gone
  | .cleared _ writes => writes.invites
  | _ => ∅

/-- The code that is inserted and not yet committed. -/
def inserting : Phase → Option String
  | .inserted _ codeHash _ _ => some codeHash
  | _ => none

/-- The staff member whose codes are being replaced, and the codes that were
read or deleted. -/
def replacing : Phase → Option (Uuid × Finset String)
  | .deleting staffId _ _ listed => some (staffId, listed)
  | .deleted staffId _ _ gone => some (staffId, gone)
  | .inserted staffId _ _ gone => some (staffId, gone)
  | _ => none

/-- The staff member whose row is locked. -/
def removing : Phase → Option Uuid
  | .staffMarked staffId _ => some staffId
  | .sessionsMarked staffId _ => some staffId
  | .tokensMarked staffId _ => some staffId
  | .clearing staffId _ _ => some staffId
  | .cleared staffId _ => some staffId
  | _ => none

/-- Whether the code of a phone is locked. -/
def locksCode : Phase → Bool
  | .locked _ _ => true
  | .marked _ _ => true
  | .read _ _ _ => true
  | _ => false

/-- Whether the code of a phone is used up, and no session opened yet. -/
def spent : Phase → Bool
  | .redeemed _ _ => true
  | _ => false

/-- Whether a call has ended. -/
def ended : Phase → Bool
  | .returned _ => true
  | _ => false

end Phase

/-- A call. -/
structure Call where
  /-- What it was asked to do. -/
  operation : Operation
  /-- How far it has come. -/
  phase : Phase
  deriving DecidableEq

/-- The code a phone came with. -/
def Operation.joinCode : Operation → Option String
  | .join codeHash _ => some codeHash
  | _ => none

/-- The code a call has locked to use it up. -/
def Call.redeems (c : Call) : Option String :=
  if c.phase.locksCode then c.operation.joinCode else none

/-- The code a call has used up, with no session opened yet. -/
def Call.spends (c : Call) : Option String :=
  if c.phase.spent then c.operation.joinCode else none

/-- A call has locked a code. -/
def Call.Holds (c : Call) (codeHash : String) : Prop :=
  c.redeems = some codeHash ∨ codeHash ∈ c.phase.gone

instance (c : Call) (codeHash : String) : Decidable (c.Holds codeHash) :=
  inferInstanceAs (Decidable (_ ∨ _))

/-- The server. -/
structure State where
  /-- What is committed. -/
  db : Db
  /-- The calls so far. -/
  calls : Table ℕ Call
  /-- The codes that were issued, the latest first. -/
  issued : List (Uuid × String)
  /-- The sessions that were opened with codes. -/
  opened : List (String × Uuid)

/-- A server without codes. -/
def State.initial (db : Db) : State := ⟨{ db with invites := Table.empty }, Table.empty, [], []⟩

/-- The code issued last for a staff member. -/
def State.lastIssued (s : State) (staffId : Uuid) : Option String :=
  (s.issued.find? fun entry => entry.1 = staffId).map Prod.snd

/-- What a step may draw at random. -/
structure Draw where
  /-- An id. -/
  id : Uuid
  /-- The fingerprint of a code. -/
  codeHash : String
  /-- The fingerprint of a token. -/
  tokenHash : String
  deriving DecidableEq

/-- What can happen next. -/
inductive Action where
  /-- A request arrives. -/
  | start (i : ℕ) (operation : Operation)
  /-- A call does its next step, at an instant. -/
  | next (i : ℕ) (now : Timestamp) (draw : Draw)
  /-- A call ends early, and its transaction is rolled back. -/
  | fail (i : ℕ)
  deriving DecidableEq

/-- A transaction has locked the code. -/
def CodeHeld (codeHash : String) (s : State) : Prop := s.calls.Any fun _ c => c.Holds codeHash

/-- A transaction has inserted the code. -/
def CodeInserted (codeHash : String) (s : State) : Prop :=
  s.calls.Any fun _ c => c.phase.inserting = some codeHash

/-- A transaction has locked the staff member. -/
def StaffHeld (staffId : Uuid) (s : State) : Prop :=
  s.calls.Any fun _ c => c.phase.removing = some staffId

instance (codeHash : String) (s : State) : Decidable (CodeHeld codeHash s) :=
  inferInstanceAs (Decidable (s.calls.Any _))

instance (codeHash : String) (s : State) : Decidable (CodeInserted codeHash s) :=
  inferInstanceAs (Decidable (s.calls.Any _))

instance (staffId : Uuid) (s : State) : Decidable (StaffHeld staffId s) :=
  inferInstanceAs (Decidable (s.calls.Any _))

/-- A call that has come further. -/
def State.advance (s : State) (i : ℕ) (c : Call) (phase : Phase) : State :=
  { s with calls := s.calls.put i { c with phase := phase } }

/-- Why an owner's plan does not include staff, if it does not. -/
def checkStaff (settings : Settings) (subscription : Option SubscriptionRecord) (now : Timestamp) :
    Option Outcome :=
  let standing := Standing.of subscription now settings.grace settings.enforced
  if standing.allowsStaff then none
  else if standing.canUpload then some .upgradeRequired
  else some .subscriptionRequired

/-- What the commit of a new code makes visible. -/
def replaced (db : Db) (staffId : Uuid) (codeHash : String) (expiresAt : Timestamp)
    (gone : Finset String) : Db :=
  { db with invites :=
      (db.invites.filter fun hash _ => hash ∉ gone).put codeHash ⟨staffId, expiresAt, none⟩ }

/-- The first step of a call; absent if it waits for a row. -/
def firstStep (settings : Settings) (s : State) (i : ℕ) (c : Call) (now : Timestamp) :
    Option State :=
  match c.operation with
  | .add _ _ _ subscription =>
    match checkStaff settings subscription now with
    | some refusal => some (s.advance i c (.returned refusal))
    | none => some (s.advance i c .creating)
  | .reinvite _ _ subscription =>
    match checkStaff settings subscription now with
    | some refusal => some (s.advance i c (.returned refusal))
    | none => some (s.advance i c .finding)
  | .remove storeId staffId =>
    match s.db.staff.find? staffId with
    | some st =>
      if st.storeId = storeId ∧ st.removedAt = none then
        if StaffHeld staffId s then none
        else some (s.advance i c (.staffMarked staffId ⟨{staffId}, ∅, ∅, ∅, now⟩))
      else some (s.advance i c (.returned .notFound))
    | none => some (s.advance i c (.returned .notFound))
  | .join codeHash _ =>
    match ownerOfCode s.db codeHash now with
    | some ownerId => some (s.advance i c (.owned ownerId))
    | none => some (s.advance i c .checked)

/-- The next step of a call; absent if it waits for a row or has ended. -/
def advance (settings : Settings) (s : State) (i : ℕ) (c : Call) (now : Timestamp) (draw : Draw) :
    Option State :=
  match c.phase with
  | .begun => firstStep settings s i c now
  | .creating =>
    match c.operation with
    | .add storeId displayName permissions _ =>
      if (s.db.staff.find? draw.id).isNone ∧ (s.db.stores.find? storeId).isSome then
        let member : StaffMember := ⟨storeId, trim displayName, permissions, none⟩
        some ({ s with db := { s.db with staff := s.db.staff.put draw.id member } }.advance i c
          (.issuing draw.id))
      else some (s.advance i c (.returned .failed))
    | _ => none
  | .finding =>
    match c.operation with
    | .reinvite storeId staffId _ =>
      match s.db.staff.find? staffId with
      | some st =>
        if st.storeId = storeId ∧ st.removedAt = none then some (s.advance i c (.issuing staffId))
        else some (s.advance i c (.returned .notFound))
      | none => some (s.advance i c (.returned .notFound))
    | _ => none
  | .issuing staffId => some (s.advance i c
      (.deleting staffId draw.codeHash (now + INVITE_LIFETIME) (unusedInvites s.db staffId)))
  | .deleting staffId codeHash expiresAt listed =>
    if ∃ hash ∈ listed, CodeHeld hash s then none
    else some (s.advance i c
      (.deleted staffId codeHash expiresAt (listed ∩ unusedInvites s.db staffId)))
  | .deleted staffId codeHash expiresAt gone =>
    -- A code that is taken violates a constraint, unless this transaction
    -- deleted it.
    if ((s.db.invites.find? codeHash).isSome ∧ codeHash ∉ gone) ∨
        (s.db.staff.find? staffId).isNone then
      some (s.advance i c (.returned .failed))
    else if CodeInserted codeHash s then none
    else some (s.advance i c (.inserted staffId codeHash expiresAt gone))
  | .inserted staffId codeHash expiresAt gone =>
    some ({ s with
      db := replaced s.db staffId codeHash expiresAt gone
      issued := (staffId, codeHash) :: s.issued }.advance i c (.returned .done))
  | .staffMarked staffId w => some (s.advance i c
      (.sessionsMarked staffId { w with sessions := liveSessions s.db (sessionsOf s.db staffId) }))
  | .sessionsMarked staffId w => some (s.advance i c
      (.tokensMarked staffId { w with tokens := liveTokens s.db (sessionsOf s.db staffId) }))
  | .tokensMarked staffId w => some (s.advance i c
      (.clearing staffId w (unusedInvites s.db staffId)))
  | .clearing staffId w listed =>
    if ∃ hash ∈ listed, CodeHeld hash s then none
    else some (s.advance i c
      (.cleared staffId { w with invites := listed ∩ unusedInvites s.db staffId }))
  | .cleared _ w => some ({ s with db := writeAll s.db w }.advance i c (.returned .done))
  | .owned ownerId =>
    match checkStaff settings (s.db.subscriptions.find? ownerId) now with
    | some refusal => some (s.advance i c (.returned refusal))
    | none => some (s.advance i c .checked)
  | .checked =>
    match c.operation with
    | .join codeHash _ =>
      match liveInvite s.db codeHash now with
      | some staffId => some (s.advance i c (.matching staffId now))
      | none => some (s.advance i c (.returned .invalidCode))
    | _ => none
  | .matching staffId began =>
    match c.operation with
    | .join codeHash _ =>
      if CodeHeld codeHash s then none
      else
        -- A code that was deleted and issued again is another row.
        match (s.db.invites.find? codeHash).filter fun invite =>
            invite.staffId = staffId ∧ invite.redeemedAt = none ∧ began < invite.expiresAt with
        | some _ => some (s.advance i c (.locked staffId began))
        | none => some (s.advance i c (.returned .invalidCode))
    | _ => none
  | .locked staffId began => some (s.advance i c (.marked staffId began))
  | .marked staffId began =>
    match (s.db.staff.find? staffId).bind fun st => s.db.stores.find? st.storeId with
    | some ownerId => some (s.advance i c (.read ownerId staffId began))
    | none => some (s.advance i c (.returned .failed))
  | .read ownerId staffId began =>
    match c.operation with
    | .join codeHash _ => some ({ s with db := markRedeemed s.db codeHash began }.advance i c
        (.redeemed ownerId staffId))
    | _ => none
  | .redeemed ownerId staffId =>
    match c.operation with
    | .join codeHash deviceName =>
      if (s.db.sessions.find? draw.id).isNone ∧ (s.db.owners.find? ownerId).isSome ∧
          (s.db.staff.find? staffId).isSome then
        some ({ s with
          db := openSession s.db draw.id ownerId (some staffId) deviceName now
          opened := (codeHash, draw.id) :: s.opened }.advance i c (.opened draw.id))
      else some (s.advance i c (.returned .failed))
    | _ => none
  | .opened sessionId =>
    match s.db.describe sessionId with
    | some actor => some (s.advance i c (.answering actor))
    | none => some (s.advance i c (.returned .failed))
  | .answering actor =>
    if (s.db.tokens.find? draw.tokenHash).isNone then
      let db := storeRefreshToken s.db actor draw.tokenHash (now + settings.refreshLifetime)
      some ({ s with db := db }.advance i c (.returned (.issued actor draw.tokenHash)))
    else some (s.advance i c (.returned .failed))
  | .returned _ => none

/-- One step of the server. -/
def step (settings : Settings) (s : State) : Action → Option State
  | .start i operation =>
    match s.calls.find? i with
    | some _ => none
    | none => some { s with calls := s.calls.put i ⟨operation, .begun⟩ }
  | .next i now draw =>
    match s.calls.find? i with
    | none => none
    | some c => advance settings s i c now draw
  | .fail i =>
    match s.calls.find? i with
    | none => none
    | some c => if c.phase.ended then none else some (s.advance i c (.returned .failed))

/-- Steps one after another. -/
def run (settings : Settings) (s : State) : List Action → Option State
  | [] => some s
  | a :: rest => (step settings s a).bind fun s' => run settings s' rest

end Kitaza.JoinCodes
