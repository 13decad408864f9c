import Kitaza.BillingPlan
import Kitaza.KeyedTable

/-!
# Registering an account

Any number of registrations at once, one database call at a time. The owner,
the first store and the trial are written in one transaction, the consents in
two statements after it, and the session after those. A call may fail, or the
process stop, at any point: before a statement has done its work or after.
-/

namespace Kitaza.Registration

open KeyedTable Primitives BillingPlan

/-- A document an owner agrees to. -/
inductive LegalDocument where
  | privacyNotice
  | terms
  deriving DecidableEq, Repr

namespace LegalDocument

/-- All documents. -/
def all : List LegalDocument := [.privacyNotice, .terms]

/-- The text a document is stored as. -/
def columnValue : LegalDocument → String
  | .privacyNotice => "privacy_notice"
  | .terms => "terms"

/-- The version an account must have agreed to. -/
def currentVersion : LegalDocument → String
  | .privacyNotice => "2026-09-01"
  | .terms => "2026-09-01"

theorem columnValue_injective : Function.Injective columnValue := by
  intro a b h
  cases a <;> cases b <;> first | rfl | exact absurd h (by decide)

end LegalDocument

/-- A request to register. -/
structure RegisterRequest where
  /-- The email address. -/
  email : String
  /-- The password. -/
  password : String
  /-- The owner's name. -/
  fullName : String
  /-- The store's name. -/
  storeName : String
  /-- What kind of store it is. -/
  businessType : Option String
  /-- What kind of device asks. -/
  deviceTag : Option String
  /-- The device's name. -/
  deviceName : Option String
  /-- The version of the privacy notice that was agreed to. -/
  acceptedPrivacyVersion : Option String
  /-- The version of the terms that was agreed to. -/
  acceptedTermsVersion : Option String
  deriving DecidableEq, Repr

/-- Functions of the platform. -/
structure Platform where
  /-- A text in lower case, as the service has it. -/
  toLowercase : String → String
  /-- A text in lower case, as the database has it. -/
  lower : String → String
  /-- The hash a password is stored as. -/
  hashPassword : String → String
  /-- How long a trial lasts. -/
  trial : ℤ
  /-- How long a refresh token lasts. -/
  refreshLifetime : ℤ

/-- A version that has to be agreed to. -/
def checkAgreed (document : LegalDocument) (given : Option String) : Except ApiError Unit :=
  if given = some document.currentVersion then .ok ()
  else .error (.badRequest
    (document.columnValue ++ " version " ++ document.currentVersion ++ " must be agreed to"))

/-- What a new account says it agreed to. -/
def checkRegistrationConsent (privacyVersion termsVersion : Option String) :
    Except ApiError Unit := do
  checkAgreed .privacyNotice privacyVersion
  checkAgreed .terms termsVersion

/-- The kind of store a request leaves out. -/
def DEFAULT_BUSINESS_TYPE : String := "sari_sari"

/-- The name of a device that gives none. -/
def UNKNOWN_DEVICE : String := "Unknown device"

/-- A device is named by its model, then by its tag. -/
def deviceName (name tag : Option String) : String :=
  (((name.or tag).map fun value => String.ofList ((trim value).toList.take 80)).filter
    (· ≠ "")).getD UNKNOWN_DEVICE

/-- A row of `owners`. -/
structure OwnerRow where
  /-- The email address. -/
  email : String
  /-- The hash of the password. -/
  passwordHash : String
  /-- The name. -/
  fullName : String
  deriving DecidableEq, Repr

/-- A row of `stores`. -/
structure StoreRow where
  /-- The store's identifier. -/
  id : Uuid
  /-- The owner. -/
  ownerId : Uuid
  /-- The name. -/
  name : String
  /-- What kind of store it is. -/
  businessType : String
  deriving DecidableEq, Repr

/-- A row of `consent_records`. -/
structure ConsentRow where
  /-- The owner. -/
  ownerId : Uuid
  /-- The document. -/
  document : String
  /-- The version. -/
  version : String
  deriving DecidableEq, Repr

/-- A row of `device_sessions`. -/
structure SessionRow where
  /-- The owner. -/
  ownerId : Uuid
  /-- The device's name. -/
  deviceName : String
  deriving DecidableEq, Repr

/-- A row of `refresh_tokens`. -/
structure TokenRow where
  /-- The owner. -/
  ownerId : Uuid
  /-- The session. -/
  sessionId : Uuid
  /-- When it expires. -/
  expiresAt : Timestamp
  deriving DecidableEq, Repr

/-- The tables a registration writes. -/
structure Db where
  /-- The table `owners`. -/
  owners : Table Uuid OwnerRow
  /-- The table `stores`. -/
  stores : List StoreRow
  /-- Subscriptions under their owners. -/
  subscriptions : Table Uuid SubscriptionRecord
  /-- The table `consent_records`. -/
  consents : List ConsentRow
  /-- The table `device_sessions`. -/
  sessions : Table Uuid SessionRow
  /-- Refresh tokens under their fingerprints, which are unique. -/
  tokens : Table String TokenRow

/-- Consents and subscriptions are of owners there are. -/
structure Db.ForeignKeys (db : Db) : Prop where
  /-- Consents. -/
  consents : ∀ row ∈ db.consents, (db.owners.find? row.ownerId).isSome
  /-- Subscriptions. -/
  subscriptions : ∀ id row, db.subscriptions.find? id = some row → (db.owners.find? id).isSome

/-- Whether an owner agreed to a version of a document. -/
def Db.hasConsent (db : Db) (ownerId : Uuid) (document : LegalDocument) (version : String) : Bool :=
  db.consents.any fun row =>
    row.ownerId = ownerId && row.document == document.columnValue && row.version == version

/-- Record an agreement, unless it is recorded. -/
def recordConsent (db : Db) (ownerId : Uuid) (document : LegalDocument) (version : String) : Db :=
  if db.hasConsent ownerId document version then db
  else { db with consents := db.consents ++ [⟨ownerId, document.columnValue, version⟩] }

/-- An owner with this email address. -/
def findOwnerByEmail (p : Platform) (db : Db) (email : String) : Option OwnerRow :=
  db.owners.first? fun _ row => p.lower row.email == p.lower email

/-- The rows of a transaction that creates an account. -/
structure NewAccount where
  /-- The owner's identifier. -/
  ownerId : Uuid
  /-- The owner. -/
  owner : OwnerRow
  /-- The store. -/
  store : Option StoreRow
  /-- The trial. -/
  trial : Option SubscriptionRecord
  deriving DecidableEq, Repr

/-- How far a call has come: what it does next. -/
inductive Phase where
  /-- Check the consent. -/
  | begun
  /-- Look for the email address. -/
  | checked
  /-- Begin the transaction and insert the owner. -/
  | free
  /-- Insert the store. -/
  | ownerInserted (account : NewAccount)
  /-- Insert the trial. -/
  | storeInserted (account : NewAccount)
  /-- Commit. -/
  | trialInserted (account : NewAccount)
  /-- Record the consents that are left. -/
  | consenting (ownerId : Uuid) (left : List LegalDocument)
  /-- Open a session. -/
  | opening (ownerId : Uuid)
  /-- Look who is behind the session. -/
  | resolving (ownerId sessionId : Uuid)
  /-- Store a refresh token. -/
  | issuing (ownerId sessionId : Uuid)
  /-- Read the account. -/
  | describing (ownerId sessionId : Uuid)
  /-- The call has answered. -/
  | returned (result : Except ApiError Uuid)
  /-- The call failed or the process stopped. -/
  | stopped
  deriving DecidableEq

/-- Whether a call has ended. -/
def Phase.ended : Phase → Bool
  | .returned _ => true
  | .stopped => true
  | _ => false

/-- The rows a call has written and not committed. -/
def Phase.inFlight : Phase → Option NewAccount
  | .ownerInserted account => some account
  | .storeInserted account => some account
  | .trialInserted account => some account
  | _ => none

/-- A call. -/
structure Call where
  /-- What was asked. -/
  request : RegisterRequest
  /-- The owner it created. -/
  created : Option Uuid
  /-- How far it has come. -/
  phase : Phase
  deriving DecidableEq

/-- The server and its database. -/
structure State where
  /-- What is committed. -/
  db : Db
  /-- The calls so far. -/
  calls : Table ℕ Call

/-- No call yet. -/
def State.initial (db : Db) : State := ⟨db, Table.empty⟩

/-- What a statement may draw or read: an identifier, a token, the clock. -/
structure Draw where
  /-- The identifier. -/
  id : Uuid
  /-- The fingerprint of the token. -/
  token : String
  /-- The clock. -/
  now : Timestamp
  deriving DecidableEq, Repr

/-- What can happen next. -/
inductive Action where
  /-- A request arrives. -/
  | arrive (i : ℕ) (request : RegisterRequest)
  /-- A call does its next step. -/
  | next (i : ℕ) (draw : Draw)
  /-- A call fails or the process stops before the next step. -/
  | fail (i : ℕ)
  /-- The next step is done, but the call fails or the process stops there. -/
  | lose (i : ℕ) (draw : Draw)
  deriving DecidableEq

/-- The address a request registers. -/
def emailOf (p : Platform) (request : RegisterRequest) : String :=
  p.toLowercase (trim request.email)

/-- Another transaction has inserted an owner of this identifier or email
address. -/
def Claimed (p : Platform) (i : ℕ) (id : Uuid) (email : String) (s : State) : Prop :=
  s.calls.Any fun j c => j ≠ i ∧ ∃ account ∈ c.phase.inFlight,
    account.ownerId = id ∨ p.lower account.owner.email = p.lower email

instance (p : Platform) (i : ℕ) (id : Uuid) (email : String) (s : State) :
    Decidable (Claimed p i id email s) :=
  have : ∀ (j : ℕ) (c : Call), Decidable (j ≠ i ∧ ∃ account ∈ c.phase.inFlight,
      account.ownerId = id ∨ p.lower account.owner.email = p.lower email) := fun j c =>
    match c.phase.inFlight with
    | none => .isFalse (by simp)
    | some account => decidable_of_iff
        (j ≠ i ∧ (account.ownerId = id ∨ p.lower account.owner.email = p.lower email)) (by simp)
  inferInstanceAs (Decidable (s.calls.Any _))

/-- The error of a violated constraint. -/
def violated : ApiError := .internal "a constraint was violated"

/-- A call that has come further. -/
def State.advance (s : State) (i : ℕ) (c : Call) (phase : Phase) : State :=
  { s with calls := s.calls.put i { c with phase := phase } }

/-- The database with an account in it. -/
def Db.withAccount (db : Db) (account : NewAccount) : Db where
  owners := db.owners.put account.ownerId account.owner
  stores := db.stores ++ account.store.toList
  subscriptions := match account.trial with
    | some trial => db.subscriptions.put account.ownerId trial
    | none => db.subscriptions
  consents := db.consents
  sessions := db.sessions
  tokens := db.tokens

/-- The next step of a call; absent if it waits for another transaction or
has ended. -/
def register (p : Platform) (s : State) (i : ℕ) (c : Call) (draw : Draw) : Option State :=
  match c.phase with
  | .begun =>
    match checkRegistrationConsent c.request.acceptedPrivacyVersion
        c.request.acceptedTermsVersion with
    | .ok () => some (s.advance i c .checked)
    | .error error => some (s.advance i c (.returned (.error error)))
  | .checked =>
    match findOwnerByEmail p s.db (emailOf p c.request) with
    | some _ => some (s.advance i c
        (.returned (.error (.conflict "an account already uses this email address"))))
    | none => some (s.advance i c .free)
  | .free =>
    let email := p.lower (emailOf p c.request)
    let owner : OwnerRow := ⟨email, p.hashPassword c.request.password, trim c.request.fullName⟩
    if Claimed p i draw.id email s then none
    else if (s.db.owners.find? draw.id).isSome || (findOwnerByEmail p s.db email).isSome then
      some (s.advance i c (.returned (.error violated)))
    else some (s.advance i c (.ownerInserted ⟨draw.id, owner, none, none⟩))
  | .ownerInserted account =>
    if s.db.stores.any (·.id = draw.id) then some (s.advance i c (.returned (.error violated)))
    else
      let store : StoreRow := ⟨draw.id, account.ownerId, trim c.request.storeName,
        c.request.businessType.getD DEFAULT_BUSINESS_TYPE⟩
      some (s.advance i c (.storeInserted { account with store := some store }))
  | .storeInserted account =>
    let trial : SubscriptionRecord := ⟨"pro", some (draw.now + p.trial), none⟩
    some (s.advance i c (.trialInserted { account with trial := some trial }))
  | .trialInserted account =>
    some
      { db := s.db.withAccount account
        calls := s.calls.put i { c with
          created := some account.ownerId
          phase := .consenting account.ownerId LegalDocument.all } }
  | .consenting ownerId left =>
    match left with
    | [] => some (s.advance i c (.opening ownerId))
    | document :: left =>
      some ({ s with db := recordConsent s.db ownerId document document.currentVersion }.advance
        i c (.consenting ownerId left))
  | .opening ownerId =>
    if (s.db.sessions.find? draw.id).isSome then
      some (s.advance i c (.returned (.error violated)))
    else
      let session : SessionRow :=
        ⟨ownerId, deviceName c.request.deviceName c.request.deviceTag⟩
      some ({ s with db := { s.db with sessions := s.db.sessions.put draw.id session } }.advance
        i c (.resolving ownerId draw.id))
  | .resolving ownerId sessionId =>
    match s.db.sessions.find? sessionId with
    | some _ => some (s.advance i c (.issuing ownerId sessionId))
    | none => some (s.advance i c (.returned (.error (.internal "a new session did not resolve"))))
  | .issuing ownerId sessionId =>
    if (s.db.tokens.find? draw.token).isSome then
      some (s.advance i c (.returned (.error violated)))
    else
      let token : TokenRow := ⟨ownerId, sessionId, draw.now + p.refreshLifetime⟩
      some ({ s with db := { s.db with tokens := s.db.tokens.put draw.token token } }.advance
        i c (.describing ownerId sessionId))
  | .describing ownerId sessionId =>
    match s.db.owners.find? ownerId with
    | some _ => some (s.advance i c (.returned (.ok sessionId)))
    | none => some (s.advance i c (.returned (.error (.notFound "account"))))
  | .returned _ => none
  | .stopped => none

/-- A call that ends where it is. -/
def State.halt (s : State) (i : ℕ) : State :=
  { s with calls := s.calls.mapRows fun j c => if j = i then { c with phase := .stopped } else c }

/-- One step of the server. -/
def step (p : Platform) (s : State) : Action → Option State
  | .arrive i request =>
    match s.calls.find? i with
    | some _ => none
    | none => some { s with calls := s.calls.put i ⟨request, none, .begun⟩ }
  | .next i draw =>
    match s.calls.find? i with
    | none => none
    | some c => register p s i c draw
  | .fail i =>
    match s.calls.find? i with
    | none => none
    | some c => if c.phase.ended then none else some (s.halt i)
  | .lose i draw =>
    match s.calls.find? i with
    | none => none
    | some c => (register p s i c draw).map fun s' => s'.halt i

/-- Steps one after another. -/
def run (p : Platform) (s : State) : List Action → Option State
  | [] => some s
  | a :: rest => (step p s a).bind fun s' => run p s' rest

end Kitaza.Registration
