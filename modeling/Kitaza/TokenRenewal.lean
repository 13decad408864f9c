import Mathlib.Data.List.Basic
import Kitaza.KeyedTable

/-!
# Renewing tokens on a phone

A phone's requests, the exchange of its refresh token that they share, and
signing in and out, one await at a time. A phone does one thing at a time:
when a shared exchange is over, everyone who waited for it goes on in the order
in which they began to wait, each up to its next await, before anything else
happens. Reading, writing and deleting a key of the keystore succeeds, and
takes effect at any moment before the await is over.

Tokens carry, for the record, the sign-in whose session they are for; the
phone sees their text only.
-/

namespace Kitaza.TokenRenewal

open KeyedTable

/-- A token the server gave out. -/
structure Token where
  /-- The sign-in whose session it is for. -/
  signIn : ℕ
  /-- The token itself. -/
  text : String
  deriving DecidableEq, Repr

/-- How an attempt to renew the access token went. -/
inductive Renewal where
  | renewed (accessToken : Token)
  /-- The server said no to a token, or there is none. -/
  | refused (refreshToken : Option Token)
  /-- The server could not be asked. -/
  | unreachable
  /-- The answer was not understood, and an exception escapes. -/
  | thrown
  deriving DecidableEq

/-- How far an exchange has come: what it waits for. -/
inductive ExchangePhase where
  /-- The stored refresh token. -/
  | reading
  /-- The server's answer. -/
  | asking (refreshToken : Token)
  /-- The access token to be stored. -/
  | savingAccess (accessToken refreshToken : Token)
  /-- The refresh token to be stored. -/
  | savingRefresh (accessToken refreshToken : Token)
  | done (renewal : Renewal)
  deriving DecidableEq

/-- An exchange of the refresh token. -/
structure Exchange where
  /-- How far it has come. -/
  phase : ExchangePhase
  /-- The requests that wait for it, the first one first. -/
  waiters : List ℕ
  deriving DecidableEq

/-- How a request ended. -/
inductive Outcome where
  | resolved
  /-- With the error the server answered with. -/
  | failed
  /-- As one that could not be sent. -/
  | offline
  /-- With the exception that escaped from the exchange. -/
  | thrown
  deriving DecidableEq

/-- How far a request has come: what it waits for. -/
inductive RequestPhase where
  /-- The stored access token. -/
  | reading
  /-- The server's answer. -/
  | sent
  /-- An exchange. -/
  | waiting (exchange : ℕ)
  /-- The access token to be deleted, after a refusal. -/
  | clearingAccess (refused : Option Token)
  /-- The refresh token to be deleted. -/
  | clearingRefresh (refused : Option Token)
  /-- The server's answer to the second try. -/
  | replaying
  | ended (outcome : Outcome)
  deriving DecidableEq

/-- A request. -/
structure Request where
  /-- It is sent without a token. -/
  skipAuth : Bool
  /-- It has been sent again. -/
  retried : Bool
  /-- The token it is sent with. -/
  authorization : Option Token
  /-- How far it has come. -/
  phase : RequestPhase
  deriving DecidableEq

/-- What the person using the phone asks for. -/
inductive Operation where
  /-- Sign out. -/
  | signOut
  /-- Go on offline. -/
  | leaveCloud
  /-- Register, sign in, or join a store. -/
  | signIn
  /-- Move a store that has lived on the phone into the cloud. -/
  | upgradeToCloud
  deriving DecidableEq

/-- How far such an operation has come: what it waits for. -/
inductive ChangePhase where
  | begun
  /-- The server to hear of the sign-out. -/
  | telling
  /-- The access token to be deleted, on the way out. -/
  | clearingAccess
  /-- The refresh token to be deleted, on the way out. -/
  | clearingRefresh
  /-- Who used the phone before. -/
  | accepted (accessToken refreshToken : Token)
  /-- The access token of somebody else to be deleted. -/
  | wipingAccess (accessToken refreshToken : Token)
  /-- The refresh token of somebody else to be deleted. -/
  | wipingRefresh (accessToken refreshToken : Token)
  /-- The access token to be stored. -/
  | savingAccess (accessToken refreshToken : Token)
  /-- The refresh token to be stored. -/
  | savingRefresh (accessToken refreshToken : Token)
  | done
  | failed
  deriving DecidableEq

/-- Signing in or out. -/
structure Change where
  /-- What was asked for. -/
  operation : Operation
  /-- How far it has come. -/
  phase : ChangePhase
  deriving DecidableEq

/-- The phone. -/
structure State where
  /-- The stored access token. -/
  accessToken : Option Token
  /-- The stored refresh token. -/
  refreshToken : Option Token
  /-- The exchange that requests wait for. -/
  inFlightRefresh : Option ℕ
  /-- The exchanges so far, under the requests that started them. -/
  exchanges : Table ℕ Exchange
  /-- The requests so far. -/
  requests : Table ℕ Request
  /-- The sign-ins and sign-outs so far. -/
  changes : Table ℕ Change
  /-- Who goes on before anything else happens, and with what. -/
  ready : List (ℕ × Renewal)
  /-- The sign-in that was accepted last, unless the phone was signed out
  since. -/
  accepted : Option ℕ
  /-- The pairs of tokens the server gave out. -/
  issued : List (Token × Token)

/-- A phone nobody has signed in on. -/
def State.initial : State :=
  ⟨none, none, none, Table.empty, Table.empty, Table.empty, [], none, []⟩

/-- The server's answer to a request. -/
inductive Reply where
  | ok
  /-- An error, with a status if the server answered at all. -/
  | error (status : Option ℕ)
  deriving DecidableEq

/-- The server's answer to an exchange, or to a sign-in. -/
inductive Answer where
  /-- A body with tokens. -/
  | body (accessToken refreshToken : Option String)
  /-- A body whose refresh token is not a text. -/
  | malformed (accessToken : Option String)
  /-- An error, with a status if the server answered at all. -/
  | error (status : Option ℕ)
  deriving DecidableEq

/-- What can happen next. -/
inductive Action where
  /-- A request is made. -/
  | send (i : ℕ) (skipAuth : Bool)
  /-- What a request waits for happens. -/
  | request (i : ℕ) (reply : Reply)
  /-- What an exchange waits for happens. -/
  | exchange (n : ℕ) (answer : Answer)
  /-- The next of those who waited for an exchange goes on. -/
  | resume
  /-- The person signs in or out. -/
  | begin (k : ℕ) (operation : Operation)
  /-- What a sign-in or sign-out waits for happens. -/
  | change (k : ℕ) (answer : Answer) (samePerson : Bool)
  deriving DecidableEq

/-- A request that has come further. -/
def State.request (s : State) (i : ℕ) (r : Request) (phase : RequestPhase) : State :=
  { s with requests := s.requests.put i { r with phase := phase } }

/-- A request fails. -/
def onError (s : State) (i : ℕ) (r : Request) (status : Option ℕ) : State :=
  if status ≠ some 401 ∨ r.retried = true ∨ r.skipAuth = true then s.request i r (.ended .failed)
  else
    match s.inFlightRefresh with
    | some n =>
      { s with exchanges := s.exchanges.mapRows fun m e =>
          if m = n then { e with waiters := e.waiters ++ [i] } else e }.request i r (.waiting n)
    | none =>
      { s with
        inFlightRefresh := some i
        exchanges := s.exchanges.put i ⟨.reading, [i]⟩ }.request i r (.waiting i)

/-- What a request waits for happens; absent if it waits for an exchange. -/
def continueRequest (s : State) (i : ℕ) (r : Request) (reply : Reply) : Option State :=
  match r.phase with
  | .reading =>
    let authorization := if r.skipAuth then none else s.accessToken
    some (s.request i { r with authorization := authorization } .sent)
  | .sent =>
    match reply with
    | .ok => some (s.request i r (.ended .resolved))
    | .error status => some (onError s i r status)
  | .waiting n =>
    match (s.exchanges.find? n).map Exchange.phase with
    -- An exception stays in the field, and whoever waits for it gets it again.
    | some (.done .thrown) => some (s.request i r (.ended .thrown))
    | _ => none
  | .clearingAccess refused =>
    some ({ s with accessToken := none }.request i r (.clearingRefresh refused))
  | .clearingRefresh _ => some ({ s with refreshToken := none }.request i r (.ended .failed))
  | .replaying =>
    match reply with
    | .ok => some (s.request i r (.ended .resolved))
    | .error _ => some (s.request i r (.ended .failed))
  | .ended _ => none

/-- A request goes on after the exchange it waited for. -/
def resumed (s : State) (i : ℕ) (r : Request) : Renewal → State
  | .renewed accessToken => { s with inFlightRefresh := none }.request i
      { r with retried := true, authorization := some accessToken } .replaying
  | .refused refreshToken =>
    { s with inFlightRefresh := none }.request i r (.clearingAccess refreshToken)
  | .unreachable => { s with inFlightRefresh := none }.request i r (.ended .offline)
  | .thrown => s.request i r (.ended .thrown)

/-- The next of those who waited for an exchange goes on. -/
def resume (s : State) : Option State :=
  match s.ready with
  | [] => none
  | (i, renewal) :: rest =>
    (s.requests.find? i).bind fun r =>
      match r.phase with
      | .waiting _ => some (resumed { s with ready := rest } i r renewal)
      | _ => none

/-- An exchange that has come further. -/
def State.exchange (s : State) (n : ℕ) (e : Exchange) (phase : ExchangePhase) : State :=
  { s with exchanges := s.exchanges.put n { e with phase := phase } }

/-- An exchange is over. -/
def State.finish (s : State) (n : ℕ) (e : Exchange) (renewal : Renewal) : State :=
  { s with ready := e.waiters.map fun i => (i, renewal) }.exchange n e (.done renewal)

/-- What an exchange waits for happens; absent if it is over. -/
def refreshAccessToken (s : State) (n : ℕ) (e : Exchange) (answer : Answer) : Option State :=
  match e.phase with
  | .reading =>
    match s.refreshToken with
    | none => some (s.finish n e (.refused none))
    | some refreshToken => some (s.exchange n e (.asking refreshToken))
  | .asking refreshToken =>
    match answer with
    | .body none _ => some (s.finish n e .unreachable)
    | .malformed none => some (s.finish n e .unreachable)
    | .malformed (some _) => some (s.finish n e .thrown)
    | .body (some access) fresh =>
      let pair := (Token.mk refreshToken.signIn access,
        (fresh.map (Token.mk refreshToken.signIn)).getD refreshToken)
      some ({ s with issued := pair :: s.issued }.exchange n e (.savingAccess pair.1 pair.2))
    | .error status =>
      if status = some 401 ∨ status = some 403 then
        some (s.finish n e (.refused (some refreshToken)))
      else some (s.finish n e .unreachable)
  | .savingAccess accessToken refreshToken =>
    some ({ s with accessToken := some accessToken }.exchange n e
      (.savingRefresh accessToken refreshToken))
  | .savingRefresh accessToken refreshToken =>
    some ({ s with refreshToken := some refreshToken }.finish n e (.renewed accessToken))
  | .done _ => none

/-- A sign-in or sign-out that has come further. -/
def State.change (s : State) (k : ℕ) (c : Change) (phase : ChangePhase) : State :=
  { s with changes := s.changes.put k { c with phase := phase } }

/-- What a sign-in or sign-out waits for happens; absent if it has ended. -/
def continueChange (s : State) (k : ℕ) (c : Change) (answer : Answer) (samePerson : Bool) :
    Option State :=
  match c.phase with
  | .begun =>
    if c.operation = .signOut ∨ c.operation = .leaveCloud then
      match s.refreshToken with
      | none => some (s.change k c .clearingAccess)
      | some _ => some (s.change k c .telling)
    else
      match answer with
      | .body access refresh =>
        let accessToken := Token.mk k (access.getD "")
        let refreshToken := Token.mk k (refresh.getD "")
        -- Moving a store into the cloud does not ask who used the phone before.
        if c.operation = .upgradeToCloud then
          some (s.change k c (.savingAccess accessToken refreshToken))
        else some (s.change k c (.accepted accessToken refreshToken))
      | .malformed _ => some (s.change k c .failed)
      | .error _ => some (s.change k c .failed)
  | .telling => some (s.change k c .clearingAccess)
  | .clearingAccess =>
    some ({ s with accessToken := none, accepted := none }.change k c .clearingRefresh)
  | .clearingRefresh => some ({ s with refreshToken := none }.change k c .done)
  | .accepted accessToken refreshToken =>
    if samePerson then some (s.change k c (.savingAccess accessToken refreshToken))
    else some (s.change k c (.wipingAccess accessToken refreshToken))
  | .wipingAccess accessToken refreshToken =>
    some ({ s with accessToken := none }.change k c (.wipingRefresh accessToken refreshToken))
  | .wipingRefresh accessToken refreshToken =>
    some ({ s with refreshToken := none }.change k c (.savingAccess accessToken refreshToken))
  | .savingAccess accessToken refreshToken =>
    some ({ s with
      accessToken := some accessToken
      accepted := some k
      issued := (accessToken, refreshToken) :: s.issued }.change k c
        (.savingRefresh accessToken refreshToken))
  | .savingRefresh _ refreshToken =>
    some ({ s with refreshToken := some refreshToken }.change k c .done)
  | .done => none
  | .failed => none

/-- One step of the phone. -/
def step (s : State) : Action → Option State
  | .resume => resume s
  | .send i skipAuth =>
    if s.ready = [] ∧ s.requests.find? i = none then
      some { s with requests := s.requests.put i ⟨skipAuth, false, none, .reading⟩ }
    else none
  | .request i reply =>
    if s.ready = [] then (s.requests.find? i).bind fun r => continueRequest s i r reply else none
  | .exchange n answer =>
    if s.ready = [] then (s.exchanges.find? n).bind fun e => refreshAccessToken s n e answer
    else none
  | .begin k operation =>
    if s.ready = [] ∧ s.changes.find? k = none then
      some { s with changes := s.changes.put k ⟨operation, .begun⟩ }
    else none
  | .change k answer samePerson =>
    if s.ready = [] then
      (s.changes.find? k).bind fun c => continueChange s k c answer samePerson
    else none

/-- Steps one after another. -/
def run (s : State) : List Action → Option State
  | [] => some s
  | a :: rest => (step s a).bind fun s' => run s' rest

end Kitaza.TokenRenewal
