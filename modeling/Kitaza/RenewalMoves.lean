import Kitaza.TokenRenewal

/-!
# What happens when tokens are renewed

Who is at work on the tokens, when they keep out of each other's way, and
everything a step of the phone can do.
-/

namespace Kitaza.TokenRenewal

open KeyedTable

/-- An exchange has ended. -/
def ExchangePhase.ended : ExchangePhase → Bool
  | .done _ => true
  | _ => false

/-- An exchange has written one of two tokens. -/
def ExchangePhase.halfway : ExchangePhase → Bool
  | .savingRefresh _ _ => true
  | _ => false

/-- A request deletes the tokens. -/
def RequestPhase.losing : RequestPhase → Bool
  | .clearingAccess _ => true
  | .clearingRefresh _ => true
  | _ => false

/-- A request has deleted one of two tokens. -/
def RequestPhase.halfway : RequestPhase → Bool
  | .clearingRefresh _ => true
  | _ => false

/-- A sign-in or sign-out writes or deletes a token next. -/
def ChangePhase.writes : ChangePhase → Bool
  | .clearingAccess => true
  | .clearingRefresh => true
  | .wipingAccess _ _ => true
  | .wipingRefresh _ _ => true
  | .savingAccess _ _ => true
  | .savingRefresh _ _ => true
  | _ => false

/-- A sign-in or sign-out has written or deleted one of two tokens. -/
def ChangePhase.halfway : ChangePhase → Bool
  | .clearingRefresh => true
  | .wipingRefresh _ _ => true
  | .savingRefresh _ _ => true
  | _ => false

/-- No exchange is in flight. -/
def Answered (s : State) : Prop := ¬s.exchanges.Any fun _ e => e.phase.ended = false

/-- No request deletes the tokens. -/
def Keeping (s : State) : Prop := ¬s.requests.Any fun _ r => r.phase.losing = true

/-- No sign-in or sign-out is halfway, other than one. -/
def SettledBut (k : Option ℕ) (s : State) : Prop :=
  ¬s.changes.Any fun j c => some j ≠ k ∧ c.phase.halfway = true

/-- No sign-in or sign-out is halfway. -/
abbrev Settled (s : State) : Prop := SettledBut none s

/-- Nobody is halfway. -/
def Whole (s : State) : Prop :=
  (¬s.exchanges.Any fun _ e => e.phase.halfway = true) ∧
    (¬s.requests.Any fun _ r => r.phase.halfway = true) ∧ Settled s

/-- A request starts an exchange. -/
def Starts (s : State) (r : Request) (reply : Reply) : Prop :=
  r.phase = .sent ∧ reply = .error (some 401) ∧ r.retried = false ∧ r.skipAuth = false ∧
    s.inFlightRefresh = none

/-- Tokens are renewed, or signed in or out, by one at a time: an exchange
starts when nobody is in the middle of changing the tokens, and signing in or
out changes them when no exchange is in flight and nobody else is in the middle
of it. -/
def Safe (s : State) : Action → Prop
  | .request i reply => ∀ r ∈ s.requests.find? i, Starts s r reply → Keeping s ∧ Settled s
  | .change k _ _ => ∀ c ∈ s.changes.find? k, c.phase.writes = true →
      Answered s ∧ Keeping s ∧ SettledBut (some k) s
  | _ => True

/-- Every step of a run is safe. -/
def SafeRun (s : State) : List Action → Prop
  | [] => True
  | a :: rest => Safe s a ∧ ∀ s' ∈ step s a, SafeRun s' rest

/-- How a sign-in or sign-out changes a token. -/
inductive Wrote (s : State) (k : ℕ) (c : Change) : State → Prop
  | clearedAccess (hphase : c.phase = .clearingAccess) :
      Wrote s k c ({ s with accessToken := none, accepted := none }.change k c .clearingRefresh)
  | clearedRefresh (hphase : c.phase = .clearingRefresh) :
      Wrote s k c ({ s with refreshToken := none }.change k c .done)
  | wipedAccess {access refresh : Token} (hphase : c.phase = .wipingAccess access refresh) :
      Wrote s k c ({ s with accessToken := none }.change k c (.wipingRefresh access refresh))
  | wipedRefresh {access refresh : Token} (hphase : c.phase = .wipingRefresh access refresh) :
      Wrote s k c ({ s with refreshToken := none }.change k c (.savingAccess access refresh))
  | savedAccess {access refresh : Token} (hphase : c.phase = .savingAccess access refresh) :
      Wrote s k c ({ s with
        accessToken := some access
        accepted := some k
        issued := (access, refresh) :: s.issued }.change k c (.savingRefresh access refresh))
  | savedRefresh {access refresh : Token} (hphase : c.phase = .savingRefresh access refresh) :
      Wrote s k c ({ s with refreshToken := some refresh }.change k c .done)

/-- What a step can lead to. -/
inductive Moved (s : State) (a : Action) : State → Prop
  /-- A request goes on that neither deletes tokens nor starts an exchange. -/
  | request {i : ℕ} {r : Request} {exchanges : Table ℕ Exchange} (hready : s.ready = [])
      (hbefore : ∀ r, s.requests.find? i = some r → r.phase.losing = false)
      (hafter : r.phase.losing = false)
      (hexchanges : ∀ n, (exchanges.find? n).map Exchange.phase =
        (s.exchanges.find? n).map Exchange.phase) :
      Moved s a { s with exchanges := exchanges, requests := s.requests.put i r }
  /-- A request starts an exchange. -/
  | started {i : ℕ} {r r' : Request} (hready : s.ready = []) (hr : s.requests.find? i = some r)
      (hbefore : r.phase.losing = false) (hafter : r'.phase.losing = false)
      (hfield : s.inFlightRefresh = none) (hsafe : Safe s a → Keeping s ∧ Settled s) :
      Moved s a { s with
        inFlightRefresh := some i
        exchanges := s.exchanges.put i ⟨.reading, [i]⟩
        requests := s.requests.put i r' }
  /-- A request deletes the access token. -/
  | clearedAccess {i : ℕ} {r : Request} {refused : Option Token} (hready : s.ready = [])
      (hr : s.requests.find? i = some r) (hphase : r.phase = .clearingAccess refused) :
      Moved s a ({ s with accessToken := none }.request i r (.clearingRefresh refused))
  /-- A request deletes the refresh token. -/
  | clearedRefresh {i : ℕ} {r : Request} {refused : Option Token} (hready : s.ready = [])
      (hr : s.requests.find? i = some r) (hphase : r.phase = .clearingRefresh refused) :
      Moved s a ({ s with refreshToken := none }.request i r (.ended .failed))
  /-- A request goes on after an exchange. -/
  | resumed {i n : ℕ} {r : Request} {renewal : Renewal} {rest : List (ℕ × Renewal)}
      (hready : s.ready = (i, renewal) :: rest) (hr : s.requests.find? i = some r)
      (hphase : r.phase = .waiting n) :
      Moved s a (resumed { s with ready := rest } i r renewal)
  /-- An exchange reads the refresh token. -/
  | asked {n : ℕ} {e : Exchange} {refreshToken : Token} (hready : s.ready = [])
      (he : s.exchanges.find? n = some e) (hphase : e.phase = .reading)
      (htoken : s.refreshToken = some refreshToken) :
      Moved s a (s.exchange n e (.asking refreshToken))
  /-- An exchange finds no refresh token. -/
  | absent {n : ℕ} {e : Exchange} (hready : s.ready = []) (he : s.exchanges.find? n = some e)
      (hphase : e.phase = .reading) (htoken : s.refreshToken = none) :
      Moved s a (s.finish n e (.refused none))
  /-- The server gives no tokens for a refresh token. -/
  | answered {n : ℕ} {e : Exchange} {refreshToken : Token} {renewal : Renewal}
      (hready : s.ready = []) (he : s.exchanges.find? n = some e)
      (hphase : e.phase = .asking refreshToken)
      (hrenewal : ∀ refused, renewal = .refused refused → refused = some refreshToken) :
      Moved s a (s.finish n e renewal)
  /-- The server gives tokens for a refresh token. -/
  | issued {n : ℕ} {e : Exchange} {refreshToken access refresh : Token} (hready : s.ready = [])
      (he : s.exchanges.find? n = some e) (hphase : e.phase = .asking refreshToken)
      (haccess : access.signIn = refreshToken.signIn)
      (hrefresh : refresh.signIn = refreshToken.signIn) :
      Moved s a ({ s with issued := (access, refresh) :: s.issued }.exchange n e
        (.savingAccess access refresh))
  /-- An exchange stores the access token. -/
  | savedAccess {n : ℕ} {e : Exchange} {access refresh : Token} (hready : s.ready = [])
      (he : s.exchanges.find? n = some e) (hphase : e.phase = .savingAccess access refresh) :
      Moved s a ({ s with accessToken := some access }.exchange n e (.savingRefresh access refresh))
  /-- An exchange stores the refresh token. -/
  | savedRefresh {n : ℕ} {e : Exchange} {access refresh : Token} (hready : s.ready = [])
      (he : s.exchanges.find? n = some e) (hphase : e.phase = .savingRefresh access refresh) :
      Moved s a ({ s with refreshToken := some refresh }.finish n e (.renewed access))
  /-- A sign-in or sign-out goes on that changes no token. -/
  | change {k : ℕ} {c : Change} (hready : s.ready = [])
      (hbefore : ∀ c, s.changes.find? k = some c → c.phase.writes = false)
      (hafter : c.phase.halfway = false)
      (hok : (∀ c, s.changes.find? k = some c → ∀ access refresh, c.phase = .accepted access refresh →
        access.signIn = k ∧ refresh.signIn = k) → ∀ access refresh,
          c.phase = .accepted access refresh ∨ c.phase = .wipingAccess access refresh ∨
            c.phase = .savingAccess access refresh → access.signIn = k ∧ refresh.signIn = k) :
      Moved s a { s with changes := s.changes.put k c }
  /-- A sign-in or sign-out changes a token. -/
  | wrote {k : ℕ} {c : Change} {s' : State} (hready : s.ready = [])
      (hc : s.changes.find? k = some c)
      (hsafe : Safe s a → Answered s ∧ Keeping s ∧ SettledBut (some k) s)
      (hwrote : Wrote s k c s') : Moved s a s'

section

variable {s s' : State}

theorem moved_of_onError {i : ℕ} {r : Request} {status : Option ℕ} (hready : s.ready = [])
    (hr : s.requests.find? i = some r) (hphase : r.phase = .sent) :
    Moved s (.request i (.error status)) (onError s i r status) := by
  have hbefore : r.phase.losing = false := by
    rw [hphase]
    rfl
  have hcalm : ∀ r', s.requests.find? i = some r' → r'.phase.losing = false := by
    intro r' hr'
    rw [hr] at hr'
    cases hr'
    exact hbefore
  unfold onError
  split_ifs with hpass
  · exact Moved.request hready hcalm rfl fun n => rfl
  · rw [not_or, not_or, not_not, Bool.not_eq_true, Bool.not_eq_true] at hpass
    split
    · next n hfield =>
      refine Moved.request (r := { r with phase := .waiting n }) hready hcalm rfl fun m => ?_
      rw [Table.find?_mapRows, Option.map_map]
      congr 1
      funext e
      dsimp only [Function.comp_apply]
      split_ifs <;> rfl
    · next hfield =>
      refine Moved.started hready hr hbefore rfl hfield fun hsafe => ?_
      exact hsafe r hr ⟨hphase, by rw [hpass.1], hpass.2.1, hpass.2.2, hfield⟩

theorem moved_of_request {i : ℕ} {r : Request} {reply : Reply} (hready : s.ready = [])
    (hr : s.requests.find? i = some r) (h : continueRequest s i r reply = some s') :
    Moved s (.request i reply) s' := by
  have hcalm : r.phase.losing = false → ∀ r', s.requests.find? i = some r' →
      r'.phase.losing = false := by
    intro hbefore r' hr'
    rw [hr] at hr'
    cases hr'
    exact hbefore
  unfold continueRequest at h
  cases hphase : r.phase with
  | reading =>
    rw [hphase] at h
    cases h
    exact Moved.request hready (hcalm (by rw [hphase]; rfl)) rfl fun n => rfl
  | sent =>
    rw [hphase] at h
    cases reply with
    | ok =>
      cases h
      exact Moved.request hready (hcalm (by rw [hphase]; rfl)) rfl fun n => rfl
    | error status =>
      cases h
      exact moved_of_onError hready hr hphase
  | waiting n =>
    simp only [hphase] at h
    split at h
    · cases h
      exact Moved.request hready (hcalm (by rw [hphase]; rfl)) rfl fun n => rfl
    · cases h
  | clearingAccess refused =>
    rw [hphase] at h
    cases h
    exact Moved.clearedAccess hready hr hphase
  | clearingRefresh refused =>
    rw [hphase] at h
    cases h
    exact Moved.clearedRefresh hready hr hphase
  | replaying =>
    rw [hphase] at h
    cases reply <;>
      (cases h
       exact Moved.request hready (hcalm (by rw [hphase]; rfl)) rfl fun n => rfl)
  | ended outcome =>
    rw [hphase] at h
    cases h

theorem moved_of_exchange {a : Action} {n : ℕ} {e : Exchange} {answer : Answer}
    (hready : s.ready = []) (he : s.exchanges.find? n = some e)
    (h : refreshAccessToken s n e answer = some s') : Moved s a s' := by
  unfold refreshAccessToken at h
  cases hphase : e.phase with
  | reading =>
    simp only [hphase] at h
    cases htoken : s.refreshToken with
    | none =>
      rw [htoken] at h
      cases h
      exact Moved.absent hready he hphase htoken
    | some refreshToken =>
      rw [htoken] at h
      cases h
      exact Moved.asked hready he hphase htoken
  | asking refreshToken =>
    simp only [hphase] at h
    cases answer with
    | body access fresh =>
      cases access with
      | none =>
        cases h
        exact Moved.answered hready he hphase fun _ hrefused => by cases hrefused
      | some text =>
        cases h
        refine Moved.issued hready he hphase rfl ?_
        cases fresh <;> rfl
    | malformed access =>
      cases access <;>
        (cases h
         exact Moved.answered hready he hphase fun _ hrefused => by cases hrefused)
    | error status =>
      dsimp only at h
      split_ifs at h
      · cases h
        exact Moved.answered hready he hphase fun _ hrefused => by cases hrefused; rfl
      · cases h
        exact Moved.answered hready he hphase fun _ hrefused => by cases hrefused
  | savingAccess access refresh =>
    rw [hphase] at h
    cases h
    exact Moved.savedAccess hready he hphase
  | savingRefresh access refresh =>
    rw [hphase] at h
    cases h
    exact Moved.savedRefresh hready he hphase
  | done renewal =>
    rw [hphase] at h
    cases h

theorem moved_of_change {k : ℕ} {c : Change} {answer : Answer} {samePerson : Bool}
    (hready : s.ready = []) (hc : s.changes.find? k = some c)
    (h : continueChange s k c answer samePerson = some s') :
    Moved s (.change k answer samePerson) s' := by
  have hcalm : c.phase.writes = false → ∀ c', s.changes.find? k = some c' →
      c'.phase.writes = false := by
    intro hbefore c' hc'
    rw [hc] at hc'
    cases hc'
    exact hbefore
  have hwrite : c.phase.writes = true → Wrote s k c s' → Moved s (.change k answer samePerson) s' :=
    fun hwrites => Moved.wrote hready hc fun hsafe => hsafe c hc hwrites
  unfold continueChange at h
  cases hphase : c.phase with
  | begun =>
    have hbefore := hcalm (by rw [hphase]; rfl)
    simp only [hphase] at h
    by_cases hleave : c.operation = .signOut ∨ c.operation = .leaveCloud
    · rw [if_pos hleave] at h
      split at h <;>
        (cases h
         exact Moved.change hready hbefore rfl fun _ _ _ hafter => by simp at hafter)
    · rw [if_neg hleave] at h
      cases answer with
      | body access refresh =>
        dsimp only at h
        split_ifs at h <;>
          (cases h
           refine Moved.change hready hbefore rfl fun _ access refresh hafter => ?_
           simp at hafter
           obtain ⟨rfl, rfl⟩ := hafter
           exact ⟨rfl, rfl⟩)
      | malformed access =>
        cases h
        exact Moved.change hready hbefore rfl fun _ _ _ hafter => by simp at hafter
      | error status =>
        cases h
        exact Moved.change hready hbefore rfl fun _ _ _ hafter => by simp at hafter
  | telling =>
    rw [hphase] at h
    cases h
    exact Moved.change hready (hcalm (by rw [hphase]; rfl)) rfl fun _ _ _ hafter => by simp at hafter
  | accepted access refresh =>
    have hbefore := hcalm (by rw [hphase]; rfl)
    simp only [hphase] at h
    split_ifs at h <;>
      (cases h
       refine Moved.change hready hbefore rfl fun hok access' refresh' hafter => ?_
       simp at hafter
       obtain ⟨rfl, rfl⟩ := hafter
       exact hok c hc _ _ hphase)
  | clearingAccess =>
    rw [hphase] at h
    cases h
    exact hwrite (by rw [hphase]; rfl) (Wrote.clearedAccess hphase)
  | clearingRefresh =>
    rw [hphase] at h
    cases h
    exact hwrite (by rw [hphase]; rfl) (Wrote.clearedRefresh hphase)
  | wipingAccess access refresh =>
    rw [hphase] at h
    cases h
    exact hwrite (by rw [hphase]; rfl) (Wrote.wipedAccess hphase)
  | wipingRefresh access refresh =>
    rw [hphase] at h
    cases h
    exact hwrite (by rw [hphase]; rfl) (Wrote.wipedRefresh hphase)
  | savingAccess access refresh =>
    rw [hphase] at h
    cases h
    exact hwrite (by rw [hphase]; rfl) (Wrote.savedAccess hphase)
  | savingRefresh access refresh =>
    rw [hphase] at h
    cases h
    exact hwrite (by rw [hphase]; rfl) (Wrote.savedRefresh hphase)
  | done =>
    rw [hphase] at h
    cases h
  | failed =>
    rw [hphase] at h
    cases h

/-- Everything a step can do. -/
theorem moved_of_step {a : Action} (h : step s a = some s') : Moved s a s' := by
  cases a with
  | send i skipAuth =>
    simp only [step] at h
    split_ifs at h with hguard
    cases h
    refine Moved.request hguard.1 (fun r hr => ?_) rfl fun n => rfl
    rw [hguard.2] at hr
    cases hr
  | request i reply =>
    simp only [step] at h
    split_ifs at h with hready
    obtain ⟨r, hr, hnext⟩ := Option.bind_eq_some_iff.mp h
    exact moved_of_request hready hr hnext
  | exchange n answer =>
    simp only [step] at h
    split_ifs at h with hready
    obtain ⟨e, he, hnext⟩ := Option.bind_eq_some_iff.mp h
    exact moved_of_exchange hready he hnext
  | resume =>
    simp only [step, resume] at h
    split at h
    · cases h
    · next i renewal rest hready =>
      obtain ⟨r, hr, hnext⟩ := Option.bind_eq_some_iff.mp h
      split at hnext
      · next n hphase =>
        cases hnext
        exact Moved.resumed hready hr hphase
      · cases hnext
  | begin k operation =>
    simp only [step] at h
    split_ifs at h with hguard
    cases h
    refine Moved.change hguard.1 (fun c hc => ?_) rfl fun _ _ _ hafter => by simp at hafter
    rw [hguard.2] at hc
    cases hc
  | change k answer samePerson =>
    simp only [step] at h
    split_ifs at h with hready
    obtain ⟨c, hc, hnext⟩ := Option.bind_eq_some_iff.mp h
    exact moved_of_change hready hc hnext

end

end Kitaza.TokenRenewal
