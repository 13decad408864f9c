import Kitaza.RenewalMoves

/-!
# The tokens a phone keeps

At most one exchange is in flight, whatever happens. The stored tokens are
those of the person signed in, and only those are cleared, as long as nobody
signs in or out while tokens are being renewed: an exchange and the requests
that wait for it work with what the phone held when it began.
-/

namespace Kitaza.TokenRenewal

open KeyedTable

/-- The stored tokens came together, or there are none. -/
def Paired (s : State) : Prop :=
  (s.accessToken = none ∧ s.refreshToken = none) ∨
    ∃ a r, s.accessToken = some a ∧ s.refreshToken = some r ∧ (a, r) ∈ s.issued

/-- The stored tokens are those of the sign-in that was accepted last. -/
structure Stored (s : State) : Prop where
  /-- The access token is. -/
  access : ∀ a, s.accessToken = some a → s.accepted = some a.signIn
  /-- The refresh token is, unless somebody is in the middle of signing in or
  out. -/
  refresh : Settled s → ∀ r, s.refreshToken = some r → s.accepted = some r.signIn
  /-- They came together, unless somebody is in the middle of changing them. -/
  paired : Whole s → Paired s

/-- The server refused a token of the person signed in, or nothing is stored. -/
def Lost (s : State) : Option Token → Prop
  | none => s.accessToken = none ∧ s.refreshToken = none
  | some t => s.accepted = some t.signIn

/-- Two tokens of the person signed in that came together. -/
def Given (s : State) (accessToken refreshToken : Token) : Prop :=
  s.accepted = some accessToken.signIn ∧ s.accepted = some refreshToken.signIn ∧
    (accessToken, refreshToken) ∈ s.issued

/-- What an exchange knows. -/
def ExchangeOk (s : State) : ExchangePhase → Prop
  | .reading => True
  | .asking refreshToken => s.accepted = some refreshToken.signIn
  | .savingAccess accessToken refreshToken => Given s accessToken refreshToken
  | .savingRefresh accessToken refreshToken =>
    Given s accessToken refreshToken ∧ s.accessToken = some accessToken
  | .done _ => True

/-- What a request knows that deletes the tokens. -/
def RequestOk (s : State) : RequestPhase → Prop
  | .clearingAccess refused => Lost s refused
  | .clearingRefresh refused => Lost s refused ∧ s.accessToken = none
  | _ => True

/-- What a sign-in or sign-out knows. -/
def ChangeOk (s : State) (k : ℕ) : ChangePhase → Prop
  | .clearingRefresh => s.accessToken = none
  | .accepted accessToken refreshToken => accessToken.signIn = k ∧ refreshToken.signIn = k
  | .wipingAccess accessToken refreshToken => accessToken.signIn = k ∧ refreshToken.signIn = k
  | .wipingRefresh accessToken refreshToken =>
    (accessToken.signIn = k ∧ refreshToken.signIn = k) ∧ s.accessToken = none
  | .savingAccess accessToken refreshToken => accessToken.signIn = k ∧ refreshToken.signIn = k
  | .savingRefresh accessToken refreshToken =>
    Given s accessToken refreshToken ∧ s.accessToken = some accessToken
  | _ => True

/-- An exchange in flight is the one in the field, and nobody goes on. -/
def Single (s : State) : Prop :=
  ∀ n e, s.exchanges.find? n = some e → e.phase.ended = false →
    s.inFlightRefresh = some n ∧ s.ready = []

/-- The parties keep out of each other's way. -/
structure Apart (s : State) : Prop where
  /-- The stored tokens are right. -/
  stored : Stored s
  /-- Exchanges know what they do. -/
  exchanges : ∀ n e, s.exchanges.find? n = some e → ExchangeOk s e.phase
  /-- So do requests. -/
  requests : ∀ i r, s.requests.find? i = some r → RequestOk s r.phase
  /-- So do sign-ins and sign-outs. -/
  changes : ∀ k c, s.changes.find? k = some c → ChangeOk s k c.phase
  /-- So do those who go on. -/
  ready : ∀ i refused, (i, Renewal.refused refused) ∈ s.ready → Lost s refused
  /-- While tokens are renewed, nobody is in the middle of signing in or out. -/
  renewing : s.ready ≠ [] ∨ ¬Answered s ∨ ¬Keeping s → Settled s
  /-- While an exchange is in flight, no request deletes the tokens. -/
  keeping : ¬Answered s → Keeping s

section

variable {s s' : State} {a : Action} {n : ℕ} {e : Exchange}

/-- Only one exchange is in flight. -/
theorem Single.unique (h : Single s) (he : s.exchanges.find? n = some e)
    (hactive : e.phase.ended = false) {m : ℕ} {f : Exchange} (hf : s.exchanges.find? m = some f)
    (hother : f.phase.ended = false) : m = n :=
  Option.some.inj ((h m f hf hother).1.symm.trans (h n e he hactive).1)

/-- The exchange in flight goes on. -/
theorem Single.put (h : Single s) (he : s.exchanges.find? n = some e)
    (hactive : e.phase.ended = false) {e' : Exchange}
    (hexchanges : s'.exchanges = s.exchanges.put n e')
    (hfield : s'.inFlightRefresh = s.inFlightRefresh)
    (hready : e'.phase.ended = false → s'.ready = []) : Single s' := by
  intro m f hf hother
  rw [hexchanges, Table.find?_put] at hf
  split_ifs at hf with hm
  · cases hf
    rw [hm, hfield]
    exact ⟨(h n e he hactive).1, hready hother⟩
  · exact absurd (h.unique he hactive hf hother) hm

theorem Single.moved (h : Single s) (hmoved : Moved s a s') : Single s' := by
  cases hmoved with
  | @request i r exchanges hready hbefore hafter hexchanges =>
    intro n e he hactive
    have hphase := hexchanges n
    change exchanges.find? n = some e at he
    rw [he, Option.map_some] at hphase
    obtain ⟨e', he', hsame⟩ := Option.map_eq_some_iff.mp hphase.symm
    exact h n e' he' (hsame ▸ hactive)
  | @started i r r' hready hr hbefore hafter hfield hsafe =>
    intro n e he hactive
    change (s.exchanges.put i _).find? n = some e at he
    rw [Table.find?_put] at he
    split_ifs at he with hn
    · exact ⟨congrArg some hn.symm, hready⟩
    · exact absurd (hfield.symm.trans (h n e he hactive).1) (Option.some_ne_none n).symm
  | clearedAccess => exact h
  | clearedRefresh => exact h
  | @resumed i n r renewal rest hready hr hphase =>
    intro m e he hactive
    have he' : s.exchanges.find? m = some e := by cases renewal <;> exact he
    have hnone := (h m e he' hactive).2
    rw [hready] at hnone
    cases hnone
  | asked hready he hphase htoken =>
    exact h.put he (by rw [hphase]; rfl) rfl rfl fun _ => hready
  | absent hready he hphase htoken =>
    exact h.put he (by rw [hphase]; rfl) rfl rfl fun hended => by cases hended
  | answered hready he hphase hrenewal =>
    exact h.put he (by rw [hphase]; rfl) rfl rfl fun hended => by cases hended
  | issued hready he hphase => exact h.put he (by rw [hphase]; rfl) rfl rfl fun _ => hready
  | savedAccess hready he hphase => exact h.put he (by rw [hphase]; rfl) rfl rfl fun _ => hready
  | savedRefresh hready he hphase =>
    exact h.put he (by rw [hphase]; rfl) rfl rfl fun hended => by cases hended
  | change => exact h
  | wrote hready hc hsafe hwrote => cases hwrote <;> exact h

end

section

variable {s s' : State} {a : Action}

theorem answered_iff_ended :
    Answered s ↔ ∀ n e, s.exchanges.find? n = some e → e.phase.ended = true := by
  simp only [Answered, Table.not_any, Bool.not_eq_false]

theorem keeping_iff :
    Keeping s ↔ ∀ i r, s.requests.find? i = some r → r.phase.losing = false := by
  simp only [Keeping, Table.not_any, Bool.not_eq_true]

theorem settled_iff :
    Settled s ↔ ∀ k c, s.changes.find? k = some c → c.phase.halfway = false := by
  simp [SettledBut, Table.not_any]

theorem settledBut_iff {k : ℕ} : SettledBut (some k) s ↔
    ∀ j c, s.changes.find? j = some c → j ≠ k → c.phase.halfway = false := by
  simp [SettledBut, Table.not_any]

theorem exchangeOk_of_ended {phase : ExchangePhase} (h : phase.ended = true) :
    ExchangeOk s phase := by
  cases phase <;> trivial

theorem requestOk_of_not_losing {phase : RequestPhase} (h : phase.losing = false) :
    RequestOk s phase := by
  cases phase <;> trivial

/-- Who is not in the middle of changing tokens does not rely on them. -/
theorem ChangeOk.of_not_halfway {k : ℕ} {phase : ChangePhase} (h : ChangeOk s k phase)
    (hphase : phase.halfway = false) : ChangeOk s' k phase := by
  cases phase <;> first | exact h | cases hphase

theorem halfway_of_ended {phase : ExchangePhase} (h : phase.ended = true) :
    phase.halfway = false := by
  cases phase <;> first | rfl | cases h

theorem halfway_of_not_losing {phase : RequestPhase} (h : phase.losing = false) :
    phase.halfway = false := by
  cases phase <;> first | rfl | cases h

theorem halfway_of_not_writes {phase : ChangePhase} (h : phase.writes = false) :
    phase.halfway = false := by
  cases phase <;> first | rfl | cases h

/-- A sign-in carries its own tokens. -/
theorem changeOk_of {k : ℕ} {phase : ChangePhase} (hphase : phase.halfway = false)
    (h : ∀ access refresh, phase = .accepted access refresh ∨ phase = .wipingAccess access refresh ∨
      phase = .savingAccess access refresh → access.signIn = k ∧ refresh.signIn = k) :
    ChangeOk s k phase := by
  cases phase with
  | accepted access refresh => exact h access refresh (Or.inl rfl)
  | wipingAccess access refresh => exact h access refresh (Or.inr (Or.inl rfl))
  | savingAccess access refresh => exact h access refresh (Or.inr (Or.inr rfl))
  | _ => trivial

/-- Nobody is halfway when only one exchange is at work, and it is not. -/
theorem whole_of {n : ℕ} {e : Exchange} (h : Single s) (he : s.exchanges.find? n = some e)
    (hactive : e.phase.ended = false) (hhalf : e.phase.halfway = false) (hkeeping : Keeping s)
    (hsettled : Settled s) : Whole s := by
  refine ⟨Table.not_any.mpr fun m f hf => ?_, Table.not_any.mpr fun i r hr => ?_, hsettled⟩
  · rw [Bool.not_eq_true]
    cases hended : f.phase.ended with
    | true => exact halfway_of_ended hended
    | false =>
      obtain rfl := h.unique he hactive hf hended
      rw [he] at hf
      cases hf
      exact hhalf
  · rw [Bool.not_eq_true]
    exact halfway_of_not_losing (keeping_iff.mp hkeeping i r hr)

/-- The stored tokens came together as long as the exchange in flight has
stored none. -/
theorem Apart.paired (h : Apart s) (hsingle : Single s) {n : ℕ} {e : Exchange}
    (he : s.exchanges.find? n = some e) (hactive : e.phase.ended = false)
    (hhalf : e.phase.halfway = false) (hkeeping : Keeping s) (hsettled : Settled s) : Paired s :=
  h.stored.paired (whole_of hsingle he hactive hhalf hkeeping hsettled)

/-- The exchange in flight goes on: nobody else is at work. -/
theorem Apart.exchange (h : Apart s) (hsingle : Single s) {n : ℕ} {e e' : Exchange}
    (he : s.exchanges.find? n = some e) (hactive : e.phase.ended = false)
    (hexchanges : s'.exchanges = s.exchanges.put n e') (hrequests : s'.requests = s.requests)
    (hchanges : s'.changes = s.changes)
    (hstored : Keeping s → Settled s → Stored s') (hok : Keeping s → Settled s → ExchangeOk s' e'.phase)
    (hready : Keeping s → Settled s → ∀ i refused, (i, Renewal.refused refused) ∈ s'.ready →
      Lost s' refused) : Apart s' := by
  have hbusy : ¬Answered s := by
    intro hanswered
    rw [answered_iff_ended.mp hanswered n e he] at hactive
    cases hactive
  have hkeeping := h.keeping hbusy
  have hsettled := h.renewing (Or.inr (Or.inl hbusy))
  refine ⟨hstored hkeeping hsettled, ?_, ?_, ?_, hready hkeeping hsettled, ?_, ?_⟩
  · intro m f hf
    rw [hexchanges, Table.find?_put] at hf
    split_ifs at hf with hm
    · cases hf
      exact hok hkeeping hsettled
    · refine exchangeOk_of_ended ?_
      by_contra hother
      exact hm (hsingle.unique he hactive hf (by simpa using hother))
  · intro i r hr
    rw [hrequests] at hr
    exact requestOk_of_not_losing (keeping_iff.mp hkeeping i r hr)
  · intro k c hc
    rw [hchanges] at hc
    exact (h.changes k c hc).of_not_halfway (settled_iff.mp hsettled k c hc)
  · intro _
    unfold Settled SettledBut at hsettled ⊢
    rwa [hchanges]
  · intro _
    unfold Keeping at hkeeping ⊢
    rwa [hrequests]

/-- A request deletes a token: nobody else is at work but others that do. -/
theorem Apart.lose (h : Apart s) (hready : s.ready = []) {i : ℕ} {r r' : Request}
    (hr : s.requests.find? i = some r) (hlosing : r.phase.losing = true)
    (hrequests : s'.requests = s.requests.put i r') (hexchanges : s'.exchanges = s.exchanges)
    (hchanges : s'.changes = s.changes) (hnobody : s'.ready = s.ready)
    (hlost : ∀ refused, Lost s refused → Lost s' refused)
    (haccess : s.accessToken = none → s'.accessToken = none)
    (hstored : Answered s → Settled s → Stored s') (hok : RequestOk s' r'.phase) : Apart s' := by
  have hbusy : ¬Keeping s := by
    intro hkeeping
    rw [keeping_iff.mp hkeeping i r hr] at hlosing
    cases hlosing
  have hanswered : Answered s := not_not.mp fun hflight => hbusy (h.keeping hflight)
  have hsettled := h.renewing (Or.inr (Or.inr hbusy))
  refine ⟨hstored hanswered hsettled, ?_, ?_, ?_, ?_, ?_, ?_⟩
  · intro m f hf
    rw [hexchanges] at hf
    exact exchangeOk_of_ended (answered_iff_ended.mp hanswered m f hf)
  · intro j d hd
    rw [hrequests, Table.find?_put] at hd
    split_ifs at hd with hj
    · cases hd
      exact hok
    · have hbefore := h.requests j d hd
      cases hphase : d.phase with
      | clearingAccess refused =>
        rw [hphase] at hbefore
        exact hlost refused hbefore
      | clearingRefresh refused =>
        rw [hphase] at hbefore
        exact ⟨hlost refused hbefore.1, haccess hbefore.2⟩
      | _ => trivial
  · intro k c hc
    rw [hchanges] at hc
    exact (h.changes k c hc).of_not_halfway (settled_iff.mp hsettled k c hc)
  · intro j refused hmem
    rw [hnobody, hready] at hmem
    cases hmem
  · intro _
    unfold Settled SettledBut at hsettled ⊢
    rwa [hchanges]
  · intro hflight
    refine absurd ?_ hflight
    unfold Answered at hanswered ⊢
    rwa [hexchanges]

/-- Somebody signing in or out changes a token: nobody else is at work. -/
theorem Apart.write (h : Apart s) (hready : s.ready = []) {k : ℕ} {c' : Change}
    (hanswered : Answered s) (hkeeping : Keeping s) (hsettled : SettledBut (some k) s)
    (hchanges : s'.changes = s.changes.put k c') (hexchanges : s'.exchanges = s.exchanges)
    (hrequests : s'.requests = s.requests) (hnobody : s'.ready = s.ready) (hstored : Stored s')
    (hok : ChangeOk s' k c'.phase) : Apart s' := by
  have hstill : Answered s' := by
    unfold Answered at hanswered ⊢
    rwa [hexchanges]
  have hkept : Keeping s' := by
    unfold Keeping at hkeeping ⊢
    rwa [hrequests]
  refine ⟨hstored, ?_, ?_, ?_, ?_, ?_, ?_⟩
  · intro m f hf
    exact exchangeOk_of_ended (answered_iff_ended.mp hstill m f hf)
  · intro i r hr
    exact requestOk_of_not_losing (keeping_iff.mp hkept i r hr)
  · intro j c hc
    rw [hchanges, Table.find?_put] at hc
    split_ifs at hc with hj
    · cases hc
      rw [hj]
      exact hok
    · exact (h.changes j c hc).of_not_halfway (settledBut_iff.mp hsettled j c hc hj)
  · intro i refused hmem
    rw [hnobody, hready] at hmem
    cases hmem
  · rintro (hbusy | hbusy | hbusy)
    · exact absurd (hnobody.trans hready) hbusy
    · exact absurd hstill hbusy
    · exact absurd hkept hbusy
  · exact fun hflight => absurd hstill hflight

/-- A request goes on, and the tokens stay. -/
theorem Apart.still (h : Apart s) {i : ℕ} {r' : Request} {field : Option ℕ}
    {exchanges : Table ℕ Exchange} {ready : List (ℕ × Renewal)}
    (hbefore : ∀ r, s.requests.find? i = some r → r.phase.halfway = false)
    (hok : RequestOk s r'.phase)
    (hexchanges : ∀ n e, exchanges.find? n = some e → ExchangeOk s e.phase)
    (hwhole : (¬exchanges.Any fun _ e => e.phase.halfway = true) →
      ¬s.exchanges.Any fun _ e => e.phase.halfway = true)
    (hready : ∀ j refused, (j, Renewal.refused refused) ∈ ready → Lost s refused)
    (hrenewing : ready ≠ [] ∨ (exchanges.Any fun _ e => e.phase.ended = false) ∨
      ¬Keeping { s with requests := s.requests.put i r' } → Settled s)
    (hkeeping : (exchanges.Any fun _ e => e.phase.ended = false) →
      Keeping { s with requests := s.requests.put i r' }) :
    Apart { s with
      inFlightRefresh := field
      exchanges := exchanges
      requests := s.requests.put i r'
      ready := ready } := by
  refine ⟨⟨h.stored.access, h.stored.refresh, fun hw => h.stored.paired ?_⟩, hexchanges, ?_,
    h.changes, hready, ?_, ?_⟩
  · refine ⟨hwhole hw.1, Table.not_any.mpr fun j d hd => ?_, hw.2.2⟩
    by_cases hj : j = i
    · rw [hj] at hd
      simp [hbefore d hd]
    · exact (Table.not_any_put.mp hw.2.1).2 j d hj hd
  · intro j d hd
    change (s.requests.put i r').find? j = some d at hd
    rw [Table.find?_put] at hd
    split_ifs at hd with hj
    · cases hd
      exact hok
    · exact h.requests j d hd
  · rintro (hbusy | hbusy | hbusy)
    · exact hrenewing (Or.inl hbusy)
    · exact hrenewing (Or.inr (Or.inl (not_not.mp hbusy)))
    · exact hrenewing (Or.inr (Or.inr hbusy))
  · exact fun hflight => hkeeping (not_not.mp hflight)

/-- The phases of exchanges are the same in two tables. -/
theorem any_phase {t u : Table ℕ Exchange}
    (h : ∀ n, (t.find? n).map Exchange.phase = (u.find? n).map Exchange.phase)
    (p : ExchangePhase → Bool) {b : Bool} (hany : t.Any fun _ e => p e.phase = b) :
    u.Any fun _ e => p e.phase = b := by
  obtain ⟨n, e, he, hp⟩ := hany
  have hphase := h n
  rw [he, Option.map_some] at hphase
  obtain ⟨e', he', hsame⟩ := Option.map_eq_some_iff.mp hphase.symm
  refine ⟨n, e', he', ?_⟩
  change p e'.phase = b
  rw [hsame]
  exact hp

/-- Requests that do not delete tokens stay out of it. -/
theorem keeping_put {i : ℕ} {r' : Request} (h : Keeping s) (hafter : r'.phase.losing = false) :
    Keeping { s with requests := s.requests.put i r' } := by
  refine Table.not_any_put.mpr ⟨by simp [hafter], fun j d _ hd => ?_⟩
  simp [keeping_iff.mp h j d hd]

/-- While somebody is in the middle of signing in or out, only the access token
has to be right. -/
theorem stored_of_halfway {k : ℕ} {c : Change} (hc : s.changes.find? k = some c)
    (hhalf : c.phase.halfway = true)
    (haccess : ∀ a, s.accessToken = some a → s.accepted = some a.signIn) : Stored s := by
  have hnot : ¬Settled s := by
    intro hsettled
    rw [settled_iff.mp hsettled k c hc] at hhalf
    cases hhalf
  exact ⟨haccess, fun hsettled => absurd hsettled hnot, fun hw => absurd hw.2.2 hnot⟩

/-- A change of a token keeps the parties apart. -/
theorem Apart.wrote (h : Apart s) (hready : s.ready = []) {k : ℕ} {c : Change}
    (hc : s.changes.find? k = some c) (hanswered : Answered s) (hkeeping : Keeping s)
    (hsettled : SettledBut (some k) s) (hwrote : Wrote s k c s') : Apart s' := by
  have hk := h.changes k c hc
  have hput : ∀ c' : Change, (s.changes.put k c').find? k = some c' := fun _ => Table.find?_put_self _ _ _
  cases hwrote with
  | clearedAccess hphase =>
    exact h.write hready hanswered hkeeping hsettled rfl rfl rfl rfl
      (stored_of_halfway (hput _) rfl fun a ha => by cases ha) rfl
  | clearedRefresh hphase =>
    rw [hphase] at hk
    exact h.write hready hanswered hkeeping hsettled rfl rfl rfl rfl
      ⟨h.stored.access, fun _ r hr => (by cases hr), fun _ => Or.inl ⟨hk, rfl⟩⟩ trivial
  | wipedAccess hphase =>
    rw [hphase] at hk
    exact h.write hready hanswered hkeeping hsettled rfl rfl rfl rfl
      (stored_of_halfway (hput _) rfl fun a ha => by cases ha) ⟨hk, rfl⟩
  | wipedRefresh hphase =>
    rw [hphase] at hk
    exact h.write hready hanswered hkeeping hsettled rfl rfl rfl rfl
      ⟨h.stored.access, fun _ r hr => (by cases hr), fun _ => Or.inl ⟨hk.2, rfl⟩⟩ hk.1
  | @savedAccess access refresh hphase =>
    rw [hphase] at hk
    refine h.write hready hanswered hkeeping hsettled rfl rfl rfl rfl
      (stored_of_halfway (hput _) rfl fun a ha => ?_) ⟨⟨?_, ?_, List.mem_cons_self⟩, rfl⟩
    · cases ha
      exact congrArg some hk.1.symm
    · exact congrArg some hk.1.symm
    · exact congrArg some hk.2.symm
  | @savedRefresh access refresh hphase =>
    rw [hphase] at hk
    refine h.write hready hanswered hkeeping hsettled rfl rfl rfl rfl
      ⟨h.stored.access, fun _ r hr => ?_, fun _ => Or.inr ⟨access, refresh, hk.2, rfl, hk.1.2.2⟩⟩
      trivial
    cases hr
    exact hk.1.2.1

/-- A request that deletes no tokens goes on. -/
theorem Apart.goOn (h : Apart s) {i : ℕ} {r : Request} {exchanges : Table ℕ Exchange}
    (hready : s.ready = []) (hbefore : ∀ r, s.requests.find? i = some r → r.phase.losing = false)
    (hafter : r.phase.losing = false)
    (hexchanges : ∀ n, (exchanges.find? n).map Exchange.phase =
      (s.exchanges.find? n).map Exchange.phase) :
    Apart { s with exchanges := exchanges, requests := s.requests.put i r } := by
  refine h.still (fun r hr => halfway_of_not_losing (hbefore r hr))
    (requestOk_of_not_losing hafter) (fun n e he => ?_)
    (fun hnone hany => hnone (any_phase (fun n => (hexchanges n).symm) ExchangePhase.halfway hany))
    (fun j refused hmem => h.ready j refused hmem) ?_ ?_
  · have hphase := hexchanges n
    rw [he, Option.map_some] at hphase
    obtain ⟨e', he', hsame⟩ := Option.map_eq_some_iff.mp hphase.symm
    exact hsame ▸ h.exchanges n e' he'
  · rintro (hbusy | hbusy | hbusy)
    · exact absurd hready hbusy
    · exact h.renewing (Or.inr (Or.inl (not_not.mpr (any_phase hexchanges ExchangePhase.ended hbusy))))
    · exact h.renewing (Or.inr (Or.inr fun hkeeping => hbusy (keeping_put hkeeping hafter)))
  · intro hbusy
    exact keeping_put (h.keeping (not_not.mpr (any_phase hexchanges ExchangePhase.ended hbusy))) hafter

/-- A request starts an exchange. -/
theorem Apart.start (h : Apart s) (hsingle : Single s) {i : ℕ} {r' : Request}
    (hafter : r'.phase.losing = false) (hfield : s.inFlightRefresh = none) (hkeeping : Keeping s)
    (hsettled : Settled s) :
    Apart { s with
      inFlightRefresh := some i
      exchanges := s.exchanges.put i ⟨.reading, [i]⟩
      requests := s.requests.put i r' } := by
  have hanswered : Answered s := by
    rw [answered_iff_ended]
    intro n e he
    by_contra hactive
    exact absurd (hfield.symm.trans (hsingle n e he (by simpa using hactive)).1)
      (Option.some_ne_none n).symm
  refine h.still (fun d hd => ?_) (requestOk_of_not_losing hafter) (fun n e he => ?_)
    (fun _ => Table.not_any.mpr fun n e he => ?_) (fun j refused hmem => h.ready j refused hmem)
    (fun _ => hsettled) fun _ => keeping_put hkeeping hafter
  · exact halfway_of_not_losing (keeping_iff.mp hkeeping i d hd)
  · rw [Table.find?_put] at he
    split_ifs at he
    · cases he
      trivial
    · exact h.exchanges n e he
  · simp [halfway_of_ended (answered_iff_ended.mp hanswered n e he)]

/-- A request deletes the access token. -/
theorem Apart.clearAccess (h : Apart s) {i : ℕ} {r : Request} {refused : Option Token}
    (hready : s.ready = []) (hr : s.requests.find? i = some r)
    (hphase : r.phase = .clearingAccess refused) :
    Apart ({ s with accessToken := none }.request i r (.clearingRefresh refused)) := by
  have hr' := h.requests i r hr
  rw [hphase] at hr'
  refine h.lose hready hr (by rw [hphase]; rfl) rfl rfl rfl rfl ?_ (fun _ => rfl) ?_ ?_
  · intro w hw
    cases w with
    | none => exact ⟨rfl, hw.2⟩
    | some t => exact hw
  · refine fun _ _ => ⟨fun a ha => (by cases ha), h.stored.refresh, fun hw => ?_⟩
    exact absurd rfl (Table.not_any_put.mp hw.2.1).1
  · cases refused with
    | none => exact ⟨⟨rfl, hr'.2⟩, rfl⟩
    | some t => exact ⟨hr', rfl⟩

/-- A request deletes the refresh token. -/
theorem Apart.clearRefresh (h : Apart s) {i : ℕ} {r : Request} {refused : Option Token}
    (hready : s.ready = []) (hr : s.requests.find? i = some r)
    (hphase : r.phase = .clearingRefresh refused) :
    Apart ({ s with refreshToken := none }.request i r (.ended .failed)) := by
  have hr' := h.requests i r hr
  rw [hphase] at hr'
  refine h.lose hready hr (by rw [hphase]; rfl) rfl rfl rfl rfl ?_ (fun hnone => hnone) ?_ trivial
  · intro w hw
    cases w with
    | none => exact ⟨hw.1, rfl⟩
    | some t => exact hw
  · exact fun _ _ => ⟨h.stored.access, fun _ r hr => (by cases hr), fun _ => Or.inl ⟨hr'.2, rfl⟩⟩

/-- A request goes on after an exchange. -/
theorem Apart.resume (h : Apart s) (hsingle : Single s) {i n : ℕ} {r : Request} {renewal : Renewal}
    {rest : List (ℕ × Renewal)} (hready : s.ready = (i, renewal) :: rest)
    (hr : s.requests.find? i = some r) (hphase : r.phase = .waiting n) :
    Apart (resumed { s with ready := rest } i r renewal) := by
  have hanswered : Answered s := by
    rw [answered_iff_ended]
    intro m e he
    by_contra hactive
    have hnone := (hsingle m e he (by simpa using hactive)).2
    rw [hready] at hnone
    cases hnone
  have hsettled : Settled s := h.renewing (Or.inl (by rw [hready]; exact List.cons_ne_nil _ _))
  have hgo : ∀ (field : Option ℕ) (r' : Request), RequestOk s r'.phase → Apart { s with
      inFlightRefresh := field, requests := s.requests.put i r', ready := rest } := by
    intro field r' hok
    refine h.still (fun d hd => ?_) hok h.exchanges (fun hnone => hnone) (fun j refused hmem => ?_)
      (fun _ => hsettled) fun hbusy => absurd hbusy hanswered
    · rw [hr] at hd
      cases hd
      rw [hphase]
      rfl
    · refine h.ready j refused ?_
      rw [hready]
      exact List.mem_cons_of_mem _ hmem
  cases renewal with
  | renewed accessToken => exact hgo none _ trivial
  | refused refreshToken =>
    refine hgo none _ (h.ready i refreshToken ?_)
    rw [hready]
    exact List.mem_cons_self
  | unreachable => exact hgo none _ trivial
  | thrown => exact hgo s.inFlightRefresh _ trivial

/-- An exchange reads the refresh token. -/
theorem Apart.ask (h : Apart s) (hsingle : Single s) {n : ℕ} {e : Exchange} {refreshToken : Token}
    (he : s.exchanges.find? n = some e) (hphase : e.phase = .reading)
    (htoken : s.refreshToken = some refreshToken) : Apart (s.exchange n e (.asking refreshToken)) := by
  have hactive : e.phase.ended = false := by rw [hphase]; rfl
  refine h.exchange hsingle he hactive rfl rfl rfl (fun hkeeping hsettled => ?_)
    (fun _ hsettled => h.stored.refresh hsettled _ htoken) fun _ _ j refused hmem => ?_
  · have hpaired := h.paired hsingle he hactive (by rw [hphase]; rfl) hkeeping hsettled
    exact ⟨h.stored.access, h.stored.refresh, fun _ => hpaired⟩
  · exact h.ready j refused hmem

/-- An exchange finds no refresh token. -/
theorem Apart.absent (h : Apart s) (hsingle : Single s) {n : ℕ} {e : Exchange}
    (he : s.exchanges.find? n = some e) (hphase : e.phase = .reading)
    (htoken : s.refreshToken = none) : Apart (s.finish n e (.refused none)) := by
  have hactive : e.phase.ended = false := by rw [hphase]; rfl
  refine h.exchange hsingle he hactive rfl rfl rfl (fun hkeeping hsettled => ?_)
    (fun _ _ => trivial) fun hkeeping hsettled j refused hmem => ?_
  · have hpaired := h.paired hsingle he hactive (by rw [hphase]; rfl) hkeeping hsettled
    exact ⟨h.stored.access, h.stored.refresh, fun _ => hpaired⟩
  · obtain ⟨_, _, hpair⟩ := List.mem_map.mp hmem
    cases hpair
    cases h.paired hsingle he hactive (by rw [hphase]; rfl) hkeeping hsettled with
    | inl hnone => exact hnone
    | inr hpair =>
      obtain ⟨_, r, _, hr, _⟩ := hpair
      rw [htoken] at hr
      cases hr

/-- The server gives no tokens for a refresh token. -/
theorem Apart.answer (h : Apart s) (hsingle : Single s) {n : ℕ} {e : Exchange} {refreshToken : Token}
    {renewal : Renewal} (he : s.exchanges.find? n = some e)
    (hphase : e.phase = .asking refreshToken)
    (hrenewal : ∀ refused, renewal = .refused refused → refused = some refreshToken) :
    Apart (s.finish n e renewal) := by
  have hactive : e.phase.ended = false := by rw [hphase]; rfl
  have hexchange := h.exchanges n e he
  rw [hphase] at hexchange
  refine h.exchange hsingle he hactive rfl rfl rfl (fun hkeeping hsettled => ?_)
    (fun _ _ => trivial) fun _ _ j refused hmem => ?_
  · have hpaired := h.paired hsingle he hactive (by rw [hphase]; rfl) hkeeping hsettled
    exact ⟨h.stored.access, h.stored.refresh, fun _ => hpaired⟩
  · obtain ⟨_, _, hpair⟩ := List.mem_map.mp hmem
    have hsame : renewal = .refused refused := congrArg Prod.snd hpair
    rw [hrenewal refused hsame]
    exact hexchange

/-- The server gives tokens for a refresh token. -/
theorem Apart.issue (h : Apart s) (hsingle : Single s) {n : ℕ} {e : Exchange}
    {refreshToken access refresh : Token} (he : s.exchanges.find? n = some e)
    (hphase : e.phase = .asking refreshToken) (haccess : access.signIn = refreshToken.signIn)
    (hrefresh : refresh.signIn = refreshToken.signIn) :
    Apart ({ s with issued := (access, refresh) :: s.issued }.exchange n e
      (.savingAccess access refresh)) := by
  have hactive : e.phase.ended = false := by rw [hphase]; rfl
  have hexchange := h.exchanges n e he
  rw [hphase] at hexchange
  refine h.exchange hsingle he hactive rfl rfl rfl (fun hkeeping hsettled => ?_)
    (fun _ _ => ⟨?_, ?_, List.mem_cons_self⟩) fun _ _ j refused hmem => ?_
  · have hpaired := h.paired hsingle he hactive (by rw [hphase]; rfl) hkeeping hsettled
    refine ⟨h.stored.access, h.stored.refresh, fun _ => hpaired.imp_right ?_⟩
    rintro ⟨a, r, ha, hr, hmem⟩
    exact ⟨a, r, ha, hr, List.mem_cons_of_mem _ hmem⟩
  · rw [haccess]
    exact hexchange
  · rw [hrefresh]
    exact hexchange
  · exact h.ready j refused hmem

/-- An exchange stores the access token. -/
theorem Apart.saveAccess (h : Apart s) (hsingle : Single s) {n : ℕ} {e : Exchange}
    {access refresh : Token} (hready : s.ready = []) (he : s.exchanges.find? n = some e)
    (hphase : e.phase = .savingAccess access refresh) :
    Apart ({ s with accessToken := some access }.exchange n e (.savingRefresh access refresh)) := by
  have hexchange := h.exchanges n e he
  rw [hphase] at hexchange
  refine h.exchange hsingle he (by rw [hphase]; rfl) rfl rfl rfl (fun _ _ => ?_)
    (fun _ _ => ⟨hexchange, rfl⟩) fun _ _ j refused hmem => ?_
  · refine ⟨fun a ha => ?_, h.stored.refresh, fun hw => ?_⟩
    · cases ha
      exact hexchange.1
    · exact absurd rfl (Table.not_any_put.mp hw.1).1
  · change (j, Renewal.refused refused) ∈ s.ready at hmem
    rw [hready] at hmem
    cases hmem

/-- An exchange stores the refresh token. -/
theorem Apart.saveRefresh (h : Apart s) (hsingle : Single s) {n : ℕ} {e : Exchange}
    {access refresh : Token} (he : s.exchanges.find? n = some e)
    (hphase : e.phase = .savingRefresh access refresh) :
    Apart ({ s with refreshToken := some refresh }.finish n e (.renewed access)) := by
  have hexchange := h.exchanges n e he
  rw [hphase] at hexchange
  refine h.exchange hsingle he (by rw [hphase]; rfl) rfl rfl rfl (fun _ _ => ?_)
    (fun _ _ => trivial) fun _ _ j refused hmem => ?_
  · refine ⟨h.stored.access, fun _ r hr => ?_, fun _ => ?_⟩
    · cases hr
      exact hexchange.1.2.1
    · exact Or.inr ⟨access, refresh, hexchange.2, rfl, hexchange.1.2.2⟩
  · obtain ⟨_, _, hpair⟩ := List.mem_map.mp hmem
    cases hpair

/-- A sign-in or sign-out goes on that changes no token. -/
theorem Apart.change (h : Apart s) {k : ℕ} {c : Change}
    (hbefore : ∀ c, s.changes.find? k = some c → c.phase.writes = false)
    (hafter : c.phase.halfway = false)
    (hok : (∀ c, s.changes.find? k = some c → ∀ access refresh, c.phase = .accepted access refresh →
      access.signIn = k ∧ refresh.signIn = k) → ∀ access refresh,
        c.phase = .accepted access refresh ∨ c.phase = .wipingAccess access refresh ∨
          c.phase = .savingAccess access refresh → access.signIn = k ∧ refresh.signIn = k) :
    Apart { s with changes := s.changes.put k c } := by
  have hstill : Settled s → Settled { s with changes := s.changes.put k c } := by
    intro hsettled
    rw [settled_iff] at hsettled ⊢
    intro j d hd
    change (s.changes.put k c).find? j = some d at hd
    rw [Table.find?_put] at hd
    split_ifs at hd
    · cases hd
      exact hafter
    · exact hsettled j d hd
  have hback : Settled { s with changes := s.changes.put k c } → Settled s := by
    intro hsettled
    rw [settled_iff] at hsettled ⊢
    intro j d hd
    by_cases hj : j = k
    · rw [hj] at hd
      exact halfway_of_not_writes (hbefore d hd)
    · exact hsettled j d ((Table.find?_put_ne _ _ hj).trans hd)
  refine ⟨⟨h.stored.access, fun hsettled => h.stored.refresh (hback hsettled), fun hw =>
    h.stored.paired ⟨hw.1, hw.2.1, hback hw.2.2⟩⟩, h.exchanges, h.requests, ?_, h.ready,
    fun hbusy => hstill (h.renewing hbusy), h.keeping⟩
  intro j d hd
  change (s.changes.put k c).find? j = some d at hd
  rw [Table.find?_put] at hd
  split_ifs at hd with hj
  · cases hd
    rw [hj]
    refine changeOk_of hafter (hok fun c' hc' access refresh hphase => ?_)
    have hc'' := h.changes k c' hc'
    rw [hphase] at hc''
    exact hc''
  · exact h.changes j d hd

/-- Every step keeps the parties apart, if it is safe. -/
theorem Apart.moved (h : Apart s) (hsingle : Single s) (hsafe : Safe s a) (hmoved : Moved s a s') :
    Apart s' := by
  cases hmoved with
  | @request i r exchanges hready hbefore hafter hexchanges =>
    exact h.goOn hready hbefore hafter hexchanges
  | @started i r r' hready hr hbefore hafter hfield hstart =>
    exact h.start hsingle hafter hfield (hstart hsafe).1 (hstart hsafe).2
  | @clearedAccess i r refused hready hr hphase =>
    exact h.clearAccess hready hr hphase
  | @clearedRefresh i r refused hready hr hphase =>
    exact h.clearRefresh hready hr hphase
  | @resumed i n r renewal rest hready hr hphase =>
    exact h.resume hsingle hready hr hphase
  | @asked n e refreshToken hready he hphase htoken =>
    exact h.ask hsingle he hphase htoken
  | @absent n e hready he hphase htoken =>
    exact h.absent hsingle he hphase htoken
  | @answered n e refreshToken renewal hready he hphase hrenewal =>
    exact h.answer hsingle he hphase hrenewal
  | @issued n e refreshToken access refresh hready he hphase haccess hrefresh =>
    exact h.issue hsingle he hphase haccess hrefresh
  | @savedAccess n e access refresh hready he hphase =>
    exact h.saveAccess hsingle hready he hphase
  | @savedRefresh n e access refresh hready he hphase =>
    exact h.saveRefresh hsingle he hphase
  | @change k c hready hbefore hafter hok =>
    exact h.change hbefore hafter hok
  | wrote hready hc hwrites hwrote =>
    obtain ⟨hanswered, hkeeping, hsettled⟩ := hwrites hsafe
    exact h.wrote hready hc hanswered hkeeping hsettled hwrote

/-- A request deletes tokens only if the server refused a token of the session
they are for. -/
theorem Apart.cleared (h : Apart s) {i : ℕ} {r : Request} {refused : Option Token}
    (hr : s.requests.find? i = some r)
    (hphase : r.phase = .clearingAccess refused ∨ r.phase = .clearingRefresh refused) {t : Token}
    (ht : s.accessToken = some t ∨ s.refreshToken = some t) :
    ∃ u, refused = some u ∧ u.signIn = t.signIn := by
  have hlost : Lost s refused ∧ r.phase.losing = true := by
    have hok := h.requests i r hr
    cases hphase with
    | inl hphase =>
      rw [hphase] at hok ⊢
      exact ⟨hok, rfl⟩
    | inr hphase =>
      rw [hphase] at hok ⊢
      exact ⟨hok.1, rfl⟩
  have hbusy : ¬Keeping s := by
    intro hkeeping
    rw [keeping_iff.mp hkeeping i r hr] at hlost
    cases hlost.2
  have hstored : s.accepted = some t.signIn := by
    cases ht with
    | inl haccess => exact h.stored.access t haccess
    | inr hrefresh => exact h.stored.refresh (h.renewing (Or.inr (Or.inr hbusy))) t hrefresh
  cases refused with
  | none =>
    cases ht with
    | inl haccess =>
      rw [hlost.1.1] at haccess
      cases haccess
    | inr hrefresh =>
      rw [hlost.1.2] at hrefresh
      cases hrefresh
  | some u => exact ⟨u, rfl, Option.some.inj (hlost.1.symm.trans hstored)⟩

theorem single_initial : Single State.initial := by
  intro n e he
  cases he

theorem apart_initial : Apart State.initial where
  stored := ⟨fun a ha => (by cases ha), fun _ r hr => (by cases hr), fun _ => Or.inl ⟨rfl, rfl⟩⟩
  exchanges n e he := by cases he
  requests i r hr := by cases hr
  changes k c hc := by cases hc
  ready i refused hmem := by cases hmem
  renewing _ := settled_iff.mpr fun k c hc => by cases hc
  keeping _ := keeping_iff.mpr fun i r hr => by cases hr

theorem Single.run {actions : List Action} (h : Single s) (hrun : run s actions = some s') :
    Single s' := by
  induction actions generalizing s with
  | nil =>
    cases hrun
    exact h
  | cons a rest ih =>
    obtain ⟨mid, hstep, hrest⟩ := Option.bind_eq_some_iff.mp hrun
    exact ih (h.moved (moved_of_step hstep)) hrest

theorem Apart.run {actions : List Action} (h : Apart s) (hsingle : Single s)
    (hsafe : SafeRun s actions) (hrun : run s actions = some s') : Apart s' := by
  induction actions generalizing s with
  | nil =>
    cases hrun
    exact h
  | cons a rest ih =>
    obtain ⟨mid, hstep, hrest⟩ := Option.bind_eq_some_iff.mp hrun
    have hmoved := moved_of_step hstep
    exact ih (h.moved hsingle hsafe.1 hmoved) (hsingle.moved hmoved) (hsafe.2 mid hstep) hrest

end

/-- At most one exchange is in flight. If nobody signs in or out while tokens
are renewed, the stored tokens are those of the sign-in accepted last, and a
request deletes them only after the server refused a token of that session. -/
theorem tokens_kept_if_in_turn {actions : List Action} {s : State}
    (hrun : run State.initial actions = some s) :
    (∀ m n e f, s.exchanges.find? m = some e → s.exchanges.find? n = some f →
      e.phase.ended = false → f.phase.ended = false → m = n) ∧
      (SafeRun State.initial actions → Stored s ∧
        ∀ i r refused t, s.requests.find? i = some r →
          (r.phase = .clearingAccess refused ∨ r.phase = .clearingRefresh refused) →
          (s.accessToken = some t ∨ s.refreshToken = some t) →
            ∃ u, refused = some u ∧ u.signIn = t.signIn) := by
  have hsingle : Single s := single_initial.run hrun
  refine ⟨fun m n e f he hf hactive hother => hsingle.unique hf hother he hactive, fun hsafe => ?_⟩
  have hapart : Apart s := apart_initial.run single_initial hsafe hrun
  exact ⟨hapart.stored, fun i r refused t hr hphase ht => hapart.cleared hr hphase ht⟩

instance (s : State) : Decidable (Answered s) := inferInstanceAs (Decidable (¬s.exchanges.Any _))

instance (s : State) : Decidable (Keeping s) := inferInstanceAs (Decidable (¬s.requests.Any _))

instance (k : Option ℕ) (s : State) : Decidable (SettledBut k s) :=
  inferInstanceAs (Decidable (¬s.changes.Any _))

instance (s : State) (r : Request) (reply : Reply) : Decidable (Starts s r reply) :=
  inferInstanceAs (Decidable (_ ∧ _ ∧ _ ∧ _ ∧ _))

instance (s : State) : (a : Action) → Decidable (Safe s a)
  | .send _ _ => inferInstanceAs (Decidable True)
  | .request i reply => inferInstanceAs (Decidable
      (∀ r ∈ s.requests.find? i, Starts s r reply → Keeping s ∧ Settled s))
  | .exchange _ _ => inferInstanceAs (Decidable True)
  | .resume => inferInstanceAs (Decidable True)
  | .begin _ _ => inferInstanceAs (Decidable True)
  | .change k _ _ => inferInstanceAs (Decidable
      (∀ c ∈ s.changes.find? k, c.phase.writes = true →
        Answered s ∧ Keeping s ∧ SettledBut (some k) s))

instance decidableSafeRun : (s : State) → (actions : List Action) → Decidable (SafeRun s actions)
  | _, [] => inferInstanceAs (Decidable True)
  | s, a :: rest =>
    have : ∀ s', Decidable (SafeRun s' rest) := fun s' => decidableSafeRun s' rest
    inferInstanceAs (Decidable (Safe s a ∧ ∀ s' ∈ step s a, SafeRun s' rest))

/-- Somebody signs in, and the server gives two tokens. -/
def signsIn (k : ℕ) (access refresh : String) : List Action :=
  .begin k .signIn :: List.replicate 4 (.change k (.body (some access) (some refresh)) true)

/-- A request fails because its token has expired, and asks for a new one. -/
def expires : List Action :=
  [.send 0 false, .request 0 .ok, .request 0 (.error (some 401)), .exchange 0 (.error none)]

/-- Somebody signs out. -/
def signsOut : List Action :=
  .begin 1 .signOut :: List.replicate 4 (.change 1 (.error none) true)

/-- The server gives new tokens, and the request is sent again. -/
def renews : List Action :=
  List.replicate 3 (.exchange 0 (.body (some "a2") (some "r2")))

/-- A renewal before somebody signs out leaves nothing stored. -/
theorem tokens_kept_if_in_turn_signOut :
    ∃ s, run State.initial (signsIn 0 "a1" "r1" ++ expires ++ renews ++ .resume :: signsOut) = some s ∧
      Stored s ∧ s.accepted = none := by
  have hvalues : (run State.initial
      (signsIn 0 "a1" "r1" ++ expires ++ renews ++ .resume :: signsOut)).map State.accepted =
        some none := by decide
  obtain ⟨s, hrun, hnone⟩ := Option.map_eq_some_iff.mp hvalues
  exact ⟨s, hrun, ((tokens_kept_if_in_turn hrun).2 (by decide)).1, hnone⟩

/-- Tokens that arrive after a sign-out are stored, and a refusal that arrives
after the next sign-in clears the tokens of somebody else. -/
theorem late_answers :
    (∃ s, run State.initial (signsIn 0 "a1" "r1" ++ expires ++ signsOut ++ renews) = some s ∧
      s.accepted = none ∧ s.accessToken = some ⟨0, "a2"⟩ ∧ s.refreshToken = some ⟨0, "r2"⟩ ∧
      ¬Stored s) ∧
    ∃ s r, run State.initial (signsIn 0 "a1" "r1" ++ expires ++ signsOut ++ signsIn 2 "a3" "r3" ++
        [.exchange 0 (.error (some 401)), .resume]) = some s ∧
      s.requests.find? 0 = some r ∧ r.phase = .clearingAccess (some ⟨0, "r1"⟩) ∧
      s.accessToken = some ⟨2, "a3"⟩ ∧ s.refreshToken = some ⟨2, "r3"⟩ := by
  constructor
  · have hvalues : (run State.initial
        (signsIn 0 "a1" "r1" ++ expires ++ signsOut ++ renews)).map (fun s =>
          (s.accepted, s.accessToken, s.refreshToken)) =
        some (none, some ⟨0, "a2"⟩, some ⟨0, "r2"⟩) := by decide
    obtain ⟨s, hrun, hfound⟩ := Option.map_eq_some_iff.mp hvalues
    simp only [Prod.mk.injEq] at hfound
    obtain ⟨hnobody, haccess, hrefresh⟩ := hfound
    refine ⟨s, hrun, hnobody, haccess, hrefresh, fun hstored => ?_⟩
    exact absurd (hnobody.symm.trans (hstored.access _ haccess)) (Option.some_ne_none _).symm
  · have hvalues : (run State.initial (signsIn 0 "a1" "r1" ++ expires ++ signsOut ++
        signsIn 2 "a3" "r3" ++ [.exchange 0 (.error (some 401)), .resume])).map (fun s =>
          ((s.requests.find? 0).map Request.phase, s.accessToken, s.refreshToken)) =
        some (some (.clearingAccess (some ⟨0, "r1"⟩)), some ⟨2, "a3"⟩, some ⟨2, "r3"⟩) := by decide
    obtain ⟨s, hrun, hfound⟩ := Option.map_eq_some_iff.mp hvalues
    simp only [Prod.mk.injEq] at hfound
    obtain ⟨hphase, haccess, hrefresh⟩ := hfound
    obtain ⟨r, hr, hclearing⟩ := Option.map_eq_some_iff.mp hphase
    exact ⟨s, r, hrun, hr, hclearing, haccess, hrefresh⟩

end Kitaza.TokenRenewal
