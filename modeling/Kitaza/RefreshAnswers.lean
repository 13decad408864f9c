import Mathlib.Data.Fintype.List
import Kitaza.SessionFreshness
import Kitaza.SessionSafety

/-!
# What a refresh is answered

A refresh that is left to itself comes to an answer: a fresh pair of tokens,
or that the device has to sign in again. Over any run, the first is never the
answer for what had ended before, and the second never for a token that is
still good.
-/

namespace Kitaza.RefreshAnswers

open KeyedTable Primitives Access BillingPlan SessionDirectory SessionServer SessionWrites
  SessionSafety Versions

variable {settings : Settings} {s s' : State} {c : Call} {i : ℕ}

/-- The phases a refresh goes through. -/
def OfRefresh : Phase → Prop
  | .begun => True
  | .found _ => True
  | .passed _ => True
  | .rotated _ => True
  | .resolving _ _ => True
  | .looking _ _ => True
  | .looked _ _ _ _ => True
  | .issuing _ => True
  | .returned _ => True
  | _ => False

/-- The steps a refresh has before it at most. -/
def stepsLeft : Phase → ℕ
  | .begun => 8
  | .found _ => 7
  | .passed _ => 6
  | .rotated _ => 5
  | .resolving _ _ => 4
  | .looking _ _ => 3
  | .looked _ _ _ _ => 2
  | .issuing _ => 1
  | _ => 0

/-- A refresh is answered: with a fresh pair, or that the device has to sign in
again. -/
def Answered : Phase → Prop
  | .returned (.issued _ _) => True
  | .returned .signInAgain => True
  | _ => False

/-- What the steps of a refresh leave as it was. -/
structure Aside (s s' : State) : Prop where
  /-- The time. -/
  clock : s'.clock = s.clock
  /-- The earlier states. -/
  data : s.data.Extends s'.data
  /-- The live sessions. -/
  live : ∀ sessionId, s'.db.SessionOver sessionId → s.db.SessionOver sessionId
  /-- The exchanges before it. -/
  exchanged : ∀ j d x, s'.calls.find? j = some d → d.exchangedAt = some x →
    (∃ d₀, s.calls.find? j = some d₀ ∧ d₀.operation = d.operation ∧ d₀.exchangedAt = some x) ∨
      x = s.clock

theorem Aside.trans {s'' : State} (h : Aside s s') (h' : Aside s' s'') : Aside s s'' where
  clock := h'.clock.trans h.clock
  data := h.data.trans h'.data
  live := fun sessionId hover => h.live sessionId (h'.live sessionId hover)
  exchanged := by
    intro j d x hd hx
    rcases h'.exchanged j d x hd hx with ⟨d', hd', hop', hx'⟩ | hnow
    · rcases h.exchanged j d' x hd' hx' with ⟨d₀, hd₀, hop₀, hx₀⟩ | hnow
      · exact Or.inl ⟨d₀, hd₀, hop₀.trans hop', hx₀⟩
      · exact Or.inr hnow
    · exact Or.inr (hnow.trans h.clock)

/-- A refresh has come further; it has not failed if it drew a new token. -/
def GoesOn (s s' : State) (i : ℕ) (c : Call) (token : String) : Prop :=
  Aside s s' ∧ ∃ c', s'.calls = s.calls.put i c' ∧ c'.operation = c.operation ∧
    c'.begun = c.begun ∧ OfRefresh c'.phase ∧ stepsLeft c'.phase < stepsLeft c.phase ∧
      (s.db.tokens.find? token = none → c'.phase.ended = true → Answered c'.phase)

/-- A refresh that looks for the person behind its session. -/
theorem ofRefresh_continued {tokenHash : String} (actor : Option SessionActor) :
    OfRefresh (continued (.refresh tokenHash) actor) ∧
      stepsLeft (continued (.refresh tokenHash) actor) ≤ 1 ∧
        ((continued (.refresh tokenHash) actor).ended = true →
          Answered (continued (.refresh tokenHash) actor)) := by
  cases actor with
  | some x =>
    refine ⟨trivial, le_rfl, fun h => ?_⟩
    cases h
  | none => exact ⟨trivial, Nat.zero_le 1, fun _ => trivial⟩

/-- A call that has changed beside the others. -/
theorem aside_put {c' : Call} (hc : s.calls.find? i = some c)
    (hcalls : s'.calls = s.calls.put i c') (hop : c'.operation = c.operation)
    (hx : c'.exchangedAt = c.exchangedAt ∨ c'.exchangedAt = some s.clock)
    (hclock : s'.clock = s.clock) (hdata : s.data.Extends s'.data)
    (hlive : ∀ sessionId, s'.db.SessionOver sessionId → s.db.SessionOver sessionId) :
    Aside s s' := by
  refine ⟨hclock, hdata, hlive, ?_⟩
  intro j d x hd hdx
  rw [hcalls, Table.find?_put] at hd
  split_ifs at hd with hj
  · cases hd
    rcases hx with hsame | hnow
    · exact Or.inl ⟨c, hj ▸ hc, hop.symm, hsame ▸ hdx⟩
    · rw [hnow] at hdx
      cases hdx
      exact Or.inr rfl
  · exact Or.inl ⟨d, hd, rfl, hdx⟩

theorem goesOn_advance {phase : Phase} {token : String} (hc : s.calls.find? i = some c)
    (hof : OfRefresh phase) (hless : stepsLeft phase < stepsLeft c.phase)
    (hanswered : s.db.tokens.find? token = none → phase.ended = true → Answered phase) :
    GoesOn s (s.advance i c phase) i c token :=
  ⟨aside_put hc rfl rfl (Or.inl rfl) rfl (Versioned.Extends.refl s.data) fun _ h => h,
    _, rfl, rfl, rfl, hof, hless, hanswered⟩

theorem goesOn_write {db : Db} {x : Option Timestamp} {phase : Phase} {token : String}
    (hc : s.calls.find? i = some c) (hx : x = c.exchangedAt ∨ x = some s.clock)
    (hlive : ∀ sessionId, db.SessionOver sessionId → s.db.SessionOver sessionId)
    (hof : OfRefresh phase) (hless : stepsLeft phase < stepsLeft c.phase)
    (hanswered : s.db.tokens.find? token = none → phase.ended = true → Answered phase) :
    GoesOn s ((s.write db).advance i { c with exchangedAt := x } phase) i c token :=
  ⟨aside_put hc rfl rfl hx rfl (Versioned.extends_write s.data db) hlive,
    _, rfl, rfl, rfl, hof, hless, hanswered⟩

theorem goesOn_answer {sessionId : Uuid} {floor : ℕ} {actor : Option SessionActor}
    {tokenHash token : String} {resolved : Remembered} (hc : s.calls.find? i = some c)
    (hop : c.operation = .refresh tokenHash) (hless : 1 < stepsLeft c.phase) :
    GoesOn s { s.answer i c sessionId floor actor with resolved := resolved } i c token := by
  obtain ⟨hof, hsteps, hanswered⟩ := @ofRefresh_continued tokenHash actor
  rw [← hop] at hof hsteps hanswered
  refine ⟨aside_put hc rfl rfl (Or.inl rfl) rfl (Versioned.Extends.refl s.data) fun _ h => h,
    _, rfl, rfl, rfl, hof, hsteps.trans_lt hless, fun _ => hanswered⟩

/-- Using a session does not end it. -/
theorem live_touchSession {db : Db} {used : Uuid} {now : Timestamp} (sessionId : Uuid)
    (h : (touchSession db used now).SessionOver sessionId) : db.SessionOver sessionId := by
  obtain ⟨row, hrow, hover⟩ := h
  rw [touchSession, Table.find?_mapRows] at hrow
  obtain ⟨row₀, hrow₀, hsame⟩ := Option.map_eq_some_iff.mp hrow
  refine ⟨row₀, hrow₀, ?_⟩
  split_ifs at hsame
  · rw [← hsame] at hover
    exact hover
  · rw [hsame]
    exact hover

/-- A refresh that has not ended can always go on, and comes nearer its end. -/
theorem advance_refresh {tokenHash : String} (hc : s.calls.find? i = some c)
    (hop : c.operation = .refresh tokenHash) (hof : OfRefresh c.phase)
    (hnot : c.phase.ended = false) (id : Uuid) (token : String) :
    ∃ s', SessionServer.advance settings s i c id token = some s' ∧ GoesOn s s' i c token := by
  unfold SessionServer.advance
  cases hphase : c.phase with
  | begun =>
    refine ⟨_, rfl, ?_⟩
    simp only [firstStep, hop]
    split
    · exact goesOn_advance hc trivial (by simp [hphase, stepsLeft]) fun _ h => by cases h
    · exact goesOn_advance hc trivial (by simp [hphase, stepsLeft]) fun _ _ => trivial
  | found record =>
    dsimp only
    split_ifs
    · exact ⟨_, rfl, goesOn_advance hc trivial (by simp [hphase, stepsLeft]) fun _ h => by cases h⟩
    · exact ⟨_, rfl, goesOn_advance hc trivial (by simp [hphase, stepsLeft]) fun _ _ => trivial⟩
  | passed record =>
    simp only [hop]
    have hgoes := @goesOn_write s c i (markRotated s.db tokenHash s.clock) (some s.clock)
      (.rotated record) token hc (Or.inr rfl) (fun _ h => h) trivial
      (by simp [hphase, stepsLeft]) fun _ h => by cases h
    refine ⟨_, rfl, ?_⟩
    rw [← hop]
    exact hgoes
  | rotated record =>
    exact ⟨_, rfl, goesOn_write hc (Or.inl rfl) live_touchSession trivial
      (by simp [hphase, stepsLeft]) fun _ h => by cases h⟩
  | resolving sessionId floor =>
    dsimp only
    split
    · exact ⟨_, rfl, goesOn_answer hc hop (by simp [hphase, stepsLeft])⟩
    · exact ⟨_, rfl, goesOn_advance hc trivial (by simp [hphase, stepsLeft])
        fun _ h => by cases h⟩
  | looking sessionId floor =>
    exact ⟨_, rfl, goesOn_advance hc trivial (by simp [hphase, stepsLeft]) fun _ h => by cases h⟩
  | looked sessionId floor actor version =>
    exact ⟨_, rfl, goesOn_answer hc hop (by simp [hphase, stepsLeft])⟩
  | issuing actor =>
    dsimp only
    by_cases htoken : s.db.tokens.find? token = none
    · rw [if_pos (by rw [htoken]; rfl)]
      exact ⟨_, rfl, goesOn_write hc (Or.inl rfl) (fun _ h => h) trivial
        (by simp [hphase, stepsLeft]) fun _ _ => trivial⟩
    · rw [if_neg (by simpa using htoken)]
      exact ⟨_, rfl, goesOn_advance hc trivial (by simp [hphase, stepsLeft])
        fun h => absurd h htoken⟩
  | returned outcome =>
    rw [hphase] at hnot
    cases hnot
  | _ =>
    rw [hphase] at hof
    exact hof.elim

/-- A step changes one call, and not what it was asked to do. -/
theorem calls_advance {id : Uuid} {token : String}
    (h : SessionServer.advance settings s i c id token = some s') :
    ∃ c', s'.calls = s.calls.put i c' ∧ c'.operation = c.operation := by
  unfold SessionServer.advance firstStep at h
  dsimp only at h
  repeat' split at h
  all_goals
    cases h
    try exact ⟨_, rfl, rfl⟩

/-- The refreshes are in the phases of a refresh. -/
def RefreshesOnly (s : State) : Prop :=
  ∀ i c tokenHash, s.calls.find? i = some c → c.operation = .refresh tokenHash → OfRefresh c.phase

theorem RefreshesOnly.put (h : RefreshesOnly s) {c' : Call} (hcalls : s'.calls = s.calls.put i c')
    (hof : ∀ tokenHash, c'.operation = .refresh tokenHash → OfRefresh c'.phase) :
    RefreshesOnly s' := by
  intro j d tokenHash hd hop
  rw [hcalls, Table.find?_put] at hd
  split_ifs at hd
  · cases hd
    exact hof tokenHash hop
  · exact h j d tokenHash hd hop

theorem RefreshesOnly.step (h : RefreshesOnly s) {a : Action}
    (hstep : SessionServer.step settings s a = some s') : RefreshesOnly s' := by
  cases a with
  | start i operation =>
    simp only [SessionServer.step] at hstep
    split at hstep
    · cases hstep
    · split_ifs at hstep
      cases hstep
      exact h.put rfl fun _ _ => trivial
  | next i id token =>
    simp only [SessionServer.step] at hstep
    split at hstep
    · cases hstep
    · rename_i c hc
      by_cases hop : ∃ tokenHash, c.operation = .refresh tokenHash
      · obtain ⟨tokenHash, hop⟩ := hop
        have hof := h i c tokenHash hc hop
        by_cases hended : c.phase.ended = true
        · -- A call that has ended does nothing.
          unfold Phase.ended at hended
          split at hended
          · rename_i outcome hphase
            rw [SessionServer.advance, hphase] at hstep
            cases hstep
          · cases hended
        · obtain ⟨s'', hs'', hgoes⟩ :=
            @advance_refresh settings _ _ _ _ hc hop hof (by simpa using hended) id token
          rw [hstep] at hs''
          cases hs''
          obtain ⟨_, c', hcalls, _, _, hof', _⟩ := hgoes
          exact h.put hcalls fun _ _ => hof'
      · obtain ⟨c', hcalls, hsame⟩ := calls_advance hstep
        refine h.put hcalls fun tokenHash hop' => absurd ⟨tokenHash, hsame ▸ hop'⟩ hop
  | fail i =>
    simp only [SessionServer.step] at hstep
    split at hstep
    · cases hstep
    · split_ifs at hstep
      cases hstep
      exact h.put rfl fun _ _ => trivial
  | wait ticks =>
    cases hstep
    exact h

theorem RefreshesOnly.run (h : RefreshesOnly s) {actions : List Action}
    (hrun : SessionServer.run settings s actions = some s') : RefreshesOnly s' := by
  induction actions generalizing s with
  | nil =>
    cases hrun
    exact h
  | cons a rest ih =>
    obtain ⟨mid, hmid, hrest⟩ := Option.bind_eq_some_iff.mp hrun
    exact ih (h.step hmid) hrest

/-- Some steps of one call. -/
def OwnSteps (i : ℕ) (actions : List Action) : Prop :=
  ∀ a ∈ actions, ∃ id token, a = .next i id token

/-- A token nobody has. -/
theorem exists_new_token (db : Db) : ∃ token, db.tokens.find? token = none := by
  obtain ⟨token, htoken⟩ := Infinite.exists_notMem_finset db.tokens.ids
  exact ⟨token, Table.notMem_ids.mp htoken⟩

/-- A refresh that has not ended is answered after some more steps of its
own. -/
theorem comes_to_an_answer {tokenHash : String} (hc : s.calls.find? i = some c)
    (hop : c.operation = .refresh tokenHash) (hof : OfRefresh c.phase)
    (hnot : c.phase.ended = false) :
    ∃ actions s' c', OwnSteps i actions ∧ SessionServer.run settings s actions = some s' ∧
      Aside s s' ∧ s'.calls.find? i = some c' ∧ c'.operation = c.operation ∧
        c'.begun = c.begun ∧ Answered c'.phase := by
  induction hleft : stepsLeft c.phase using Nat.strong_induction_on generalizing s c with
  | _ left ih =>
    obtain ⟨token, htoken⟩ := exists_new_token s.db
    obtain ⟨mid, hmid, haside, c', hcalls, hsame, hbegun, hof', hless, hanswered⟩ :=
      @advance_refresh settings s c i _ hc hop hof hnot ⟨0⟩ token
    have hstep : SessionServer.step settings s (.next i ⟨0⟩ token) = some mid := by
      simp only [SessionServer.step, hc, hmid]
    have hc' : mid.calls.find? i = some c' := by
      rw [hcalls, Table.find?_put_self]
    cases hended : c'.phase.ended with
    | true =>
      refine ⟨[.next i ⟨0⟩ token], mid, c', ?_, ?_, haside, hc', hsame, hbegun,
        hanswered htoken hended⟩
      · intro a ha
        rw [List.mem_singleton.mp ha]
        exact ⟨_, _, rfl⟩
      · rw [SessionServer.run, hstep]
        rfl
    | false =>
      obtain ⟨actions, s', c'', hown, hrun, haside', hc'', hsame', hbegun', hanswer⟩ :=
        ih _ (hleft ▸ hless) hc' (hsame.trans hop) hof' hended rfl
      refine ⟨.next i ⟨0⟩ token :: actions, s', c'', ?_, ?_, haside.trans haside', hc'',
        hsame'.trans hsame, hbegun'.trans hbegun, hanswer⟩
      · intro a ha
        rcases List.mem_cons.mp ha with rfl | ha
        · exact ⟨_, _, rfl⟩
        · exact hown a ha
      · rw [SessionServer.run, hstep]
        exact hrun

/-- A call was asked to end a session: to sign it out by its id or by one of its
tokens, or to remove its staff member. -/
def EndsSession (s : State) (d : Call) (sessionId : Uuid) : Prop :=
  match d.operation with
  | .revoke _ target => target = sessionId
  | .remove _ staffId => ∃ row, s.db.sessions.find? sessionId = some row ∧
      row.staffId = some staffId
  | .logout tokenHash => ∃ before t, s.data.at? d.begun = some before ∧
      before.tokens.find? tokenHash = some t ∧ t.sessionId = sessionId
  | _ => False

/-- What the answers to refreshes say. -/
structure Honest (s : State) : Prop where
  /-- No refresh that began after a session was ended has a fresh pair for one
  of its tokens. -/
  ended : ∀ i c j d v tokenHash t, s.calls.find? j = some d → d.committedAt = some v →
    s.calls.find? i = some c → c.operation = .refresh tokenHash → v ≤ c.begun →
    s.db.tokens.find? tokenHash = some t → EndsSession s d t.sessionId →
    ∀ actor token, c.phase ≠ .returned (.issued actor token)
  /-- No refresh that began a day or more after its token was exchanged has a
  fresh pair. -/
  spent : ∀ i c j d tokenHash x, s.calls.find? j = some d → d.operation = .refresh tokenHash →
    d.exchangedAt = some x → s.calls.find? i = some c → c.operation = .refresh tokenHash →
    x + ROTATION_GRACE ≤ c.begunAt → ∀ actor token, c.phase ≠ .returned (.issued actor token)
  /-- No refresh was told to sign in again whose token has not expired, was not
  exchanged a day ago, and is one of a live session. -/
  good : ∀ i c tokenHash before t, s.calls.find? i = some c → c.operation = .refresh tokenHash →
    s.data.at? c.begun = some before → before.tokens.find? tokenHash = some t →
    s.clock < t.expiresAt → ¬ s.db.SessionOver t.sessionId →
    (∀ j d x, s.calls.find? j = some d → d.operation = .refresh tokenHash →
      d.exchangedAt = some x → s.clock < x + ROTATION_GRACE) →
    c.phase ≠ .returned .signInAgain

/-- What a call has committed has ended the sessions it was asked to end. -/
theorem gone_of_hasEnded {db : Db} {d : Call} {sessionId : Uuid} (h : HasEnded s d db)
    (hends : EndsSession s d sessionId) : Gone db s.db sessionId := by
  unfold HasEnded at h
  unfold EndsSession at hends
  cases hop : d.operation with
  | revoke ownerId target =>
    simp only [hop] at h hends
    rw [← hends]
    exact Or.inl h
  | remove storeId staffId =>
    simp only [hop] at h hends
    obtain ⟨row, hrow, hstaff⟩ := hends
    exact Or.inr ⟨row, staffId, hrow, hstaff, h⟩
  | logout tokenHash =>
    simp only [hop] at h hends
    obtain ⟨before, t, hbefore, ht, hsession⟩ := hends
    rw [← hsession]
    exact Or.inl (h before t hbefore ht)
  | _ =>
    simp only [hop] at hends

/-- A refresh with a fresh pair had a token that could be accepted. -/
theorem clear_of_issued (h : Inv s) {tokenHash token : String} {actor : SessionActor}
    (hc : s.calls.find? i = some c) (hop : c.operation = .refresh tokenHash)
    (hphase : c.phase = .returned (.issued actor token)) :
    Clear s c.begun c.begunAt tokenHash actor.sessionId := by
  have hok := (h.calls i c hc).phase
  simp only [PhaseOk, hphase] at hok
  exact hok tokenHash hop

theorem honest_of_inv (h : Inv s) : Honest s where
  ended := by
    intro i c j d v tokenHash t hd hv hc hop hle ht hends actor token hphase
    have hclear := clear_of_issued h hc hop hphase
    obtain ⟨t', ht', hsession⟩ := hclear.token
    rw [ht] at ht'
    cases ht'
    obtain ⟨db, hdb, hended⟩ := (h.calls j d hd).committed v hv
    rw [hsession] at hends
    exact hclear.alive v db hle hdb (gone_of_hasEnded hended hends)
  spent := by
    intro i c j d tokenHash x hd hdop hx hc hop hle actor token hphase
    have hgrace : (0 : ℤ) < ROTATION_GRACE := by
      decide
    have hlt : x < c.begunAt := lt_of_lt_of_le (lt_add_of_pos_right x hgrace) hle
    obtain ⟨db, t, r, hdb, ht, hr, hrx⟩ := h.exchanges i c j d tokenHash x hc hd hdop hx hlt
    have hrecent := (clear_of_issued h hc hop hphase).recent db t r hdb ht hr
    linarith
  good := by
    intro i c tokenHash before t hc hop hbefore ht hexpires hlive hrecent hphase
    have hok := (h.calls i c hc).phase
    simp only [PhaseOk, hphase] at hok
    rcases hok tokenHash hop before t hbefore ht with hexpired | ⟨t', r, ht', hr, hold⟩ | hover
    · exact absurd hexpires (not_lt.mpr hexpired)
    · obtain ⟨j, d, hd, hdop, hx⟩ := h.rotated tokenHash t' r ht' hr
      exact absurd (hrecent j d r hd hdop hx) (not_lt.mpr hold)
    · exact hlive hover

/-- A refresh that has not ended, of a token that has not expired, was not
exchanged a day ago, and is one of a live session. -/
structure Good (s : State) (i : ℕ) (c : Call) : Prop where
  /-- It is under way. -/
  call : s.calls.find? i = some c ∧ c.phase.ended = false
  /-- Its token. -/
  token : ∃ tokenHash before t, c.operation = .refresh tokenHash ∧
    s.data.at? c.begun = some before ∧ before.tokens.find? tokenHash = some t ∧
      s.clock < t.expiresAt ∧ ¬ s.db.SessionOver t.sessionId ∧
        ∀ j d x, s.calls.find? j = some d → d.operation = .refresh tokenHash →
          d.exchangedAt = some x → s.clock < x + ROTATION_GRACE

/-- A refresh of a good token that is left to itself has a fresh pair in the
end. -/
def Accepts (settings : Settings) (s : State) (i : ℕ) : Prop :=
  ∃ own s' c' actor token, OwnSteps i own ∧ SessionServer.run settings s own = some s' ∧
    s'.calls.find? i = some c' ∧ c'.phase = .returned (.issued actor token)

theorem accepts_of_good (h : Inv s) (honly : RefreshesOnly s) (hgood : Good s i c) :
    Accepts settings s i := by
  obtain ⟨tokenHash, before, t, hop, hbefore, ht, hexpires, hlive, hrecent⟩ := hgood.token
  obtain ⟨hc, hnot⟩ := hgood.call
  obtain ⟨own, s', c', hown, hrun, haside, hc', hsame, hbegun, hanswer⟩ :=
    @comes_to_an_answer settings _ _ _ _ hc hop (honly i c tokenHash hc hop) hnot
  have hhonest := honest_of_inv (h.run hrun)
  have hbefore' : s'.data.at? c'.begun = some before := by
    rw [hbegun, haside.data.2 _ (Versioned.le_version hbefore)]
    exact hbefore
  have hrefused : c'.phase ≠ .returned .signInAgain := by
    refine hhonest.good i c' tokenHash before t hc' (hsame.trans hop) hbefore' ht ?_ ?_ ?_
    · rw [haside.clock]
      exact hexpires
    · exact fun hover => hlive (haside.live _ hover)
    · intro j d x hd hdop hx
      rw [haside.clock]
      rcases haside.exchanged j d x hd hx with ⟨d₀, hd₀, hop₀, hx₀⟩ | hnow
      · exact hrecent j d₀ x hd₀ (hop₀.trans hdop) hx₀
      · rw [hnow]
        exact lt_add_of_pos_right _ (by decide)
  unfold Answered at hanswer
  split at hanswer
  · rename_i actor token hphase
    exact ⟨own, s', c', actor, token, hown, hrun, hc', hphase⟩
  · rename_i hphase
    exact absurd hphase hrefused
  · exact hanswer.elim

/-- Over any run, the answers to refreshes are honest, and a refresh of a good
token that is left to itself has a fresh pair in the end. -/
theorem refresh_answers {db : Db} {actions : List Action}
    (hrun : SessionServer.run settings (State.initial db) actions = some s) :
    Honest s ∧ ∀ i c, Good s i c → Accepts settings s i := by
  have hinv := (inv_initial db).run hrun
  have honly : RefreshesOnly (State.initial db) := by
    intro i c tokenHash hc
    cases hc
  exact ⟨honest_of_inv hinv, fun i c hgood => accepts_of_good hinv (honly.run hrun) hgood⟩

/-- Signed in on one phone; two refreshes of its token, the first of which is
answered; the owner signs the phone out, and a third refresh begins. -/
def exchangedTwice : List Action :=
  [.start 0 (.openOwnerSession ⟨1⟩ "phone")] ++ List.replicate 6 (.next 0 ⟨5⟩ "first") ++
    [.start 1 (.refresh "first")] ++ List.replicate 6 (.next 1 ⟨5⟩ "second") ++
    [.wait 60000000, .start 2 (.refresh "first")] ++ List.replicate 3 (.next 2 ⟨5⟩ "third") ++
    [.start 3 (.revoke ⟨1⟩ ⟨5⟩)] ++ List.replicate 4 (.next 3 ⟨5⟩ "fourth") ++
    [.start 4 (.refresh "first")]

theorem refresh_answers_exchangedTwice : ∃ s,
    SessionServer.run SessionFreshness.hourly (State.initial SessionFreshness.oneOwner)
      exchangedTwice = some s ∧ Honest s := by
  have hruns : (SessionServer.run SessionFreshness.hourly
      (State.initial SessionFreshness.oneOwner) exchangedTwice).isSome := by
    decide +kernel
  obtain ⟨s, hs⟩ := Option.isSome_iff_exists.mp hruns
  exact ⟨s, hs, (refresh_answers hs).1⟩

end Kitaza.RefreshAnswers
