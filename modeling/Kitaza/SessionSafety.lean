import Mathlib.Data.Finset.Max
import Kitaza.SessionWrites

/-!
# Sessions that are over stay over, lost responses do no harm

Whatever the order in which refreshes, sign-outs, revocations, removals and
joins run their statements: a token of a session that was over when a refresh
began is refused, and so is one that was exchanged a day before; and a token
is refused only if it has expired, was exchanged a day ago, or its session is
over.
-/

namespace Kitaza.SessionSafety

open KeyedTable Primitives Access BillingPlan SessionDirectory SessionServer SessionWrites Versions

/-- A session was over in an earlier state, or the staff member it is for had
been removed then. -/
def Gone (db now : Db) (sessionId : Uuid) : Prop :=
  db.SessionOver sessionId ∨ ∃ s staffId, now.sessions.find? sessionId = some s ∧
    s.staffId = some staffId ∧ db.StaffRemoved staffId

/-- What was read of a token is true of it, and has seen what had ended before
the refresh began. -/
structure ReadOk (s : State) (begun : ℕ) (tokenHash : String) (record : RefreshTokenRecord) :
    Prop where
  /-- The token. -/
  token : ∃ t, s.db.tokens.find? tokenHash = some t ∧ t.sessionId = record.sessionId ∧
    t.expiresAt = record.expiresAt ∧
      ∀ rotated, record.rotatedAt = some rotated → t.rotatedAt = some rotated
  /-- Its session. -/
  session : (s.db.sessions.find? record.sessionId).isSome
  /-- A session that was over does not look live. -/
  dead : ∀ k db, k ≤ begun → s.data.at? k = some db → Gone db s.db record.sessionId →
    ¬ (record.sessionLive = true ∧ record.staffLive = true)
  /-- An earlier exchange was seen. -/
  rotated : ∀ db t rotated, s.data.at? begun = some db → db.tokens.find? tokenHash = some t →
    t.rotatedAt = some rotated → record.rotatedAt = some rotated
  /-- A session that does not look live is over. -/
  ended : (¬ (record.sessionLive = true ∧ record.staffLive = true) ∨ record.revokedAt.isSome) →
    s.db.SessionOver record.sessionId

/-- A token that may be accepted: its session was not over and it had not been
exchanged a day before, when the refresh began. -/
structure Clear (s : State) (begun : ℕ) (begunAt : Timestamp) (tokenHash : String)
    (sessionId : Uuid) : Prop where
  /-- It is a token of the session. -/
  token : ∃ t, s.db.tokens.find? tokenHash = some t ∧ t.sessionId = sessionId
  /-- The session is there. -/
  session : (s.db.sessions.find? sessionId).isSome
  /-- The session was not over. -/
  alive : ∀ k db, k ≤ begun → s.data.at? k = some db → ¬ Gone db s.db sessionId
  /-- It had not been exchanged a day before. -/
  recent : ∀ db t rotated, s.data.at? begun = some db → db.tokens.find? tokenHash = some t →
    t.rotatedAt = some rotated → begunAt < rotated + ROTATION_GRACE

/-- Why a known token may be refused. -/
def Refused (s : State) (begun : ℕ) (tokenHash : String) : Prop :=
  ∀ db t, s.data.at? begun = some db → db.tokens.find? tokenHash = some t →
    t.expiresAt ≤ s.clock ∨
      (∃ t' rotated, s.db.tokens.find? tokenHash = some t' ∧ t'.rotatedAt = some rotated ∧
        rotated + ROTATION_GRACE ≤ s.clock) ∨
      s.db.SessionOver t.sessionId

/-- What is known of a session: nobody is behind it only if it is over. -/
def Known (db : Db) (sessionId : Uuid) (actor : Option SessionActor) : Prop :=
  (db.sessions.find? sessionId).isSome ∧ (actor = none → db.SessionOver sessionId) ∧
    ∀ x, actor = some x → x.sessionId = sessionId

/-- A transaction is about to end what its call was asked to end. -/
def EndsTarget (s : State) (c : Call) (w : Writes) : Prop :=
  match c.operation with
  | .revoke _ sessionId => sessionId ∈ w.sessions ∧ (s.db.sessions.find? sessionId).isSome
  | .remove _ staffId => staffId ∈ w.staff ∧ (s.db.staff.find? staffId).isSome
  | .logout tokenHash => ∀ db t, s.data.at? c.begun = some db →
      db.tokens.find? tokenHash = some t → s.db.SessionOver t.sessionId ∨
        (t.sessionId ∈ w.sessions ∧ (s.db.sessions.find? t.sessionId).isSome)
  | _ => True

/-- A call's transaction has ended what it was asked to end. -/
def HasEnded (s : State) (c : Call) (db : Db) : Prop :=
  match c.operation with
  | .revoke _ sessionId => db.SessionOver sessionId
  | .remove _ staffId => db.StaffRemoved staffId
  | .logout tokenHash => ∀ before t, s.data.at? c.begun = some before →
      before.tokens.find? tokenHash = some t → db.SessionOver t.sessionId
  | _ => True

/-- What a call knows in its phase is true. -/
def PhaseOk (s : State) (c : Call) : Prop :=
  match c.phase with
  | .begun => c.exchangedAt = none ∧
      ∀ sessionId ∈ c.operation.session, (s.db.sessions.find? sessionId).isSome
  | .found record => c.exchangedAt = none ∧ ∃ tokenHash, c.operation = .refresh tokenHash ∧
      ReadOk s c.begun tokenHash record
  | .passed record => c.exchangedAt = none ∧ ∃ tokenHash, c.operation = .refresh tokenHash ∧
      Clear s c.begun c.begunAt tokenHash record.sessionId
  | .rotated record => ∃ tokenHash, c.operation = .refresh tokenHash ∧
      Clear s c.begun c.begunAt tokenHash record.sessionId
  | .opening _ _ _ => ∀ tokenHash, c.operation ≠ .refresh tokenHash
  | .resolving sessionId _ => (s.db.sessions.find? sessionId).isSome ∧
      ∀ tokenHash, c.operation = .refresh tokenHash → Clear s c.begun c.begunAt tokenHash sessionId
  | .looking sessionId _ => (s.db.sessions.find? sessionId).isSome ∧
      ∀ tokenHash, c.operation = .refresh tokenHash → Clear s c.begun c.begunAt tokenHash sessionId
  | .looked sessionId _ actor _ => Known s.db sessionId actor ∧
      ∀ tokenHash, c.operation = .refresh tokenHash → Clear s c.begun c.begunAt tokenHash sessionId
  | .issuing actor => (s.db.sessions.find? actor.sessionId).isSome ∧
      ∀ tokenHash, c.operation = .refresh tokenHash → Clear s c.begun c.begunAt tokenHash actor.sessionId
  | .staffMarked w => EndsTarget s c w ∧ w.tokens = ∅
  | .sessionsMarked w => EndsTarget s c w ∧ EndsTokens s.db w
  | .tokensMarked w => EndsTarget s c w ∧ EndsTokens s.db w
  | .ready w => EndsTarget s c w ∧ EndsTokens s.db w
  | .returned (.issued actor _) =>
    ∀ tokenHash, c.operation = .refresh tokenHash → Clear s c.begun c.begunAt tokenHash actor.sessionId
  | .returned .signInAgain => ∀ tokenHash, c.operation = .refresh tokenHash → Refused s c.begun tokenHash
  | _ => True

/-- What is true of a call. -/
structure CallOk (s : State) (c : Call) : Prop where
  /-- It began in a state there was. -/
  begun : c.begun ≤ s.data.version
  /-- It began in the past. -/
  begunAt : c.begunAt ≤ s.clock
  /-- What it knows. -/
  phase : PhaseOk s c
  /-- What it has committed. -/
  committed : ∀ v, c.committedAt = some v → ∃ db, s.data.at? v = some db ∧ HasEnded s c db
  /-- The token it has exchanged. -/
  exchanged : ∀ x, c.exchangedAt = some x → x ≤ s.clock ∧ ∃ tokenHash t rotated,
    c.operation = .refresh tokenHash ∧ s.db.tokens.find? tokenHash = some t ∧
      t.rotatedAt = some rotated ∧ rotated ≤ x

/-- The invariant of a run. -/
structure Inv (s : State) : Prop where
  /-- The database only goes on. -/
  past : ∀ k db, s.data.at? k = some db → Later db s.db
  /-- The tables fit each other. -/
  consistent : Consistent s.db
  /-- What is remembered. -/
  memory : Remembers (Known s.db) s.resolved
  /-- The calls. -/
  calls : ∀ i c, s.calls.find? i = some c → CallOk s c
  /-- A call sees the exchanges before it. -/
  exchanges : ∀ i c j d tokenHash x, s.calls.find? i = some c → s.calls.find? j = some d →
    d.operation = .refresh tokenHash → d.exchangedAt = some x → x < c.begunAt →
      ∃ db t rotated, s.data.at? c.begun = some db ∧ db.tokens.find? tokenHash = some t ∧
        t.rotatedAt = some rotated ∧ rotated ≤ x
  /-- A token is marked exchanged by a call. -/
  rotated : ∀ tokenHash t rotated, s.db.tokens.find? tokenHash = some t →
    t.rotatedAt = some rotated → ∃ j d, s.calls.find? j = some d ∧
      d.operation = .refresh tokenHash ∧ d.exchangedAt = some rotated

/-- A later state of the server. -/
structure Grows (s s' : State) : Prop where
  /-- The numbering of the states. -/
  data : s.data.Extends s'.data
  /-- The database. -/
  later : Later s.db s'.db
  /-- The clock. -/
  clock : s.clock ≤ s'.clock

variable {s s' : State} {c c' : Call} {i : ℕ} {tokenHash : String} {sessionId : Uuid}

/-- The database and the clock stand still. -/
theorem grows_of_eq (hdata : s'.data = s.data) (hclock : s'.clock = s.clock) : Grows s s' := by
  refine ⟨hdata ▸ Versioned.Extends.refl _, ?_, hclock.ge⟩
  rw [State.db, State.db, hdata]
  exact Later.refl _

/-- A later state is written. -/
theorem grows_of_write {db : Db} (hdata : s'.data = s.data.write db) (hclock : s'.clock = s.clock)
    (hlater : Later s.db db) : Grows s s' := by
  refine ⟨hdata ▸ Versioned.extends_write _ _, ?_, hclock.ge⟩
  have hnow : s'.db = db := by rw [State.db, hdata, Versioned.now_write]
  rw [hnow]
  exact hlater

/-- A state in the past of a call is the same one later. -/
theorem Grows.at?_eq (h : Grows s s') {k : ℕ} (hk : k ≤ s.data.version) :
    s'.data.at? k = s.data.at? k := h.data.2 k hk

theorem Grows.session (h : Grows s s') (hs : (s.db.sessions.find? sessionId).isSome) :
    (s'.db.sessions.find? sessionId).isSome := by
  obtain ⟨row, hrow⟩ := Option.isSome_iff_exists.mp hs
  obtain ⟨row', hrow', _⟩ := h.later.sessions sessionId row hrow
  rw [hrow']
  rfl

/-- Whose session it is does not change. -/
theorem Grows.gone (h : Grows s s') (hs : (s.db.sessions.find? sessionId).isSome) {db : Db}
    (hgone : Gone db s'.db sessionId) : Gone db s.db sessionId := by
  rcases hgone with hover | ⟨row', staffId, hrow', hstaff, hremoved⟩
  · exact Or.inl hover
  · obtain ⟨row, hrow⟩ := Option.isSome_iff_exists.mp hs
    obtain ⟨row'', hrow'', _, hsame, _⟩ := h.later.sessions sessionId row hrow
    obtain rfl : row'' = row' := Option.some.inj (hrow''.symm.trans hrow')
    exact Or.inr ⟨row, staffId, hrow, hsame.symm.trans hstaff, hremoved⟩

theorem ReadOk.mono {record : RefreshTokenRecord} {begun : ℕ}
    (h : ReadOk s begun tokenHash record) (hg : Grows s s') (hc : begun ≤ s.data.version) :
    ReadOk s' begun tokenHash record where
  token := by
    obtain ⟨t, ht, hsession, hexpires, hrotated⟩ := h.token
    obtain ⟨t', ht', hsession', hexpires', hrotated'⟩ := hg.later.tokens tokenHash t ht
    exact ⟨t', ht', hsession'.trans hsession, hexpires'.trans hexpires,
      fun r hr => hrotated' r (hrotated r hr)⟩
  session := hg.session h.session
  dead := fun k db hk hdb hgone =>
    h.dead k db hk ((hg.at?_eq (hk.trans hc)).symm.trans hdb) (hg.gone h.session hgone)
  rotated := fun db t r hdb => h.rotated db t r ((hg.at?_eq hc).symm.trans hdb)
  ended := fun hwhy => hg.later.sessionOver (h.ended hwhy)

theorem Clear.mono {begun : ℕ} {begunAt : Timestamp} (h : Clear s begun begunAt tokenHash sessionId)
    (hg : Grows s s') (hc : begun ≤ s.data.version) :
    Clear s' begun begunAt tokenHash sessionId where
  token := by
    obtain ⟨t, ht, hsession⟩ := h.token
    obtain ⟨t', ht', hsession', _⟩ := hg.later.tokens tokenHash t ht
    exact ⟨t', ht', hsession'.trans hsession⟩
  session := hg.session h.session
  alive := fun k db hk hdb hgone =>
    h.alive k db hk ((hg.at?_eq (hk.trans hc)).symm.trans hdb) (hg.gone h.session hgone)
  recent := fun db t r hdb => h.recent db t r ((hg.at?_eq hc).symm.trans hdb)

theorem Refused.mono {begun : ℕ} (h : Refused s begun tokenHash) (hg : Grows s s')
    (hc : begun ≤ s.data.version) : Refused s' begun tokenHash := by
  intro db t hdb ht
  rcases h db t ((hg.at?_eq hc).symm.trans hdb) ht with hexpired | ⟨t₁, r, ht₁, hr, hlong⟩ | hover
  · exact Or.inl (hexpired.trans hg.clock)
  · obtain ⟨t₂, ht₂, _, _, hkept⟩ := hg.later.tokens tokenHash t₁ ht₁
    exact Or.inr (Or.inl ⟨t₂, r, ht₂, hkept r hr, hlong.trans hg.clock⟩)
  · exact Or.inr (Or.inr (hg.later.sessionOver hover))

theorem Known.mono {db db' : Db} {actor : Option SessionActor} (h : Known db sessionId actor)
    (hlater : Later db db') : Known db' sessionId actor := by
  obtain ⟨hsession, hnone, hid⟩ := h
  obtain ⟨row, hrow⟩ := Option.isSome_iff_exists.mp hsession
  obtain ⟨row', hrow', _⟩ := hlater.sessions sessionId row hrow
  exact ⟨by rw [hrow']; rfl, fun hn => hlater.sessionOver (hnone hn), hid⟩

theorem EndsTarget.mono {w : Writes} (h : EndsTarget s c w) (hg : Grows s s')
    (hc : c.begun ≤ s.data.version) : EndsTarget s' c w := by
  obtain ⟨operation, phase, begun, begunAt, exchangedAt, committedAt, resolved⟩ := c
  cases operation with
  | revoke ownerId id => exact ⟨h.1, hg.session h.2⟩
  | remove storeId staffId =>
    obtain ⟨st, hst⟩ := Option.isSome_iff_exists.mp h.2
    obtain ⟨st', hst', _⟩ := hg.later.staff staffId st hst
    exact ⟨h.1, by rw [hst']; rfl⟩
  | logout hash =>
    intro db t hdb ht
    rcases h db t ((hg.at?_eq hc).symm.trans hdb) ht with hover | ⟨hmem, hsession⟩
    · exact Or.inl (hg.later.sessionOver hover)
    · exact Or.inr ⟨hmem, hg.session hsession⟩
  | _ => trivial

theorem HasEnded.mono {db : Db} (h : HasEnded s c db) (hg : Grows s s')
    (hc : c.begun ≤ s.data.version) : HasEnded s' c db := by
  obtain ⟨operation, phase, begun, begunAt, exchangedAt, committedAt, resolved⟩ := c
  cases operation with
  | revoke ownerId id => exact h
  | remove storeId staffId => exact h
  | logout hash => exact fun before t hb => h before t ((hg.at?_eq hc).symm.trans hb)
  | _ => trivial

theorem PhaseOk.mono (h : PhaseOk s c) (hg : Grows s s') (hc : c.begun ≤ s.data.version) :
    PhaseOk s' c := by
  unfold PhaseOk at h ⊢
  split
  · rename_i hphase
    simp only [hphase] at h
    exact ⟨h.1, fun id hid => hg.session (h.2 id hid)⟩
  · rename_i record hphase
    simp only [hphase] at h
    obtain ⟨hnone, hash, hop, hread⟩ := h
    exact ⟨hnone, hash, hop, hread.mono hg hc⟩
  · rename_i record hphase
    simp only [hphase] at h
    obtain ⟨hnone, hash, hop, hclear⟩ := h
    exact ⟨hnone, hash, hop, hclear.mono hg hc⟩
  · rename_i record hphase
    simp only [hphase] at h
    obtain ⟨hash, hop, hclear⟩ := h
    exact ⟨hash, hop, hclear.mono hg hc⟩
  · rename_i hphase
    simpa only [hphase] using h
  · rename_i id floor hphase
    simp only [hphase] at h
    exact ⟨hg.session h.1, fun hash hop => (h.2 hash hop).mono hg hc⟩
  · rename_i id floor hphase
    simp only [hphase] at h
    exact ⟨hg.session h.1, fun hash hop => (h.2 hash hop).mono hg hc⟩
  · rename_i id floor actor version hphase
    simp only [hphase] at h
    exact ⟨h.1.mono hg.later, fun hash hop => (h.2 hash hop).mono hg hc⟩
  · rename_i actor hphase
    simp only [hphase] at h
    exact ⟨hg.session h.1, fun hash hop => (h.2 hash hop).mono hg hc⟩
  · rename_i w hphase
    simp only [hphase] at h
    exact ⟨h.1.mono hg hc, h.2⟩
  · rename_i w hphase
    simp only [hphase] at h
    exact ⟨h.1.mono hg hc, h.2.of_later hg.later⟩
  · rename_i w hphase
    simp only [hphase] at h
    exact ⟨h.1.mono hg hc, h.2.of_later hg.later⟩
  · rename_i w hphase
    simp only [hphase] at h
    exact ⟨h.1.mono hg hc, h.2.of_later hg.later⟩
  · rename_i actor token hphase
    simp only [hphase] at h
    exact fun hash hop => (h hash hop).mono hg hc
  · rename_i hphase
    simp only [hphase] at h
    exact fun hash hop => (h hash hop).mono hg hc
  · trivial

theorem CallOk.mono (h : CallOk s c) (hg : Grows s s') : CallOk s' c where
  begun := h.begun.trans hg.data.1
  begunAt := h.begunAt.trans hg.clock
  phase := h.phase.mono hg h.begun
  committed := by
    intro v hv
    obtain ⟨db, hdb, hended⟩ := h.committed v hv
    exact ⟨db, (hg.at?_eq (Versioned.le_version hdb)).trans hdb, hended.mono hg h.begun⟩
  exchanged := by
    intro x hx
    obtain ⟨hclock, hash, t, r, hop, ht, hr, hle⟩ := h.exchanged x hx
    obtain ⟨t', ht', _, _, hkept⟩ := hg.later.tokens hash t ht
    exact ⟨hclock.trans hg.clock, hash, t', r, hop, ht', hkept r hr, hle⟩

theorem inv_initial (db : Db) : Inv (State.initial db) where
  past := by
    intro k db' h
    rcases k with _ | k
    · cases h
      exact Later.refl _
    · cases h
  consistent :=
    { owners := fun id s h => by cases h
      sessions := fun hash t h => by cases h
      revoked := fun hash t h => by cases h }
  memory := remembers_empty _
  calls := fun i c h => by cases h
  exchanges := fun i c j d hash x h => by cases h
  rotated := fun hash t r h => by cases h

theorem Inv.past_write (h : Inv s) {db : Db} (hlater : Later s.db db) :
    ∀ k db', (s.write db).data.at? k = some db' → Later db' (s.write db).db := by
  intro k db' hdb'
  rcases Versioned.at?_write_cases hdb' with hold | rfl
  · exact (h.past k db' hold).trans hlater
  · exact Later.refl _

theorem Inv.memory_later (h : Inv s) {db : Db} (hlater : Later s.db db) :
    Remembers (Known db) s.resolved :=
  fun id looked actor hfound => (h.memory id looked actor hfound).mono hlater

/-- One call goes on in a later state. -/
theorem Inv.put (h : Inv s) (hg : Grows s s')
    (hpast : ∀ k db, s'.data.at? k = some db → Later db s'.db) (hconsistent : Consistent s'.db)
    (hmemory : Remembers (Known s'.db) s'.resolved) (hcalls : s'.calls = s.calls.put i c')
    (hok : CallOk s' c')
    (hbegun : (∃ c, s.calls.find? i = some c ∧ c.begun = c'.begun ∧ c.begunAt = c'.begunAt) ∨
      (c'.begun = s.data.version ∧ c'.begunAt = s.clock))
    (hexchanged : ∀ x, c'.exchangedAt = some x → (∃ c, s.calls.find? i = some c ∧
      c.operation = c'.operation ∧ c.exchangedAt = some x) ∨ s.clock ≤ x)
    (hkeeps : ∀ c x, s.calls.find? i = some c → c.exchangedAt = some x →
      c'.operation = c.operation ∧ c'.exchangedAt = some x)
    (hrotated : ∀ hash t r, s'.db.tokens.find? hash = some t → t.rotatedAt = some r →
      (∃ t₀, s.db.tokens.find? hash = some t₀ ∧ t₀.rotatedAt = some r) ∨
        (c'.operation = .refresh hash ∧ c'.exchangedAt = some r)) : Inv s' where
  past := hpast
  consistent := hconsistent
  memory := hmemory
  calls := by
    intro j d hd
    rw [hcalls, Table.find?_put] at hd
    split_ifs at hd
    · cases hd
      exact hok
    · exact (h.calls j d hd).mono hg
  exchanges := by
    intro k b j d hash x hb hd hop hx hlt
    -- Whoever the reader is, it began no later than now.
    have hreader : (∃ b', s.calls.find? k = some b' ∧ b'.begun = b.begun ∧ b'.begunAt = b.begunAt) ∨
        (b.begun = s.data.version ∧ b.begunAt = s.clock) := by
      rw [hcalls, Table.find?_put] at hb
      split_ifs at hb with hk
      · cases hb
        rw [hk]
        exact hbegun
      · exact Or.inl ⟨b, hb, rfl, rfl⟩
    -- So an exchange it is behind is not the one that happens now.
    have hclock : b.begunAt ≤ s.clock := by
      rcases hreader with ⟨b', hb', _, hat⟩ | ⟨_, hat⟩
      · rw [← hat]
        exact (h.calls k b' hb').begunAt
      · exact hat.le
    have hwriter : ∃ d', s.calls.find? j = some d' ∧ d'.operation = .refresh hash ∧
        d'.exchangedAt = some x := by
      rw [hcalls, Table.find?_put] at hd
      split_ifs at hd with hj
      · cases hd
        rw [hj]
        rcases hexchanged x hx with ⟨d', hd', hsame, hx'⟩ | hnow
        · exact ⟨d', hd', hsame.trans hop, hx'⟩
        · exact absurd (hnow.trans_lt hlt) (not_lt.mpr hclock)
      · exact ⟨d, hd, hop, hx⟩
    obtain ⟨d', hd', hop', hx'⟩ := hwriter
    rcases hreader with ⟨b', hb', hsame, hat⟩ | ⟨hsame, _⟩
    · obtain ⟨db, t, r, hdb, ht, hr, hle⟩ :=
        h.exchanges k b' j d' hash x hb' hd' hop' hx' (hat ▸ hlt)
      rw [← hsame]
      exact ⟨db, t, r, (hg.at?_eq (Versioned.le_version hdb)).trans hdb, ht, hr, hle⟩
    · obtain ⟨_, hash', t, r, hop'', ht, hr, hle⟩ := (h.calls j d' hd').exchanged x hx'
      rw [hop'] at hop''
      cases hop''
      rw [hsame]
      exact ⟨s.db, t, r, (hg.at?_eq le_rfl).trans (Versioned.at?_version _), ht, hr, hle⟩
  rotated := by
    intro hash t r ht hr
    rcases hrotated hash t r ht hr with ⟨t₀, ht₀, hr₀⟩ | ⟨hop, hx⟩
    · obtain ⟨j, d, hd, hop, hx⟩ := h.rotated hash t₀ r ht₀ hr₀
      by_cases hj : j = i
      · rw [hj] at hd
        obtain ⟨hsame, hx'⟩ := hkeeps d r hd hx
        refine ⟨i, c', ?_, hsame.trans hop, hx'⟩
        rw [hcalls, Table.find?_put_self]
      · refine ⟨j, d, ?_, hop, hx⟩
        rw [hcalls, Table.find?_put_ne _ _ hj]
        exact hd
    · refine ⟨i, c', ?_, hop, hx⟩
      rw [hcalls, Table.find?_put_self]

/-- A call that goes on as itself, exchanging nothing. -/
theorem Inv.goes (h : Inv s) (hc : s.calls.find? i = some c) (hg : Grows s s')
    (hpast : ∀ k db, s'.data.at? k = some db → Later db s'.db) (hconsistent : Consistent s'.db)
    (hmemory : Remembers (Known s'.db) s'.resolved) (hcalls : s'.calls = s.calls.put i c')
    (hsame : c'.operation = c.operation ∧ c'.begun = c.begun ∧ c'.begunAt = c.begunAt ∧
      c'.exchangedAt = c.exchangedAt)
    (hphase : PhaseOk s' c')
    (hcommitted : ∀ v, c'.committedAt = some v → ∃ db, s'.data.at? v = some db ∧ HasEnded s' c' db)
    (hrotated : ∀ hash t r, s'.db.tokens.find? hash = some t → t.rotatedAt = some r →
      ∃ t₀, s.db.tokens.find? hash = some t₀ ∧ t₀.rotatedAt = some r) : Inv s' := by
  obtain ⟨hop, hbegun, hat, hx⟩ := hsame
  have hok := (h.calls i c hc).mono hg
  refine h.put hg hpast hconsistent hmemory hcalls ⟨?_, ?_, hphase, hcommitted, ?_⟩
    (Or.inl ⟨c, hc, hbegun.symm, hat.symm⟩) ?_ ?_ ?_
  · rw [hbegun]
    exact hok.begun
  · rw [hat]
    exact hok.begunAt
  · intro x hx'
    rw [hop]
    exact hok.exchanged x (hx ▸ hx')
  · intro x hx'
    exact Or.inl ⟨c, hc, hop.symm, hx ▸ hx'⟩
  · intro d x hd hdx
    rw [hc] at hd
    cases hd
    exact ⟨hop, hx.trans hdx⟩
  · exact fun hash t r ht hr => Or.inl (hrotated hash t r ht hr)

/-- What a call has committed stays committed. -/
theorem Inv.committed (h : Inv s) (hc : s.calls.find? i = some c) (hg : Grows s s')
    (hsame : c'.operation = c.operation ∧ c'.begun = c.begun ∧ c'.committedAt = c.committedAt) :
    ∀ v, c'.committedAt = some v → ∃ db, s'.data.at? v = some db ∧ HasEnded s' c' db := by
  intro v hv
  obtain ⟨hop, hbegun, hat⟩ := hsame
  obtain ⟨db, hdb, hended⟩ := ((h.calls i c hc).mono hg).committed v (hat ▸ hv)
  refine ⟨db, hdb, ?_⟩
  unfold HasEnded at hended ⊢
  rw [hop, hbegun]
  exact hended

/-- A call that goes on without touching the database or the memory. -/
theorem Inv.advance (h : Inv s) (hc : s.calls.find? i = some c) {phase : Phase}
    (hphase : PhaseOk s { c with phase := phase }) : Inv (s.advance i c phase) :=
  h.goes hc (grows_of_eq rfl rfl) h.past h.consistent h.memory rfl ⟨rfl, rfl, rfl, rfl⟩
    (hphase.mono (grows_of_eq rfl rfl) (h.calls i c hc).begun)
    (h.committed hc (grows_of_eq rfl rfl) ⟨rfl, rfl, rfl⟩) fun _ t _ ht hr => ⟨t, ht, hr⟩

/-- A call that writes something and goes on. -/
theorem Inv.write (h : Inv s) (hc : s.calls.find? i = some c) {db : Db} {phase : Phase}
    (hlater : Later s.db db) (hconsistent : Consistent db)
    (hrotated : ∀ hash t r, db.tokens.find? hash = some t → t.rotatedAt = some r →
      ∃ t₀, s.db.tokens.find? hash = some t₀ ∧ t₀.rotatedAt = some r)
    (hphase : PhaseOk (s.write db) { c with phase := phase }) :
    Inv ((s.write db).advance i c phase) :=
  have hg : Grows s ((s.write db).advance i c phase) := grows_of_write rfl rfl hlater
  have hbegun : c.begun ≤ (s.write db).data.version :=
    (h.calls i c hc).begun.trans (Versioned.extends_write s.data db).1
  h.goes hc hg (h.past_write hlater) hconsistent (h.memory_later hlater) rfl
    ⟨rfl, rfl, rfl, rfl⟩ (hphase.mono (grows_of_eq rfl rfl) hbegun)
    (h.committed hc hg ⟨rfl, rfl, rfl⟩) hrotated

/-- A call that commits a change. -/
theorem Inv.change (h : Inv s) (hc : s.calls.find? i = some c) {db : Db}
    (hlater : Later s.db db) (hconsistent : Consistent db)
    (hrotated : ∀ hash t r, db.tokens.find? hash = some t → t.rotatedAt = some r →
      ∃ t₀, s.db.tokens.find? hash = some t₀ ∧ t₀.rotatedAt = some r)
    (hended : HasEnded (s.write db) c db) : Inv (s.change i c db) := by
  refine h.goes hc (grows_of_write rfl rfl hlater) (h.past_write hlater) hconsistent
    (h.memory_later hlater) rfl ⟨rfl, rfl, rfl, rfl⟩ trivial ?_ hrotated
  intro v hv
  cases hv
  exact ⟨db, Versioned.at?_version _, hended⟩

/-- Time passes, or something else is remembered. -/
theorem Inv.of_same (h : Inv s) (hdata : s'.data = s.data) (hclock : s.clock ≤ s'.clock)
    (hcalls : s'.calls = s.calls) (hmemory : Remembers (Known s.db) s'.resolved) : Inv s' := by
  have hdb : s'.db = s.db := by rw [State.db, State.db, hdata]
  have hg : Grows s s' := ⟨hdata ▸ Versioned.Extends.refl _, hdb ▸ Later.refl _, hclock⟩
  refine ⟨?_, ?_, ?_, ?_, ?_, ?_⟩
  · rw [hdata, hdb]
    exact h.past
  · rw [hdb]
    exact h.consistent
  · rw [hdb]
    exact hmemory
  · intro i c hc
    rw [hcalls] at hc
    exact (h.calls i c hc).mono hg
  · rw [hcalls, hdata]
    exact h.exchanges
  · rw [hcalls, hdb]
    exact h.rotated

/-- A call that marks its token exchanged. -/
theorem Inv.exchange (h : Inv s) (hc : s.calls.find? i = some c)
    (hop : c.operation = .refresh tokenHash) (hnone : c.exchangedAt = none)
    {record : RefreshTokenRecord} (hclear : Clear s c.begun c.begunAt tokenHash record.sessionId) :
    Inv ((s.write (markRotated s.db tokenHash s.clock)).advance i
      { c with exchangedAt := some s.clock } (.rotated record)) := by
  have hlater := later_markRotated s.db tokenHash s.clock
  have hg : Grows s ((s.write (markRotated s.db tokenHash s.clock)).advance i
      { c with exchangedAt := some s.clock } (.rotated record)) := grows_of_write rfl rfl hlater
  have hok := (h.calls i c hc).mono hg
  obtain ⟨t, ht, hsession⟩ := hclear.token
  refine h.put hg (h.past_write hlater) (consistent_markRotated h.consistent tokenHash s.clock)
    (h.memory_later hlater) rfl ⟨hok.begun, hok.begunAt, ?_, ?_, ?_⟩ (Or.inl ⟨c, hc, rfl, rfl⟩)
    ?_ ?_ ?_
  · have hmono := hclear.mono hg (h.calls i c hc).begun
    exact ⟨tokenHash, hop, hmono⟩
  · exact h.committed hc hg ⟨rfl, rfl, rfl⟩
  · -- The token was exchanged before, or is now.
    intro x hx
    cases hx
    refine ⟨le_rfl, tokenHash, _, t.rotatedAt.getD s.clock, hop, congrArg (Option.map _) ht, ?_, ?_⟩
    · cases hr : t.rotatedAt with
      | none => simp [hr]
      | some r => simp [hr]
    · cases hr : t.rotatedAt with
      | none => exact le_rfl
      | some r =>
        obtain ⟨j, d, hd, _, hx⟩ := h.rotated tokenHash t r ht hr
        exact ((h.calls j d hd).exchanged r hx).1
  · intro x hx
    cases hx
    exact Or.inr le_rfl
  · intro d x hd hx
    rw [hc] at hd
    cases hd
    rw [hnone] at hx
    cases hx
  · intro hash t' r ht' hr
    obtain ⟨t₀, ht₀, rfl⟩ := Option.map_eq_some_iff.mp ht'
    dsimp only at hr
    split_ifs at hr with hmark
    · cases hr
      right
      rw [hmark.1]
      exact ⟨hop, rfl⟩
    · exact Or.inl ⟨t₀, ht₀, hr⟩

/-- A look at a session is answered. -/
theorem Inv.answer (h : Inv s) (hc : s.calls.find? i = some c) {actor : Option SessionActor}
    (hknown : Known s.db sessionId actor)
    (hclear : ∀ hash, c.operation = .refresh hash → Clear s c.begun c.begunAt hash sessionId) (floor : ℕ) :
    Inv (s.answer i c sessionId floor actor) := by
  have hg : Grows s (s.answer i c sessionId floor actor) := grows_of_eq rfl rfl
  refine h.goes hc hg h.past h.consistent h.memory rfl ⟨rfl, rfl, rfl, rfl⟩ ?_
    (h.committed hc hg ⟨rfl, rfl, rfl⟩) fun _ t _ ht hr => ⟨t, ht, hr⟩
  have hbegun := (h.calls i c hc).begun
  obtain ⟨hsession, hnone, hid⟩ := hknown
  obtain ⟨operation, phase, begun, begunAt, exchangedAt, committedAt, resolved⟩ := c
  cases actor with
  | some x =>
    have hx := hid x rfl
    have hthere : (s.db.sessions.find? x.sessionId).isSome := hx ▸ hsession
    cases operation with
    | request id => trivial
    | refresh hash =>
      refine ⟨hg.session hthere, fun hash' hop => ?_⟩
      cases hop
      have hmine : Clear s begun begunAt hash x.sessionId := by
        rw [hx]
        exact hclear hash rfl
      exact hmine.mono hg hbegun
    | _ =>
      refine ⟨hg.session hthere, fun hash' hop => ?_⟩
      cases hop
  | none =>
    cases operation with
    | refresh hash =>
      intro hash' hop
      cases hop
      intro db t hdb ht
      obtain ⟨t', ht', hsame⟩ := (hclear hash rfl).token
      obtain ⟨t'', ht'', hsame', _⟩ := (h.past _ db hdb).tokens hash t ht
      obtain rfl : t'' = t' := Option.some.inj (ht''.symm.trans ht')
      rw [← hsame', hsame]
      exact Or.inr (Or.inr (hnone rfl))
    | _ => trivial

/-- What a later state of the database says is over. -/
theorem Inv.over_of_gone (h : Inv s) {k : ℕ} {db : Db} (hdb : s.data.at? k = some db)
    (hgone : Gone db s.db sessionId) : s.db.SessionOver sessionId := by
  rcases hgone with hover | ⟨row, staffId, hrow, hstaff, hremoved⟩
  · exact (h.past k db hdb).sessionOver hover
  · exact ⟨row, hrow, Or.inr ⟨staffId, hstaff, (h.past k db hdb).staffRemoved hremoved⟩⟩

/-- A session that is over does not look live. -/
theorem not_live_of_over {db : Db} {row : DeviceSession} (hrow : db.sessions.find? sessionId = some row)
    (hover : db.SessionOver sessionId) : ¬ (row.revokedAt.isNone = true ∧
      ((row.staffId.bind db.staff.find?).map fun st => st.removedAt.isNone).getD true = true) := by
  rintro ⟨hlive, hstaff⟩
  obtain ⟨row', hrow', hwhy⟩ := hover
  obtain rfl : row' = row := Option.some.inj (hrow'.symm.trans hrow)
  rcases hwhy with hrevoked | ⟨staffId, hmember, st, hst, hremoved⟩
  · rw [Option.isNone_iff_eq_none] at hlive
    rw [hlive] at hrevoked
    cases hrevoked
  · rw [hmember, Option.bind_some, hst, Option.map_some, Option.getD_some,
      Option.isNone_iff_eq_none] at hstaff
    rw [hstaff] at hremoved
    cases hremoved

/-- A session that does not look live is over. -/
theorem over_of_not_live {db : Db} {row : DeviceSession} (hrow : db.sessions.find? sessionId = some row)
    (hnot : ¬ (row.revokedAt.isNone = true ∧
      ((row.staffId.bind db.staff.find?).map fun st => st.removedAt.isNone).getD true = true)) :
    db.SessionOver sessionId := by
  refine ⟨row, hrow, ?_⟩
  cases hrevoked : row.revokedAt with
  | some at_ => exact Or.inl rfl
  | none =>
    right
    rw [hrevoked] at hnot
    cases hmember : row.staffId with
    | none => simp [hmember] at hnot
    | some staffId =>
      cases hst : db.staff.find? staffId with
      | none => simp [hmember, hst] at hnot
      | some st =>
        refine ⟨staffId, rfl, st, hst, ?_⟩
        by_contra hremoved
        have hnone : st.removedAt = none := Option.not_isSome_iff_eq_none.mp hremoved
        simp [hmember, hst, hnone] at hnot

theorem Inv.readOk (h : Inv s) {record : RefreshTokenRecord}
    (hfind : findRefreshToken s.db tokenHash = some record) (begun : ℕ) :
    ReadOk s begun tokenHash record := by
  obtain ⟨t, ht, hrest⟩ := Option.bind_eq_some_iff.mp hfind
  obtain ⟨row, hrow, rfl⟩ := Option.map_eq_some_iff.mp hrest
  constructor
  · exact ⟨t, ht, rfl, rfl, fun r hr => hr⟩
  · rw [hrow]
    rfl
  · exact fun k db _ hdb hgone => not_live_of_over hrow (h.over_of_gone hdb hgone)
  · intro db t₀ r hdb ht₀ hr
    obtain ⟨t', ht', _, _, hkept⟩ := (h.past _ db hdb).tokens tokenHash t₀ ht₀
    obtain rfl : t' = t := Option.some.inj (ht'.symm.trans ht)
    exact hkept r hr
  · rintro (hnot | hrevoked)
    · exact over_of_not_live hrow hnot
    · exact h.consistent.revoked tokenHash t ht hrevoked

/-- A token that is not found was not there when the refresh began. -/
theorem Inv.refused_of_none (h : Inv s) (hfind : findRefreshToken s.db tokenHash = none)
    (begun : ℕ) : Refused s begun tokenHash := by
  intro db t hdb ht
  obtain ⟨t', ht', _⟩ := (h.past _ db hdb).tokens tokenHash t ht
  obtain ⟨row, hrow⟩ := Option.isSome_iff_exists.mp (h.consistent.sessions tokenHash t' ht')
  simp [findRefreshToken, ht', hrow] at hfind

/-- A token that does not pass the checks has expired, was exchanged a day
ago, or its session is over. -/
theorem Inv.refused_of_not_acceptable (h : Inv s) {record : RefreshTokenRecord} {begun : ℕ}
    (hread : ReadOk s begun tokenHash record) (hnot : ¬ Acceptable record s.clock) :
    Refused s begun tokenHash := by
  intro db t hdb ht
  obtain ⟨t', ht', hsession, hexpires, hrotated⟩ := hread.token
  obtain ⟨t'', ht'', hsession', hexpires', _⟩ := (h.past _ db hdb).tokens tokenHash t ht
  obtain rfl : t'' = t' := Option.some.inj (ht''.symm.trans ht')
  rw [← hsession', hsession, ← hexpires', hexpires]
  by_contra hwhy
  obtain ⟨hlives, hrecent, hgoes⟩ : s.clock < record.expiresAt ∧
      (¬ ∃ t₁ r, s.db.tokens.find? tokenHash = some t₁ ∧ t₁.rotatedAt = some r ∧
        r + ROTATION_GRACE ≤ s.clock) ∧ ¬ s.db.SessionOver record.sessionId := by
    simpa only [not_or, not_le] using hwhy
  have hlooks : record.sessionLive = true ∧ record.staffLive = true := by
    by_contra hn
    exact hgoes (hread.ended (Or.inl hn))
  have hvalid : record.revokedAt = none := by
    cases hr : record.revokedAt with
    | none => rfl
    | some at_ => exact absurd (hread.ended (Or.inr (by rw [hr]; rfl))) hgoes
  refine hnot ⟨hvalid, hlives, fun r hr => ?_, hlooks⟩
  by_contra hlong
  exact hrecent ⟨t'', r, ht', hrotated r hr, not_lt.mp hlong⟩

theorem clear_of_acceptable {record : RefreshTokenRecord} {begun : ℕ} {begunAt : Timestamp}
    (hread : ReadOk s begun tokenHash record) (hbegun : begunAt ≤ s.clock)
    (hok : Acceptable record s.clock) : Clear s begun begunAt tokenHash record.sessionId where
  token := by
    obtain ⟨t, ht, hsession, _⟩ := hread.token
    exact ⟨t, ht, hsession⟩
  session := hread.session
  alive := fun k db hk hdb hgone => hread.dead k db hk hdb hgone hok.2.2.2
  recent := fun db t r hdb ht hr =>
    hbegun.trans_lt (hok.2.2.1 r (hread.rotated db t r hdb ht hr))

theorem exists_of_mem_liveTokens {db : Db} {ids : Finset Uuid} {hash : String}
    (h : hash ∈ liveTokens db ids) :
    ∃ t, db.tokens.find? hash = some t ∧ t.sessionId ∈ ids := by
  obtain ⟨t, ht, hlive⟩ := Table.mem_ids_filter.mp h
  exact ⟨t, ht, (of_decide_eq_true hlive).1⟩

theorem exists_of_mem_sessionsOf {db : Db} {staffId id : Uuid} (h : id ∈ sessionsOf db staffId) :
    ∃ row, db.sessions.find? id = some row ∧ row.staffId = some staffId := by
  obtain ⟨row, hrow, hmember⟩ := Table.mem_ids_filter.mp h
  exact ⟨row, hrow, of_decide_eq_true hmember⟩

/-- The tokens a transaction revokes are of sessions it ends. -/
theorem endsTokens_tokensToRevoke {w : Writes} (h : EndsTarget s c w) :
    EndsTokens s.db { w with tokens := tokensToRevoke s.db c.operation } := by
  unfold EndsTarget at h
  intro hash hmem
  change hash ∈ tokensToRevoke s.db c.operation at hmem
  cases hop : c.operation with
  | revoke ownerId id =>
    simp only [hop, tokensToRevoke] at h hmem
    obtain ⟨t, ht, hsession⟩ := exists_of_mem_liveTokens hmem
    rw [Finset.mem_singleton] at hsession
    exact ⟨t, ht, Or.inl (hsession ▸ h.1)⟩
  | remove storeId staffId =>
    simp only [hop, tokensToRevoke] at h hmem
    obtain ⟨t, ht, hsession⟩ := exists_of_mem_liveTokens hmem
    obtain ⟨row, hrow, hmember⟩ := exists_of_mem_sessionsOf hsession
    exact ⟨t, ht, Or.inr ⟨row, staffId, hrow, hmember, h.1, h.2⟩⟩
  | _ => simp [hop, tokensToRevoke] at hmem

/-- A commit ends what its call was asked to end. -/
theorem hasEnded_writeAll {w : Writes} (h : EndsTarget s c w) (hc : c.begun ≤ s.data.version) :
    HasEnded (s.write (writeAll s.db w)) c (writeAll s.db w) := by
  unfold EndsTarget at h
  unfold HasEnded
  cases hop : c.operation with
  | revoke ownerId id =>
    simp only [hop] at h
    exact sessionOver_writeAll h.1 h.2
  | remove storeId staffId =>
    simp only [hop] at h
    exact staffRemoved_writeAll h.1 h.2
  | logout hash =>
    simp only [hop] at h
    intro before t hbefore ht
    have hsame : s.data.at? c.begun = some before := by
      rw [← hbefore]
      exact (Versioned.at?_write hc _).symm
    rcases h before t hsame ht with hover | ⟨hmem, hsession⟩
    · exact (later_writeAll s.db w).sessionOver hover
    · exact sessionOver_writeAll hmem hsession
  | _ => trivial

/-- A commit exchanges no token. -/
theorem rotated_writeAll {db : Db} {w : Writes} {hash : String} {t : RefreshToken}
    {r : Timestamp} (ht : (writeAll db w).tokens.find? hash = some t) (hr : t.rotatedAt = some r) :
    ∃ t₀, db.tokens.find? hash = some t₀ ∧ t₀.rotatedAt = some r := by
  obtain ⟨t₀, ht₀, rfl⟩ := Option.map_eq_some_iff.mp ht
  refine ⟨t₀, ht₀, ?_⟩
  dsimp only at hr
  split_ifs at hr <;> exact hr

/-- A sign-out ends the session of its token. -/
theorem Inv.endsTarget_logout (h : Inv s) (hop : c.operation = .logout tokenHash)
    {w : Writes} (hsessions : w.sessions = match s.db.tokens.find? tokenHash with
      | some t => liveSessions s.db {t.sessionId}
      | none => ∅) : EndsTarget s c w := by
  unfold EndsTarget
  simp only [hop]
  intro db t hdb ht
  obtain ⟨t', ht', hsession, _⟩ := (h.past _ db hdb).tokens tokenHash t ht
  have hthere := h.consistent.sessions tokenHash t' ht'
  obtain ⟨row, hrow⟩ := Option.isSome_iff_exists.mp hthere
  rw [← hsession]
  cases hrevoked : row.revokedAt with
  | some at_ => exact Or.inl ⟨row, hrow, Or.inl (by rw [hrevoked]; rfl)⟩
  | none =>
    right
    refine ⟨?_, hthere⟩
    rw [hsessions, ht']
    exact Table.mem_ids_filter.mpr ⟨row, hrow, by simp [hrevoked]⟩

variable {settings : Settings}

/-- The first step of a call. -/
theorem Inv.firstStep (h : Inv s) (hc : s.calls.find? i = some c)
    (hphase : c.phase = .begun) : Inv (firstStep s i c) := by
  have hok := (h.calls i c hc).phase
  simp only [PhaseOk, hphase] at hok
  unfold SessionServer.firstStep
  cases hop : c.operation with
  | openOwnerSession ownerId deviceName =>
    refine h.advance hc fun hash hop' => ?_
    rw [hop] at hop'
    cases hop'
  | join codeHash deviceName =>
    dsimp only
    split
    · exact h.advance hc trivial
    · exact h.advance hc trivial
  | refresh hash =>
    dsimp only
    split
    · rename_i record hfind
      exact h.advance hc ⟨hok.1, hash, hop, h.readOk hfind c.begun⟩
    · rename_i hnone
      refine h.advance hc fun hash' hop' => ?_
      rw [hop] at hop'
      cases hop'
      exact h.refused_of_none hnone c.begun
  | logout hash =>
    refine h.advance hc ⟨?_, ?_⟩
    · exact h.endsTarget_logout hop rfl
    · intro token hmem
      obtain ⟨t, ht, hsession⟩ := exists_of_mem_liveTokens hmem
      exact ⟨t, ht, Or.inl hsession⟩
  | revoke ownerId id =>
    dsimp only
    split
    · rename_i row hrow
      split_ifs
      · refine h.advance hc ⟨?_, fun token hmem => absurd hmem (Finset.notMem_empty _)⟩
        unfold EndsTarget
        simp only [hop]
        exact ⟨Finset.mem_singleton_self _, by rw [hrow]; rfl⟩
      · exact h.advance hc trivial
    · exact h.advance hc trivial
  | remove storeId staffId =>
    dsimp only
    split
    · rename_i st hst
      split_ifs
      · refine h.advance hc ⟨?_, rfl⟩
        unfold EndsTarget
        simp only [hop]
        exact ⟨Finset.mem_singleton_self _, by rw [hst]; rfl⟩
      · exact h.advance hc trivial
    · exact h.advance hc trivial
  | update storeId staffId displayName permissions =>
    have hended : ∀ db, HasEnded (s.write db) c db := by
      intro db
      unfold HasEnded
      simp only [hop]
    dsimp only
    split
    · split_ifs
      · exact h.change hc (later_updateStaff _ _ _ _ _) (consistent_updateStaff h.consistent _ _ _ _)
          (fun _ t _ ht hr => ⟨t, ht, hr⟩) (hended _)
      · exact h.advance hc trivial
    · exact h.advance hc trivial
  | pay ownerId subscription =>
    have hended : ∀ db, HasEnded (s.write db) c db := by
      intro db
      unfold HasEnded
      simp only [hop]
    exact h.change hc (later_subscribe _ _ _) (consistent_subscribe h.consistent _ _)
      (fun _ t _ ht hr => ⟨t, ht, hr⟩) (hended _)
  | request id =>
    have hsession := hok.2 id (by rw [hop]; rfl)
    refine h.advance hc ⟨hsession, fun hash hop' => ?_⟩
    rw [hop] at hop'
    cases hop'

/-- A token that passed the check was live when the call began, and one that
failed it has ended. -/
theorem Inv.goOn_found (h : Inv s) (hc : s.calls.find? i = some c) {id : Uuid} {token : String}
    {record : RefreshTokenRecord} (hphase : c.phase = .found record)
    (hstep : SessionServer.advance settings s i c id token = some s') : Inv s' := by
  have hcall := h.calls i c hc
  have hok := (h.calls i c hc).phase
  unfold PhaseOk at hok
  unfold SessionServer.advance at hstep
  simp only [hphase] at hstep hok
  obtain ⟨hnone, hash, hop, hread⟩ := hok
  split_ifs at hstep with hcheck
  · cases hstep
    exact h.advance hc ⟨hnone, hash, hop, clear_of_acceptable hread hcall.begunAt hcheck⟩
  · cases hstep
    refine h.advance hc fun hash' hop' => ?_
    rw [hop] at hop'
    cases hop'
    exact h.refused_of_not_acceptable hread hcheck

/-- The token is marked exchanged. -/
theorem Inv.goOn_passed (h : Inv s) (hc : s.calls.find? i = some c) {id : Uuid} {token : String}
    {record : RefreshTokenRecord} (hphase : c.phase = .passed record)
    (hstep : SessionServer.advance settings s i c id token = some s') : Inv s' := by
  have hok := (h.calls i c hc).phase
  unfold PhaseOk at hok
  unfold SessionServer.advance at hstep
  simp only [hphase] at hstep hok
  obtain ⟨hnone, hash, hop, hclear⟩ := hok
  split at hstep
  · rename_i hash' hop'
    rw [hop] at hop'
    cases hop'
    cases hstep
    exact h.exchange hc hop hnone hclear
  · cases hstep

theorem Inv.goOn_rotated (h : Inv s) (hc : s.calls.find? i = some c) {id : Uuid} {token : String}
    {record : RefreshTokenRecord} (hphase : c.phase = .rotated record)
    (hstep : SessionServer.advance settings s i c id token = some s') : Inv s' := by
  have hbegun := (h.calls i c hc).begun
  have hok := (h.calls i c hc).phase
  unfold PhaseOk at hok
  unfold SessionServer.advance at hstep
  simp only [hphase] at hstep hok
  obtain ⟨hash, hop, hclear⟩ := hok
  cases hstep
  have hlater := later_touchSession s.db record.sessionId s.clock
  have hg : Grows s (s.write (touchSession s.db record.sessionId s.clock)) :=
    grows_of_write rfl rfl hlater
  refine h.write hc hlater (consistent_touchSession h.consistent _ _)
    (fun _ t _ ht hr => ⟨t, ht, hr⟩) ⟨hg.session hclear.session, fun hash' hop' => ?_⟩
  rw [hop] at hop'
  cases hop'
  exact hclear.mono hg hbegun

theorem Inv.goOn_redeemed (h : Inv s) (hc : s.calls.find? i = some c) {id : Uuid} {token : String}
    {ownerId staffId : Uuid} {began : Timestamp} (hphase : c.phase = .redeemed ownerId staffId began)
    (hstep : SessionServer.advance settings s i c id token = some s') : Inv s' := by
  unfold SessionServer.advance at hstep
  simp only [hphase] at hstep
  split at hstep
  · rename_i codeHash deviceName hop
    cases hstep
    refine h.write hc (later_markRedeemed _ _ _) (consistent_markRedeemed h.consistent _ _)
      (fun _ t _ ht hr => ⟨t, ht, hr⟩) fun hash hop' => ?_
    rw [hop] at hop'
    cases hop'
  · cases hstep

/-- A new session is of an owner who is there. -/
theorem Inv.goOn_opening (h : Inv s) (hc : s.calls.find? i = some c) {id : Uuid} {token : String}
    {ownerId : Uuid} {staffId : Option Uuid} {deviceName : String}
    (hphase : c.phase = .opening ownerId staffId deviceName)
    (hstep : SessionServer.advance settings s i c id token = some s') : Inv s' := by
  have hok := (h.calls i c hc).phase
  unfold PhaseOk at hok
  unfold SessionServer.advance at hstep
  simp only [hphase] at hstep hok
  split_ifs at hstep with hthere
  · cases hstep
    obtain ⟨hfree, howner, _⟩ := hthere
    have hfree := Option.isNone_iff_eq_none.mp hfree
    refine h.write hc (later_openSession hfree _ _ _ _)
      (consistent_openSession h.consistent hfree howner _ _ _)
      (fun _ t _ ht hr => ⟨t, ht, hr⟩) ⟨?_, fun hash hop => absurd hop (hok hash)⟩
    change ((s.db.sessions.put _ _).find? _).isSome = true
    rw [Table.find?_put_self]
    rfl
  · cases hstep
    exact h.advance hc trivial

/-- What a look-up reads is known of the session then. -/
theorem Inv.goOn_looking (h : Inv s) (hc : s.calls.find? i = some c) {id : Uuid} {token : String}
    {sessionId : Uuid} {floor : ℕ} (hphase : c.phase = .looking sessionId floor)
    (hstep : SessionServer.advance settings s i c id token = some s') : Inv s' := by
  have hok := (h.calls i c hc).phase
  unfold PhaseOk at hok
  unfold SessionServer.advance at hstep
  simp only [hphase] at hstep hok
  cases hstep
  obtain ⟨row, hrow⟩ := Option.isSome_iff_exists.mp hok.1
  have hknown : Known s.db sessionId (s.db.describe sessionId) :=
    ⟨hok.1, Db.sessionOver_of_describe hrow (h.consistent.owners _ row hrow),
      fun x hx => sessionId_of_describe hx⟩
  exact h.advance hc ⟨hknown, hok.2⟩

/-- A new token has not been exchanged. -/
theorem Inv.goOn_issuing (h : Inv s) (hc : s.calls.find? i = some c) {id : Uuid} {token : String}
    {actor : SessionActor} (hphase : c.phase = .issuing actor)
    (hstep : SessionServer.advance settings s i c id token = some s') : Inv s' := by
  have hbegun := (h.calls i c hc).begun
  have hok := (h.calls i c hc).phase
  unfold PhaseOk at hok
  unfold SessionServer.advance at hstep
  simp only [hphase] at hstep hok
  split_ifs at hstep with hfree
  · cases hstep
    have hfree := Option.isNone_iff_eq_none.mp hfree
    have hlater := later_storeRefreshToken hfree actor (s.clock + settings.refreshLifetime)
    refine h.write hc hlater (consistent_storeRefreshToken h.consistent hfree hok.1 _) ?_
      fun hash hop => (hok.2 hash hop).mono (grows_of_write rfl rfl hlater) hbegun
    intro hash t r ht hr
    rw [storeRefreshToken, Table.find?_put] at ht
    split_ifs at ht
    · cases ht
      cases hr
    · exact ⟨t, ht, hr⟩
  · cases hstep
    exact h.advance hc trivial

theorem Inv.goOn_staffMarked (h : Inv s) (hc : s.calls.find? i = some c) {id : Uuid} {token : String}
    {w : Writes} (hphase : c.phase = .staffMarked w)
    (hstep : SessionServer.advance settings s i c id token = some s') : Inv s' := by
  have hok := (h.calls i c hc).phase
  unfold PhaseOk at hok
  unfold SessionServer.advance at hstep
  simp only [hphase] at hstep hok
  split at hstep
  · rename_i storeId staffId hop
    cases hstep
    have htarget := hok.1
    unfold EndsTarget at htarget
    simp only [hop] at htarget
    refine h.advance hc ⟨?_, fun hash hmem => ?_⟩
    · unfold EndsTarget
      simp only [hop]
      exact htarget
    · change hash ∈ w.tokens at hmem
      rw [hok.2] at hmem
      exact absurd hmem (Finset.notMem_empty _)
  · cases hstep

theorem Inv.goOn (h : Inv s) (hc : s.calls.find? i = some c) {id : Uuid} {token : String}
    (hstep : SessionServer.advance settings s i c id token = some s') : Inv s' := by
  have hcall := h.calls i c hc
  have hok := hcall.phase
  have hbegun := hcall.begun
  unfold SessionServer.advance at hstep
  unfold PhaseOk at hok
  cases hphase : c.phase with
  | begun =>
    simp only [hphase] at hstep
    cases hstep
    exact h.firstStep hc hphase
  | found record =>
    exact h.goOn_found hc hphase hstep
  | passed record =>
    exact h.goOn_passed hc hphase hstep
  | rotated record =>
    exact h.goOn_rotated hc hphase hstep
  | owned ownerId =>
    simp only [hphase] at hstep
    split_ifs at hstep
    · cases hstep
      exact h.advance hc trivial
    · cases hstep
      exact h.advance hc trivial
    · cases hstep
      exact h.advance hc trivial
  | checked =>
    simp only [hphase] at hstep
    split at hstep
    · split at hstep
      · cases hstep
        exact h.advance hc trivial
      · split_ifs at hstep
        cases hstep
        exact h.advance hc trivial
    · cases hstep
  | invited staffId began =>
    simp only [hphase] at hstep
    cases hstep
    exact h.advance hc trivial
  | redeeming staffId began =>
    simp only [hphase] at hstep
    split at hstep
    · cases hstep
      exact h.advance hc trivial
    · cases hstep
      exact h.advance hc trivial
  | redeemed ownerId staffId began =>
    exact h.goOn_redeemed hc hphase hstep
  | opening ownerId staffId deviceName =>
    exact h.goOn_opening hc hphase hstep
  | resolving sessionId floor =>
    simp only [hphase] at hstep hok
    split at hstep
    · rename_i actor hfound
      cases hstep
      exact h.answer hc (h.memory.of_remembered hfound) hok.2 floor
    · cases hstep
      exact h.advance hc hok
  | looking sessionId floor =>
    exact h.goOn_looking hc hphase hstep
  | looked sessionId floor actor version =>
    simp only [hphase] at hstep hok
    cases hstep
    have hanswered := h.answer hc hok.1 hok.2 floor
    exact hanswered.of_same rfl le_rfl rfl (h.memory.remember hok.1 s.clock)
  | issuing actor =>
    exact h.goOn_issuing hc hphase hstep
  | staffMarked w =>
    exact h.goOn_staffMarked hc hphase hstep
  | sessionsMarked w =>
    simp only [hphase] at hstep hok
    have htokens := endsTokens_tokensToRevoke hok.1
    split at hstep
    · cases hstep
      exact h.advance hc ⟨hok.1, htokens⟩
    · cases hstep
      exact h.advance hc ⟨hok.1, htokens⟩
  | tokensMarked w =>
    simp only [hphase] at hstep hok
    split at hstep
    · cases hstep
      exact h.advance hc hok
    · cases hstep
  | ready w =>
    simp only [hphase] at hstep hok
    cases hstep
    exact h.change hc (later_writeAll _ _) (consistent_writeAll h.consistent hok.2)
      (fun _ t _ ht hr => rotated_writeAll ht hr) (hasEnded_writeAll hok.1 hbegun)
  | forgetting version =>
    simp only [hphase] at hstep
    cases hstep
    have hdone : Inv (s.advance i c (.returned .done)) := h.advance hc trivial
    exact hdone.of_same rfl le_rfl rfl (remembers_empty _)
  | returned outcome =>
    simp only [hphase] at hstep
    cases hstep

theorem Inv.step (h : Inv s) {a : Action} (hstep : step settings s a = some s') : Inv s' := by
  cases a with
  | start i operation =>
    simp only [SessionServer.step] at hstep
    split at hstep
    · cases hstep
    · rename_i hnew
      split_ifs at hstep with hsession
      cases hstep
      have hg : Grows s (s.arrive i operation) := grows_of_eq rfl rfl
      refine h.put hg h.past h.consistent h.memory rfl
        ⟨le_rfl, le_rfl, ⟨rfl, hsession⟩, ?_, ?_⟩ (Or.inr ⟨rfl, rfl⟩) ?_ ?_
        fun _ t _ ht hr => Or.inl ⟨t, ht, hr⟩
      · intro v hv
        cases hv
      · intro x hx
        cases hx
      · intro x hx
        cases hx
      · intro c x hc
        rw [hnew] at hc
        cases hc
  | next i id token =>
    simp only [SessionServer.step] at hstep
    split at hstep
    · cases hstep
    · rename_i c hc
      exact h.goOn hc hstep
  | fail i =>
    simp only [SessionServer.step] at hstep
    split at hstep
    · cases hstep
    · rename_i c hc
      split_ifs at hstep
      cases hstep
      exact h.advance hc trivial
  | wait ticks =>
    cases hstep
    exact h.of_same rfl (by simp) rfl h.memory

theorem Inv.run (h : Inv s) {actions : List Action} (hrun : run settings s actions = some s') :
    Inv s' := by
  induction actions generalizing s with
  | nil =>
    cases hrun
    exact h
  | cons a rest ih =>
    obtain ⟨mid, hmid, hrest⟩ := Option.bind_eq_some_iff.mp hrun
    exact ih (h.step hmid) hrest

end Kitaza.SessionSafety
