import Kitaza.SessionHousekeeping

/-!
# What housekeeping changes

Two servers are given the same operations, and one of them housekeeping in
between. What it clears away is refused by the other one just the same, so
they answer alike, as long as nobody signs out with a token that is gone.
-/

namespace Kitaza.SessionHousekeeping

open KeyedTable Primitives Access BillingPlan SessionDirectory SessionServer

/-- A token that no refresh accepts. -/
def Refused (now : Timestamp) (token : RefreshToken) : Prop :=
  token.expiresAt < now ∨ token.revokedAt.isSome ∨
    ∃ rotated ∈ token.rotatedAt, rotated + ROTATION_GRACE ≤ now

/-- A session has a token that has not expired. -/
def Unexpired (s : State) (id : Uuid) : Prop :=
  s.db.tokens.Any fun _ token => token.sessionId = id ∧ s.clock < token.expiresAt

/-- What is remembered of a session that was opened: as it is, if the session
is left, and nobody who is not there, if it has a token that has not expired. -/
def Trusted (p q : State) (id : Uuid) (actor : Option SessionActor) : Prop :=
  (q.createdAt.find? id).isSome ∧
    ((q.db.sessions.find? id).isSome → actor = q.db.describe id) ∧
    ∀ found, actor = some found → Unexpired p id → p.db.describe id = some found

/-- A server `p` without housekeeping and a server `q` with it. -/
structure Related (p q : State) : Prop where
  /-- The time is the same. -/
  clock : p.clock = q.clock
  /-- They opened the same sessions. -/
  createdAt : p.createdAt = q.createdAt
  /-- They drew the same tokens. -/
  drawn : p.drawn = q.drawn
  /-- They have the same owners. -/
  owners : p.db.owners = q.db.owners
  /-- They have the same staff. -/
  staff : p.db.staff = q.db.staff
  /-- They have the same subscriptions. -/
  subscriptions : p.db.subscriptions = q.db.subscriptions
  /-- Sessions that are left are as they were. -/
  sessions : ∀ id row, q.db.sessions.find? id = some row → p.db.sessions.find? id = some row
  /-- Tokens that are left are as they were. -/
  tokens : ∀ hash token, q.db.tokens.find? hash = some token →
    p.db.tokens.find? hash = some token
  /-- Tokens that are gone are refused. -/
  goneTokens : ∀ hash token, p.db.tokens.find? hash = some token → q.db.tokens.find? hash = none →
    Refused p.clock token
  /-- Sessions that are gone are a day old and have no token left. -/
  goneSessions : ∀ id row, p.db.sessions.find? id = some row → q.db.sessions.find? id = none →
    (∃ created, p.createdAt.find? id = some created ∧ created + DAY < p.clock) ∧
      ∀ hash token, p.db.tokens.find? hash = some token → token.sessionId = id →
        q.db.tokens.find? hash = none
  /-- What the second one remembers can be trusted. -/
  memory : Remembers (Trusted p q) q.resolved

/-- A server without housekeeping. -/
structure Sound (refreshLifetime : ℤ) (p : State) : Prop where
  /-- Tokens belong to sessions. -/
  sessionOf : ∀ hash token, p.db.tokens.find? hash = some token →
    (p.db.sessions.find? token.sessionId).isSome
  /-- Sessions belong to owners. -/
  ownerOf : ∀ id row, p.db.sessions.find? id = some row → (p.db.owners.find? row.ownerId).isSome
  /-- Sessions were opened. -/
  created : ∀ id row, p.db.sessions.find? id = some row → (p.createdAt.find? id).isSome
  /-- Tokens were drawn. -/
  drawn : ∀ hash token, p.db.tokens.find? hash = some token → hash ∈ p.drawn
  /-- Tokens last as long as one that is stored now, at most. -/
  expiry : ∀ hash token, p.db.tokens.find? hash = some token →
    token.expiresAt ≤ p.clock + refreshLifetime
  /-- Tokens are revoked with their sessions. -/
  revoked : ∀ hash token row, p.db.tokens.find? hash = some token → token.revokedAt.isSome →
    p.db.sessions.find? token.sessionId = some row → row.revokedAt.isSome
  /-- A token that was exchanged has a successor, unless its session is signed
  out. -/
  successor : ∀ hash token row, p.db.tokens.find? hash = some token → token.rotatedAt.isSome →
    p.db.sessions.find? token.sessionId = some row → row.revokedAt = none →
      ∃ next newer, p.db.tokens.find? next = some newer ∧ newer.sessionId = token.sessionId ∧
        newer.rotatedAt = none ∧ newer.revokedAt = none ∧ token.expiresAt ≤ newer.expiresAt
  /-- Sessions that are remembered were opened. -/
  asked : ∀ id, (p.resolved.find? id).isSome → (p.createdAt.find? id).isSome
  /-- What is remembered is so. -/
  memory : ∀ id looked actor, p.resolved.find? id = some (looked, actor) →
    actor = p.db.describe id

section

variable {p q : State} {refreshLifetime : ℤ}

/-- The query for a session depends on its row and on what does not change. -/
theorem describe_congr {db db' : Db} {sessionId : Uuid}
    (hsession : db.sessions.find? sessionId = db'.sessions.find? sessionId)
    (howners : db.owners = db'.owners) (hstaff : db.staff = db'.staff)
    (hsubscriptions : db.subscriptions = db'.subscriptions) :
    db.describe sessionId = db'.describe sessionId := by
  rw [Db.describe, Db.describe, Db.sessionRow, Db.sessionRow, hsession, howners, hstaff,
    hsubscriptions]

/-- Nobody is behind a session that is not there. -/
theorem describe_eq_none {db : Db} {sessionId : Uuid} (h : db.sessions.find? sessionId = none) :
    db.describe sessionId = none := by
  rw [Db.describe, Db.sessionRow, h]
  rfl

/-- The servers describe sessions that are left alike. -/
theorem Related.describe_eq (h : Related p q) {sessionId : Uuid}
    (hpresent : (q.db.sessions.find? sessionId).isSome) :
    p.db.describe sessionId = q.db.describe sessionId := by
  obtain ⟨row, hrow⟩ := Option.isSome_iff_exists.mp hpresent
  exact describe_congr (by rw [hrow, h.sessions _ _ hrow]) h.owners h.staff h.subscriptions

/-- The server with housekeeping finds nobody that the other does not. -/
theorem Related.describe_less (h : Related p q) {sessionId : Uuid} {actor : SessionActor}
    (hactor : q.db.describe sessionId = some actor) : p.db.describe sessionId = some actor := by
  cases hrow : q.db.sessions.find? sessionId with
  | none =>
    rw [describe_eq_none hrow] at hactor
    contradiction
  | some row => rw [h.describe_eq (by rw [hrow]; rfl), hactor]

/-- What a lookup finds can be trusted. -/
theorem Related.trusted_describe (h : Related p q) {id : Uuid}
    (hcreated : (q.createdAt.find? id).isSome) : Trusted p q id (q.db.describe id) :=
  ⟨hcreated, fun _ => rfl, fun _ hfound _ => h.describe_less hfound⟩

/-- Whom a session that is left is remembered to belong to. -/
theorem Related.trusted_left (h : Related p q) {id : Uuid} {found : SessionActor}
    (htrusted : Trusted p q id (some found)) (hpresent : (q.db.sessions.find? id).isSome) :
    p.db.describe id = some found := by
  rw [h.describe_eq hpresent]
  exact (htrusted.2.1 hpresent).symm

/-- A memory that can be trusted for one reason can be for another. -/
theorem remembers_mono {P Q : Uuid → Option SessionActor → Prop} {resolved : Remembered}
    (h : Remembers P resolved) (hmono : ∀ id actor, P id actor → Q id actor) :
    Remembers Q resolved :=
  fun id looked actor hfind => hmono id actor (h id looked actor hfind)

/-- A token that is left has its session left. -/
theorem Related.sessionOf (h : Related p q) (hp : Sound refreshLifetime p) {hash : String}
    {token : RefreshToken} (htoken : q.db.tokens.find? hash = some token) :
    (q.db.sessions.find? token.sessionId).isSome := by
  have hmine := h.tokens hash token htoken
  obtain ⟨row, hrow⟩ := Option.isSome_iff_exists.mp (hp.sessionOf hash token hmine)
  cases hleft : q.db.sessions.find? token.sessionId with
  | some other => rfl
  | none =>
    have hgone := (h.goneSessions token.sessionId row hrow hleft).2 hash token hmine rfl
    rw [htoken] at hgone
    contradiction

/-- A session with a token that has not expired is left, or signed out. -/
theorem Related.left_of_unexpired (h : Related p q) (hp : Sound refreshLifetime p) {hash : String}
    {token : RefreshToken} (htoken : p.db.tokens.find? hash = some token)
    (hunexpired : p.clock < token.expiresAt) :
    (q.db.sessions.find? token.sessionId).isSome ∨ ∃ row,
      p.db.sessions.find? token.sessionId = some row ∧ row.revokedAt.isSome := by
  obtain ⟨row, hrow⟩ := Option.isSome_iff_exists.mp (hp.sessionOf hash token htoken)
  cases hleft : q.db.sessions.find? token.sessionId with
  | some other => exact Or.inl rfl
  | none =>
    right
    refine ⟨row, hrow, ?_⟩
    have hgone := (h.goneSessions token.sessionId row hrow hleft).2
    obtain hexpired | hrevoked | ⟨rotated, hrotated, -⟩ :=
      h.goneTokens hash token htoken (hgone hash token htoken rfl)
    · exact absurd hexpired hunexpired.not_gt
    · exact hp.revoked hash token row htoken hrevoked hrow
    · by_contra hlive
      have hlive := Option.not_isSome_iff_eq_none.mp hlive
      have hexchanged : token.rotatedAt.isSome := Option.isSome_iff_exists.mpr ⟨rotated, hrotated⟩
      obtain ⟨next, newer, hnewer, hsame, hfresh, hkept, hlonger⟩ :=
        hp.successor hash token row htoken hexchanged hrow hlive
      obtain hexpired | hrevoked | ⟨again, hagain, -⟩ :=
        h.goneTokens next newer hnewer (hgone next newer hnewer hsame)
      · exact absurd (hunexpired.trans_le hlonger) hexpired.not_gt
      · rw [hkept] at hrevoked
        contradiction
      · rw [hfresh] at hagain
        contradiction

/-- A lookup answers what the tables say. -/
theorem Sound.resolve_eq (hp : Sound refreshLifetime p) {db : Db} {sessionId : Uuid}
    (hdb : db.describe sessionId = p.db.describe sessionId) :
    (resolve p.resolved db sessionId p.clock).2 = p.db.describe sessionId := by
  rw [SessionHousekeeping.resolve]
  cases hfound : remembered p.resolved sessionId p.clock with
  | none => exact hdb
  | some actor =>
    obtain ⟨⟨looked, found⟩, hfind, hmatch⟩ := Option.bind_eq_some_iff.mp hfound
    dsimp only at hmatch
    split_ifs at hmatch
    obtain rfl := Option.some.inj hmatch
    exact hp.memory sessionId looked found hfind

/-- A lookup remembers what the tables say. -/
theorem remembers_resolve {P : Uuid → Option SessionActor → Prop} {resolved : Remembered}
    (h : Remembers P resolved) {db : Db} {sessionId : Uuid} {now : Timestamp}
    (hdb : P sessionId (db.describe sessionId)) :
    Remembers P (resolve resolved db sessionId now).1 := by
  rw [SessionHousekeeping.resolve]
  cases remembered resolved sessionId now with
  | some actor => exact h
  | none => exact h.remember hdb now

/-- Only sessions that were opened are remembered. -/
theorem asked_resolve {resolved : Remembered} {createdAt : Table Uuid Timestamp}
    (h : ∀ id, (resolved.find? id).isSome → (createdAt.find? id).isSome) {db : Db}
    {sessionId : Uuid} {now : Timestamp} (hcreated : (createdAt.find? sessionId).isSome) :
    ∀ id, ((resolve resolved db sessionId now).1.find? id).isSome →
      (createdAt.find? id).isSome := by
  have hasked : Remembers (fun id _ => (createdAt.find? id).isSome) resolved :=
    fun id looked actor hfind => h id (by rw [hfind]; rfl)
  intro id hid
  obtain ⟨⟨looked, actor⟩, hfind⟩ := Option.isSome_iff_exists.mp hid
  exact remembers_resolve hasked hcreated id looked actor hfind

/-- Noting that a session was used changes nobody. -/
theorem describe_touchSession (db : Db) (sessionId id : Uuid) (now : Timestamp) :
    (touchSession db sessionId now).describe id = db.describe id := by
  rw [Db.describe, Db.describe, Db.sessionRow, Db.sessionRow, touchSession, Table.find?_mapRows]
  cases db.sessions.find? id with
  | none => rfl
  | some row =>
    rw [Option.map_some, Option.bind_some, Option.bind_some]
    split_ifs <;> rfl

/-- The tokens after an exchange. -/
theorem find?_exchanged {db : Db} {tokenHash fresh hash : String} {sessionId : Uuid}
    {now expiresAt : Timestamp} {actor : SessionActor} :
    (storeRefreshToken (touchSession (markRotated db tokenHash now) sessionId now) actor fresh
        expiresAt).tokens.find? hash =
      if hash = fresh then
        some ⟨actor.actor.ownerId, actor.sessionId, expiresAt, none, none⟩
      else (db.tokens.find? hash).map fun token =>
        if hash = tokenHash ∧ token.rotatedAt = none then
          { token with rotatedAt := some now } else token := by
  rw [storeRefreshToken, Table.find?_put]
  rfl

/-- What an exchange leaves of a token that was there. -/
theorem exchanged_fields {token : RefreshToken} {b : Prop} [Decidable b] {now : Timestamp} :
    (if b then { token with rotatedAt := some now } else token).sessionId = token.sessionId ∧
      (if b then { token with rotatedAt := some now } else token).expiresAt = token.expiresAt ∧
      (if b then { token with rotatedAt := some now } else token).revokedAt = token.revokedAt := by
  split_ifs <;> exact ⟨rfl, rfl, rfl⟩

/-- The sessions after an exchange. -/
theorem find?_touched {db : Db} {sessionId id : Uuid} {now : Timestamp} {row : DeviceSession}
    (h : (touchSession db sessionId now).sessions.find? id = some row) :
    ∃ before, db.sessions.find? id = some before ∧ row.ownerId = before.ownerId ∧
      row.revokedAt = before.revokedAt := by
  rw [touchSession, Table.find?_mapRows, Option.map_eq_some_iff] at h
  obtain ⟨before, hbefore, rfl⟩ := h
  refine ⟨before, hbefore, ?_⟩
  split_ifs <;> exact ⟨rfl, rfl⟩

theorem isSome_touched {db : Db} {sessionId id : Uuid} {now : Timestamp} :
    ((touchSession db sessionId now).sessions.find? id).isSome = (db.sessions.find? id).isSome := by
  rw [touchSession, Table.find?_mapRows, Option.isSome_map]

/-- A session is opened under an id that was not drawn before. -/
theorem Sound.openSession (hp : Sound refreshLifetime p) {id ownerId : Uuid} {staffId : Option Uuid}
    {deviceName : String} (hnew : p.createdAt.find? id = none)
    (howner : (p.db.owners.find? ownerId).isSome) :
    Sound refreshLifetime { p with
      db := openSession p.db id ownerId staffId deviceName p.clock
      createdAt := p.createdAt.put id p.clock } := by
  have hnone : p.db.sessions.find? id = none := by
    cases hrow : p.db.sessions.find? id with
    | none => rfl
    | some row =>
      have hcreated := hp.created id row hrow
      rw [hnew] at hcreated
      contradiction
  have hother : ∀ hash token, p.db.tokens.find? hash = some token → token.sessionId ≠ id := by
    rintro hash token htoken rfl
    have hsession := hp.sessionOf hash token htoken
    rw [hnone] at hsession
    contradiction
  refine ⟨fun hash token htoken => ?_, fun k row hrow => ?_, fun k row hrow => ?_, hp.drawn,
    hp.expiry, fun hash token row htoken hrevoked hrow => ?_,
    fun hash token row htoken hexchanged hrow hlive => ?_, fun k hk => ?_,
    fun k looked actor hfind => ?_⟩
  · rw [SessionServer.openSession, Table.find?_put_ne _ _ (hother hash token htoken)]
    exact hp.sessionOf hash token htoken
  · rw [SessionServer.openSession, Table.find?_put] at hrow
    split_ifs at hrow
    · obtain rfl := Option.some.inj hrow
      exact howner
    · exact hp.ownerOf k row hrow
  · rw [SessionServer.openSession, Table.find?_put] at hrow
    rw [Table.find?_put]
    split_ifs at hrow ⊢
    · rfl
    · exact hp.created k row hrow
  · rw [SessionServer.openSession, Table.find?_put_ne _ _ (hother hash token htoken)] at hrow
    exact hp.revoked hash token row htoken hrevoked hrow
  · rw [SessionServer.openSession, Table.find?_put_ne _ _ (hother hash token htoken)] at hrow
    exact hp.successor hash token row htoken hexchanged hrow hlive
  · rw [Table.find?_put]
    split_ifs
    · rfl
    · exact hp.asked k hk
  · have hk : k ≠ id := by
      rintro rfl
      have hcreated := hp.asked k (by rw [hfind]; rfl)
      rw [hnew] at hcreated
      contradiction
    rw [hp.memory k looked actor hfind]
    exact describe_congr (by rw [SessionServer.openSession, Table.find?_put_ne _ _ hk]) rfl rfl rfl

/-- A token is stored that was not drawn before. -/
theorem Sound.storeRefreshToken (hp : Sound refreshLifetime p) {actor : SessionActor}
    {hash : String} (hnew : hash ∉ p.drawn)
    (hsession : (p.db.sessions.find? actor.sessionId).isSome) :
    Sound refreshLifetime { p with
      db := storeRefreshToken p.db actor hash (p.clock + refreshLifetime)
      drawn := insert hash p.drawn } := by
  have hfind : ∀ k, (SessionServer.storeRefreshToken p.db actor hash
      (p.clock + refreshLifetime)).tokens.find? k =
      if k = hash then
        some ⟨actor.actor.ownerId, actor.sessionId, p.clock + refreshLifetime, none, none⟩
      else p.db.tokens.find? k := fun k => Table.find?_put _ _ _ _
  refine ⟨fun k token htoken => ?_, hp.ownerOf, hp.created, fun k token htoken => ?_,
    fun k token htoken => ?_, fun k token row htoken hrevoked hrow => ?_,
    fun k token row htoken hexchanged hrow hlive => ?_, hp.asked, hp.memory⟩
  · rw [hfind] at htoken
    split_ifs at htoken
    · obtain rfl := Option.some.inj htoken
      exact hsession
    · exact hp.sessionOf k token htoken
  · rw [hfind] at htoken
    split_ifs at htoken with hk
    · exact Finset.mem_insert.mpr (Or.inl hk)
    · exact Finset.mem_insert_of_mem (hp.drawn k token htoken)
  · rw [hfind] at htoken
    split_ifs at htoken
    · obtain rfl := Option.some.inj htoken
      exact le_rfl
    · exact hp.expiry k token htoken
  · rw [hfind] at htoken
    split_ifs at htoken
    · obtain rfl := Option.some.inj htoken
      contradiction
    · exact hp.revoked k token row htoken hrevoked hrow
  · rw [hfind] at htoken
    split_ifs at htoken
    · obtain rfl := Option.some.inj htoken
      contradiction
    · obtain ⟨next, newer, hnewer, hrest⟩ := hp.successor k token row htoken hexchanged hrow hlive
      have hnext : next ≠ hash := by
        rintro rfl
        exact hnew (hp.drawn next newer hnewer)
      exact ⟨next, newer, by rw [hfind, if_neg hnext, hnewer], hrest⟩

/-- A token is exchanged. -/
theorem Sound.exchange (hp : Sound refreshLifetime p) {tokenHash fresh : String}
    {token : RefreshToken} {actor : SessionActor} {resolved : Remembered}
    (htoken : p.db.tokens.find? tokenHash = some token) (hactor : actor.sessionId = token.sessionId)
    (hnew : fresh ∉ p.drawn)
    (hasked : ∀ id, (resolved.find? id).isSome → (p.createdAt.find? id).isSome)
    (hresolved : ∀ id looked actor, resolved.find? id = some (looked, actor) →
      actor = p.db.describe id) :
    Sound refreshLifetime { p with
      db := SessionServer.storeRefreshToken (touchSession (markRotated p.db tokenHash p.clock)
        token.sessionId p.clock) actor fresh (p.clock + refreshLifetime)
      drawn := insert fresh p.drawn
      resolved := resolved } := by
  refine ⟨fun k other hother => ?_, fun id row hrow => ?_, fun id row hrow => ?_,
    fun k other hother => ?_, fun k other hother => ?_, fun k other row hother hrevoked hrow => ?_,
    fun k other row hother hexchanged hrow hlive => ?_, hasked,
    fun id looked found hfind => ?_⟩
  · rw [find?_exchanged] at hother
    refine isSome_touched.trans ?_
    split_ifs at hother
    · obtain rfl := Option.some.inj hother
      rw [hactor]
      exact hp.sessionOf tokenHash token htoken
    · obtain ⟨before, hbefore, rfl⟩ := Option.map_eq_some_iff.mp hother
      rw [exchanged_fields.1]
      exact hp.sessionOf k before hbefore
  · obtain ⟨before, hbefore, howner, -⟩ := find?_touched hrow
    rw [howner]
    exact hp.ownerOf id before hbefore
  · obtain ⟨before, hbefore, -⟩ := find?_touched hrow
    exact hp.created id before hbefore
  · rw [find?_exchanged] at hother
    split_ifs at hother with hk
    · exact Finset.mem_insert.mpr (Or.inl hk)
    · obtain ⟨before, hbefore, -⟩ := Option.map_eq_some_iff.mp hother
      exact Finset.mem_insert_of_mem (hp.drawn k before hbefore)
  · rw [find?_exchanged] at hother
    split_ifs at hother
    · obtain rfl := Option.some.inj hother
      exact le_rfl
    · obtain ⟨before, hbefore, rfl⟩ := Option.map_eq_some_iff.mp hother
      rw [exchanged_fields.2.1]
      exact hp.expiry k before hbefore
  · obtain ⟨old, hold, -, hsame⟩ := find?_touched hrow
    rw [find?_exchanged] at hother
    split_ifs at hother
    · obtain rfl := Option.some.inj hother
      contradiction
    · obtain ⟨before, hbefore, rfl⟩ := Option.map_eq_some_iff.mp hother
      rw [exchanged_fields.2.2] at hrevoked
      rw [exchanged_fields.1] at hold
      rw [hsame]
      exact hp.revoked k before old hbefore hrevoked hold
  · obtain ⟨old, hold, -, hsame⟩ := find?_touched hrow
    rw [hsame] at hlive
    rw [find?_exchanged] at hother
    split_ifs at hother
    · obtain rfl := Option.some.inj hother
      contradiction
    · obtain ⟨before, hbefore, rfl⟩ := Option.map_eq_some_iff.mp hother
      rw [exchanged_fields.1] at hold ⊢
      rw [exchanged_fields.2.1]
      by_cases hmine : before.sessionId = token.sessionId
      · refine ⟨fresh, _, by rw [find?_exchanged, if_pos rfl], ?_, rfl, rfl,
          hp.expiry k before hbefore⟩
        rw [hmine]
        exact hactor
      · have hk : k ≠ tokenHash := by
          rintro rfl
          obtain rfl := Option.some.inj (htoken.symm.trans hbefore)
          exact hmine rfl
        rw [if_neg fun hif => hk hif.1] at hexchanged
        obtain ⟨next, newer, hnewer, hsession, hrest⟩ :=
          hp.successor k before old hbefore hexchanged hold hlive
        have hnext : next ≠ tokenHash := by
          rintro rfl
          obtain rfl := Option.some.inj (htoken.symm.trans hnewer)
          exact hmine hsession.symm
        have hfresh : next ≠ fresh := by
          rintro rfl
          exact hnew (hp.drawn next newer hnewer)
        refine ⟨next, newer, ?_, hsession, hrest⟩
        rw [find?_exchanged, if_neg hfresh, hnewer, Option.map_some, if_neg fun hif => hnext hif.1]
  · rw [hresolved id looked found hfind]
    exact (describe_touchSession (markRotated p.db tokenHash p.clock) token.sessionId id
      p.clock).symm

/-- A session once it is signed out. -/
def endedAt (now : Timestamp) (row : DeviceSession) : DeviceSession :=
  { row with revokedAt := row.revokedAt.or (some now) }

/-- A token once its session is signed out. -/
def revokedWith (now : Timestamp) (token : RefreshToken) : RefreshToken :=
  { token with revokedAt := token.revokedAt.or (some now) }

/-- The sessions after some are signed out. -/
theorem find?_signOut_sessions {db : Db} {ended : Finset Uuid} {now : Timestamp} {id : Uuid} :
    (signOut db ended now).sessions.find? id =
      (db.sessions.find? id).map fun row => if id ∈ ended then endedAt now row else row := rfl

/-- The tokens after some sessions are signed out. -/
theorem find?_signOut_tokens {db : Db} {ended : Finset Uuid} {now : Timestamp} {hash : String} :
    (signOut db ended now).tokens.find? hash =
      (db.tokens.find? hash).map fun token =>
        if token.sessionId ∈ ended then revokedWith now token else token := by
  rw [signOut, writeAll, Table.find?_mapRows]
  cases htoken : db.tokens.find? hash with
  | none => rfl
  | some token =>
    rw [Option.map_some, Option.map_some, Option.some.injEq]
    by_cases hended : token.sessionId ∈ ended
    · cases hrevoked : token.revokedAt with
      | none =>
        have hlive : hash ∈ liveTokens db ended :=
          Table.mem_ids_filter.mpr ⟨token, htoken, decide_eq_true ⟨hended, hrevoked⟩⟩
        rw [if_pos hlive, if_pos hended, revokedWith, hrevoked]
      | some at_ =>
        rw [if_pos hended, revokedWith, hrevoked, Option.some_or]
        split_ifs <;> rw [← hrevoked]
    · have hlive : hash ∉ liveTokens db ended := by
        intro hin
        obtain ⟨other, hother, hin⟩ := Table.mem_ids_filter.mp hin
        obtain rfl := Option.some.inj (htoken.symm.trans hother)
        exact hended (of_decide_eq_true hin).1
      rw [if_neg hlive, if_neg hended]

/-- What signing out leaves of a token. -/
theorem signOut_fields {token : RefreshToken} {b : Prop} [Decidable b] {now : Timestamp} :
    (if b then revokedWith now token else token).sessionId = token.sessionId ∧
      (if b then revokedWith now token else token).expiresAt = token.expiresAt ∧
      (if b then revokedWith now token else token).rotatedAt = token.rotatedAt := by
  split_ifs <;> exact ⟨rfl, rfl, rfl⟩

/-- Signing out leaves who a session belongs to. -/
theorem endedAt_ownerId {row : DeviceSession} {b : Prop} [Decidable b] {now : Timestamp} :
    (if b then endedAt now row else row).ownerId = row.ownerId := by
  split_ifs <;> rfl

/-- What was revoked stays revoked. -/
theorem isSome_revokedAt_or (revokedAt : Option Timestamp) (now : Timestamp) :
    (revokedAt.or (some now)).isSome := by
  cases revokedAt <;> rfl

/-- Sessions are signed out, and the memory cleared. -/
theorem Sound.signOut (hp : Sound refreshLifetime p) (ended : Finset Uuid) :
    Sound refreshLifetime
      { p with db := signOut p.db ended p.clock, resolved := Table.empty } := by
  refine ⟨fun k token htoken => ?_, fun id row hrow => ?_, fun id row hrow => ?_,
    fun k token htoken => ?_, fun k token htoken => ?_, fun k token row htoken hrevoked hrow => ?_,
    fun k token row htoken hexchanged hrow hlive => ?_, fun id hid => ?_,
    fun id looked found hfind => ?_⟩
  · rw [find?_signOut_tokens] at htoken
    obtain ⟨before, hbefore, rfl⟩ := Option.map_eq_some_iff.mp htoken
    rw [signOut_fields.1, find?_signOut_sessions, Option.isSome_map]
    exact hp.sessionOf k before hbefore
  · rw [find?_signOut_sessions] at hrow
    obtain ⟨before, hbefore, rfl⟩ := Option.map_eq_some_iff.mp hrow
    rw [endedAt_ownerId]
    exact hp.ownerOf id before hbefore
  · rw [find?_signOut_sessions] at hrow
    obtain ⟨before, hbefore, -⟩ := Option.map_eq_some_iff.mp hrow
    exact hp.created id before hbefore
  · rw [find?_signOut_tokens] at htoken
    obtain ⟨before, hbefore, -⟩ := Option.map_eq_some_iff.mp htoken
    exact hp.drawn k before hbefore
  · rw [find?_signOut_tokens] at htoken
    obtain ⟨before, hbefore, rfl⟩ := Option.map_eq_some_iff.mp htoken
    rw [signOut_fields.2.1]
    exact hp.expiry k before hbefore
  · rw [find?_signOut_tokens] at htoken
    obtain ⟨before, hbefore, rfl⟩ := Option.map_eq_some_iff.mp htoken
    rw [signOut_fields.1, find?_signOut_sessions] at hrow
    obtain ⟨old, hold, rfl⟩ := Option.map_eq_some_iff.mp hrow
    split_ifs at hrevoked ⊢ with hended
    · exact isSome_revokedAt_or _ p.clock
    · exact hp.revoked k before old hbefore hrevoked hold
  · rw [find?_signOut_tokens] at htoken
    obtain ⟨before, hbefore, rfl⟩ := Option.map_eq_some_iff.mp htoken
    rw [signOut_fields.1, find?_signOut_sessions] at hrow
    obtain ⟨old, hold, rfl⟩ := Option.map_eq_some_iff.mp hrow
    rw [signOut_fields.2.2] at hexchanged
    rw [signOut_fields.1, signOut_fields.2.1]
    split_ifs at hlive with hended
    · have hrevoked := isSome_revokedAt_or old.revokedAt p.clock
      rw [show old.revokedAt.or (some p.clock) = none from hlive] at hrevoked
      contradiction
    · obtain ⟨next, newer, hnewer, hsession, hrest⟩ :=
        hp.successor k before old hbefore hexchanged hold hlive
      refine ⟨next, newer, ?_, hsession, hrest⟩
      rw [find?_signOut_tokens, hnewer, Option.map_some, hsession, if_neg hended]
  · contradiction
  · contradiction

/-- What a refresh accepts. -/
theorem describe_of_acceptable {db : Db} {tokenHash : String} {record : RefreshTokenRecord}
    {now : Timestamp} (hrecord : findRefreshToken db tokenHash = some record)
    (haccepted : Acceptable record now)
    (howner : ∀ id row, db.sessions.find? id = some row → (db.owners.find? row.ownerId).isSome) :
    ∃ actor, db.describe record.sessionId = some actor := by
  obtain ⟨token, htoken, hmap⟩ := Option.bind_eq_some_iff.mp hrecord
  obtain ⟨row, hrow, rfl⟩ := Option.map_eq_some_iff.mp hmap
  obtain ⟨-, -, -, hlive, hstaff⟩ := haccepted
  cases hdescribe : db.describe token.sessionId with
  | some actor => exact ⟨actor, rfl⟩
  | none =>
    obtain ⟨same, hsame, hover⟩ :=
      Db.sessionOver_of_describe hrow (howner _ row hrow) hdescribe
    obtain rfl := Option.some.inj (hrow.symm.trans hsame)
    dsimp only at hlive hstaff
    obtain hrevoked | ⟨staffId, hstaffId, st, hst, hremoved⟩ := hover
    · rw [Option.isNone_iff_eq_none] at hlive
      rw [hlive] at hrevoked
      contradiction
    · rw [hstaffId, Option.bind_some, hst, Option.map_some, Option.getD_some,
        Option.isNone_iff_eq_none] at hstaff
      rw [hstaff] at hremoved
      contradiction

/-- What a refresh does and answers. -/
theorem refresh_cases (refreshLifetime : ℤ) (s : State) (tokenHash fresh : String) :
    (refresh refreshLifetime s tokenHash fresh = (s, .signInAgain) ∧
      ∀ record, findRefreshToken s.db tokenHash = some record → ¬ Acceptable record s.clock) ∨
    ∃ record, findRefreshToken s.db tokenHash = some record ∧ Acceptable record s.clock ∧
      ∀ actor, (resolve s.resolved (touchSession (markRotated s.db tokenHash s.clock)
          record.sessionId s.clock) record.sessionId s.clock).2 = some actor →
        refresh refreshLifetime s tokenHash fresh =
          ({ s with
              db := storeRefreshToken (touchSession (markRotated s.db tokenHash s.clock)
                record.sessionId s.clock) actor fresh (s.clock + refreshLifetime)
              drawn := insert fresh s.drawn
              resolved := (resolve s.resolved (touchSession (markRotated s.db tokenHash s.clock)
                record.sessionId s.clock) record.sessionId s.clock).1 },
            .issued actor fresh) := by
  cases hrecord : findRefreshToken s.db tokenHash with
  | none =>
    left
    exact ⟨by simp only [refresh, hrecord],
      fun record hfound => absurd hfound (Option.some_ne_none _).symm⟩
  | some record =>
    by_cases haccepted : Acceptable record s.clock
    · right
      refine ⟨record, rfl, haccepted, fun actor hactor => ?_⟩
      simp only [refresh, hrecord, if_pos haccepted, hactor]
    · left
      refine ⟨by simp only [refresh, hrecord, if_neg haccepted], fun other hother => ?_⟩
      rwa [← Option.some.inj hother]

/-- What a refresh that is accepted reads. -/
theorem findRefreshToken_eq_some {db : Db} {tokenHash : String} {record : RefreshTokenRecord}
    (h : findRefreshToken db tokenHash = some record) :
    ∃ token row, db.tokens.find? tokenHash = some token ∧
      db.sessions.find? token.sessionId = some row ∧ record.sessionId = token.sessionId ∧
      record.expiresAt = token.expiresAt ∧ record.revokedAt = token.revokedAt ∧
      record.rotatedAt = token.rotatedAt := by
  obtain ⟨token, htoken, hmap⟩ := Option.bind_eq_some_iff.mp h
  obtain ⟨row, hrow, rfl⟩ := Option.map_eq_some_iff.mp hmap
  exact ⟨token, row, htoken, hrow, rfl, rfl, rfl, rfl⟩

/-- The person behind a session does not depend on what an exchange writes
before it looks. -/
theorem describe_exchanged (db : Db) (tokenHash : String) (sessionId id : Uuid) (now : Timestamp) :
    (touchSession (markRotated db tokenHash now) sessionId now).describe id = db.describe id :=
  describe_touchSession (markRotated db tokenHash now) sessionId id now

/-- A refresh without housekeeping. -/
theorem Sound.refresh (hp : Sound refreshLifetime p) {tokenHash fresh : String}
    (hnew : fresh ∉ p.drawn) :
    Sound refreshLifetime (refresh refreshLifetime p tokenHash fresh).1 := by
  obtain ⟨hrefused, -⟩ | ⟨record, hrecord, haccepted, hdone⟩ :=
    refresh_cases refreshLifetime p tokenHash fresh
  · rw [hrefused]
    exact hp
  · obtain ⟨actor, hactor⟩ := describe_of_acceptable hrecord haccepted hp.ownerOf
    obtain ⟨token, row, htoken, hrow, hsession, -⟩ := findRefreshToken_eq_some hrecord
    have hfound := hp.resolve_eq (describe_exchanged p.db tokenHash record.sessionId
      record.sessionId p.clock)
    rw [hdone actor (hfound.trans hactor), hsession]
    have hcreated := hp.created token.sessionId row hrow
    refine hp.exchange htoken ((sessionId_of_describe hactor).trans hsession) hnew
      (asked_resolve hp.asked hcreated) (remembers_resolve hp.memory ?_)
    exact describe_exchanged p.db tokenHash token.sessionId token.sessionId p.clock

/-- What an operation other than housekeeping keeps. -/
theorem Sound.perform (hp : Sound refreshLifetime p) {operation : Operation}
    (hother : operation.isPurge = false) :
    Sound refreshLifetime (perform refreshLifetime p operation).1 := by
  cases operation with
  | openSession id ownerId staffId deviceName =>
    rw [SessionHousekeeping.perform]
    split_ifs with hdrawn
    · exact hp.openSession hdrawn.1 hdrawn.2.1
    · exact hp
  | storeRefreshToken actor tokenHash =>
    rw [SessionHousekeeping.perform]
    split_ifs with hdrawn
    · exact hp.storeRefreshToken hdrawn.1 hdrawn.2.1
    · exact hp
  | refresh tokenHash fresh =>
    rw [SessionHousekeeping.perform]
    split_ifs with hdrawn
    · exact hp
    · exact hp.refresh hdrawn
  | resolve sessionId =>
    rw [SessionHousekeeping.perform]
    split_ifs with hcreated
    · exact ⟨hp.sessionOf, hp.ownerOf, hp.created, hp.drawn, hp.expiry, hp.revoked, hp.successor,
        asked_resolve hp.asked hcreated, remembers_resolve hp.memory rfl⟩
    · exact hp
  | logout tokenHash => exact hp.signOut _
  | revoke ownerId sessionId =>
    simp only [SessionHousekeeping.perform]
    split_ifs
    · exact hp
    · exact hp.signOut _
  | wait ticks =>
    refine ⟨hp.sessionOf, hp.ownerOf, hp.created, hp.drawn, fun hash token htoken => ?_, hp.revoked,
      hp.successor, hp.asked, hp.memory⟩
    have hlater : p.clock ≤ p.clock + ticks := le_add_of_nonneg_right (Int.natCast_nonneg ticks)
    exact (hp.expiry hash token htoken).trans (add_le_add hlater le_rfl)
  | purgeDeadSessions ownerId => contradiction

/-- A session is opened on both servers. -/
theorem Related.openSession (h : Related p q) {id : Uuid} (ownerId : Uuid) (staffId : Option Uuid)
    (deviceName : String) (hnew : p.createdAt.find? id = none) :
    Related
      { p with
        db := openSession p.db id ownerId staffId deviceName p.clock
        createdAt := p.createdAt.put id p.clock }
      { q with
        db := openSession q.db id ownerId staffId deviceName q.clock
        createdAt := q.createdAt.put id q.clock } := by
  refine ⟨h.clock, by rw [h.createdAt, h.clock], h.drawn, h.owners, h.staff, h.subscriptions,
    fun k row hrow => ?_, h.tokens, h.goneTokens, fun k row hrow hgone => ?_,
    remembers_mono h.memory fun k actor htrusted => ?_⟩
  · rw [SessionServer.openSession, Table.find?_put] at hrow ⊢
    split_ifs at hrow ⊢
    · rw [← hrow, h.clock]
    · exact h.sessions k row hrow
  · rw [SessionServer.openSession, Table.find?_put] at hrow hgone
    split_ifs at hrow hgone with hk
    obtain ⟨hcreated, hempty⟩ := h.goneSessions k row hrow hgone
    exact ⟨by rwa [Table.find?_put_ne _ _ hk], hempty⟩
  · obtain ⟨hasked, hexact, hstale⟩ := htrusted
    have hk : k ≠ id := by
      rintro rfl
      rw [← h.createdAt, hnew] at hasked
      contradiction
    have hsame : ∀ {s : State}, (SessionServer.openSession s.db id ownerId staffId deviceName
        s.clock).describe k = s.db.describe k := fun {s} =>
      describe_congr (by rw [SessionServer.openSession, Table.find?_put_ne _ _ hk]) rfl rfl rfl
    refine ⟨by rwa [Table.find?_put_ne _ _ hk], fun hpresent => ?_, fun found hfound hunexpired => ?_⟩
    · rw [SessionServer.openSession, Table.find?_put_ne _ _ hk] at hpresent
      exact (hexact hpresent).trans hsame.symm
    · exact hsame.trans (hstale found hfound hunexpired)

/-- A token is stored on both servers. -/
theorem Related.storeRefreshToken (h : Related p q) (refreshLifetime : ℤ) {actor : SessionActor}
    (hash : String) (hpresent : (q.db.sessions.find? actor.sessionId).isSome) :
    Related
      { p with
        db := storeRefreshToken p.db actor hash (p.clock + refreshLifetime)
        drawn := insert hash p.drawn }
      { q with
        db := storeRefreshToken q.db actor hash (q.clock + refreshLifetime)
        drawn := insert hash q.drawn } := by
  refine ⟨h.clock, h.createdAt, by rw [h.drawn], h.owners, h.staff, h.subscriptions, h.sessions,
    fun k token htoken => ?_, fun k token htoken hgone => ?_, fun id row hrow hgone => ?_,
    remembers_mono h.memory fun id found htrusted => ⟨htrusted.1, htrusted.2.1, ?_⟩⟩
  · rw [SessionServer.storeRefreshToken, Table.find?_put] at htoken ⊢
    split_ifs at htoken ⊢
    · rw [← htoken, h.clock]
    · exact h.tokens k token htoken
  · rw [SessionServer.storeRefreshToken, Table.find?_put] at htoken hgone
    split_ifs at htoken hgone
    exact h.goneTokens k token htoken hgone
  · obtain ⟨hcreated, hempty⟩ := h.goneSessions id row hrow hgone
    refine ⟨hcreated, fun k token htoken hsession => ?_⟩
    rw [SessionServer.storeRefreshToken, Table.find?_put] at htoken ⊢
    split_ifs at htoken ⊢
    · obtain rfl := Option.some.inj htoken
      have hgone : q.db.sessions.find? id = none := hgone
      rw [← hsession] at hgone
      rw [hgone] at hpresent
      contradiction
    · exact hempty k token htoken hsession
  · rintro actor' rfl ⟨k, token, htoken, hsession, hunexpired⟩
    rw [SessionServer.storeRefreshToken, Table.find?_put] at htoken
    split_ifs at htoken
    · obtain rfl := Option.some.inj htoken
      have hsession : actor.sessionId = id := hsession
      rw [hsession] at hpresent
      exact h.trusted_left htrusted hpresent
    · exact htrusted.2.2 actor' rfl ⟨k, token, htoken, hsession, hunexpired⟩

/-- A token is exchanged on both servers. -/
theorem Related.exchange (h : Related p q) {tokenHash fresh : String} {token : RefreshToken}
    {actor : SessionActor} {a b : Remembered} (htoken : q.db.tokens.find? tokenHash = some token)
    (hpresent : (q.db.sessions.find? token.sessionId).isSome)
    (hactor : actor.sessionId = token.sessionId)
    (hmemory : Remembers (Trusted p q) b) :
    Related
      { p with
        db := SessionServer.storeRefreshToken (touchSession (markRotated p.db tokenHash p.clock)
          token.sessionId p.clock) actor fresh (p.clock + refreshLifetime)
        drawn := insert fresh p.drawn
        resolved := a }
      { q with
        db := SessionServer.storeRefreshToken (touchSession (markRotated q.db tokenHash q.clock)
          token.sessionId q.clock) actor fresh (q.clock + refreshLifetime)
        drawn := insert fresh q.drawn
        resolved := b } := by
  refine ⟨h.clock, h.createdAt, by rw [h.drawn], h.owners, h.staff, h.subscriptions,
    fun id row hrow => ?_, fun k other hother => ?_, fun k other hother hgone => ?_,
    fun id row hrow hgone => ?_, remembers_mono hmemory fun id found htrusted => ?_⟩
  · change (touchSession (markRotated q.db tokenHash q.clock) token.sessionId q.clock).sessions.find?
      id = some row at hrow
    change (touchSession (markRotated p.db tokenHash p.clock) token.sessionId p.clock).sessions.find?
      id = some row
    rw [touchSession, Table.find?_mapRows, Option.map_eq_some_iff] at hrow ⊢
    obtain ⟨before, hbefore, rfl⟩ := hrow
    exact ⟨before, h.sessions id before hbefore, by rw [h.clock]⟩
  · rw [find?_exchanged] at hother ⊢
    split_ifs at hother ⊢
    · rw [← hother, h.clock]
    · obtain ⟨before, hbefore, rfl⟩ := Option.map_eq_some_iff.mp hother
      rw [h.tokens k before hbefore, h.clock]
      rfl
  · rw [find?_exchanged] at hother hgone
    split_ifs at hother hgone
    obtain ⟨before, hbefore, rfl⟩ := Option.map_eq_some_iff.mp hother
    rw [Option.map_eq_none_iff] at hgone
    have hk : k ≠ tokenHash := by
      rintro rfl
      rw [htoken] at hgone
      contradiction
    rw [if_neg fun hif => hk hif.1]
    exact h.goneTokens k before hbefore hgone
  · obtain ⟨before, hbefore, -⟩ := find?_touched hrow
    have hleft : q.db.sessions.find? id = none := Option.map_eq_none_iff.mp hgone
    obtain ⟨hcreated, hempty⟩ := h.goneSessions id before hbefore hleft
    refine ⟨hcreated, fun k other hother hsession => ?_⟩
    rw [find?_exchanged] at hother ⊢
    split_ifs at hother ⊢
    · obtain rfl := Option.some.inj hother
      have hsession : actor.sessionId = id := hsession
      rw [← hactor, hsession, hleft] at hpresent
      contradiction
    · obtain ⟨old, hold, rfl⟩ := Option.map_eq_some_iff.mp hother
      rw [exchanged_fields.1] at hsession
      rw [hempty k old hold hsession]
      rfl
  · have htrust := htrusted
    obtain ⟨hasked, hexact, hstale⟩ := htrust
    refine ⟨hasked, fun hpresent => ?_, ?_⟩
    · rw [hexact (isSome_touched.symm.trans hpresent)]
      exact (describe_exchanged q.db tokenHash token.sessionId id q.clock).symm
    · rintro actor' rfl ⟨k, other, hother, hsession, hunexpired⟩
      refine (describe_exchanged p.db tokenHash token.sessionId id p.clock).trans ?_
      rw [find?_exchanged] at hother
      split_ifs at hother
      · obtain rfl := Option.some.inj hother
        have hsession : actor.sessionId = id := hsession
        rw [← hactor, hsession] at hpresent
        exact h.trusted_left htrusted hpresent
      · obtain ⟨before, hbefore, rfl⟩ := Option.map_eq_some_iff.mp hother
        rw [exchanged_fields.1] at hsession
        rw [exchanged_fields.2.1] at hunexpired
        exact hstale actor' rfl ⟨k, before, hbefore, hsession, hunexpired⟩

/-- Sessions are signed out on both servers, the same of those that are left. -/
theorem Related.signOut (h : Related p q) (hp : Sound refreshLifetime p) {mine theirs : Finset Uuid}
    (hsame : ∀ id, (q.db.sessions.find? id).isSome → (id ∈ mine ↔ id ∈ theirs)) {a b : Remembered}
    (hmemory : Remembers (Trusted
      { p with db := signOut p.db mine p.clock, resolved := a }
      { q with db := signOut q.db theirs q.clock, resolved := b }) b) :
    Related { p with db := signOut p.db mine p.clock, resolved := a }
      { q with db := signOut q.db theirs q.clock, resolved := b } := by
  refine ⟨h.clock, h.createdAt, h.drawn, h.owners, ?_, h.subscriptions, fun id row hrow => ?_,
    fun k token htoken => ?_, fun k token htoken hgone => ?_, fun id row hrow hgone => ?_,
    hmemory⟩
  · change p.db.staff.mapRows _ = q.db.staff.mapRows _
    rw [h.staff, h.clock]
  · rw [find?_signOut_sessions] at hrow ⊢
    obtain ⟨before, hbefore, rfl⟩ := Option.map_eq_some_iff.mp hrow
    have hiff := hsame id (by rw [hbefore]; rfl)
    rw [h.sessions id before hbefore, Option.map_some, h.clock]
    simp only [hiff]
  · rw [find?_signOut_tokens] at htoken ⊢
    obtain ⟨before, hbefore, rfl⟩ := Option.map_eq_some_iff.mp htoken
    have hiff := hsame before.sessionId (h.sessionOf hp hbefore)
    rw [h.tokens k before hbefore, Option.map_some, h.clock]
    simp only [hiff]
  · rw [find?_signOut_tokens] at htoken hgone
    obtain ⟨before, hbefore, rfl⟩ := Option.map_eq_some_iff.mp htoken
    rw [Option.map_eq_none_iff] at hgone
    obtain hexpired | hrevoked | hrotated := h.goneTokens k before hbefore hgone
    · exact Or.inl (by rwa [signOut_fields.2.1])
    · refine Or.inr (Or.inl ?_)
      split_ifs
      · exact isSome_revokedAt_or _ _
      · exact hrevoked
    · exact Or.inr (Or.inr (by rwa [signOut_fields.2.2]))
  · rw [find?_signOut_sessions] at hrow hgone
    obtain ⟨before, hbefore, -⟩ := Option.map_eq_some_iff.mp hrow
    rw [Option.map_eq_none_iff] at hgone
    obtain ⟨hcreated, hempty⟩ := h.goneSessions id before hbefore hgone
    refine ⟨hcreated, fun k token htoken hsession => ?_⟩
    rw [find?_signOut_tokens] at htoken ⊢
    obtain ⟨old, hold, rfl⟩ := Option.map_eq_some_iff.mp htoken
    rw [signOut_fields.1] at hsession
    rw [hempty k old hold hsession]
    rfl

/-- A refresh reads the same of a token that is left. -/
theorem Related.findRefreshToken_eq (h : Related p q) (hp : Sound refreshLifetime p)
    {tokenHash : String} {token : RefreshToken}
    (htoken : q.db.tokens.find? tokenHash = some token) :
    findRefreshToken p.db tokenHash = findRefreshToken q.db tokenHash := by
  obtain ⟨row, hrow⟩ := Option.isSome_iff_exists.mp (h.sessionOf hp htoken)
  simp only [findRefreshToken, h.tokens _ _ htoken, htoken, Option.bind_some,
    h.sessions _ _ hrow, hrow, Option.map_some, h.staff]

/-- A token that a refresh accepts is left, with its session. -/
theorem Related.left_of_acceptable (h : Related p q) (hp : Sound refreshLifetime p)
    {tokenHash : String} {record : RefreshTokenRecord}
    (hrecord : findRefreshToken p.db tokenHash = some record)
    (haccepted : Acceptable record p.clock) :
    ∃ token, q.db.tokens.find? tokenHash = some token ∧ record.sessionId = token.sessionId ∧
      (q.db.sessions.find? token.sessionId).isSome := by
  obtain ⟨token, row, htoken, hrow, hsession, hexpires, hrevoked, hrotated⟩ :=
    findRefreshToken_eq_some hrecord
  obtain ⟨hkept, hunexpired, hrecent, -, -⟩ := haccepted
  cases hleft : q.db.tokens.find? tokenHash with
  | some other =>
    obtain rfl := Option.some.inj (htoken.symm.trans (h.tokens _ _ hleft))
    exact ⟨token, rfl, hsession, h.sessionOf hp hleft⟩
  | none =>
    obtain hexpired | hdead | ⟨rotated, hmem, hlong⟩ := h.goneTokens tokenHash token htoken hleft
    · rw [hexpires] at hunexpired
      exact absurd hexpired hunexpired.not_gt
    · rw [← hrevoked, hkept] at hdead
      contradiction
    · rw [hrotated] at hrecent
      exact absurd (hrecent rotated hmem) hlong.not_gt

/-- A lookup of a session that is left answers what the tables say. -/
theorem Related.resolve_left (h : Related p q) {db : Db} {id : Uuid}
    (hpresent : (q.db.sessions.find? id).isSome) (hdb : db.describe id = q.db.describe id) :
    (resolve q.resolved db id q.clock).2 = q.db.describe id := by
  rw [SessionHousekeeping.resolve]
  cases hfound : remembered q.resolved id q.clock with
  | none => exact hdb
  | some actor => exact (h.memory.of_remembered hfound).2.1 hpresent

/-- A lookup of a session with a token that has not expired, on both servers. -/
theorem Related.resolve_unexpired (h : Related p q) (hp : Sound refreshLifetime p) {id : Uuid}
    (hunexpired : Unexpired p id) :
    (resolve p.resolved p.db id p.clock).2 = (resolve q.resolved q.db id q.clock).2 := by
  rw [hp.resolve_eq rfl]
  obtain ⟨hash, token, htoken, hsession, hlasting⟩ := hunexpired
  obtain hpresent | ⟨row, hrow, hrevoked⟩ := h.left_of_unexpired hp htoken hlasting
  · rw [hsession] at hpresent
    rw [h.resolve_left hpresent rfl, h.describe_eq hpresent]
  · rw [hsession] at hrow
    have hnobody := Db.describe_eq_none_of_over ⟨_, hrow, Or.inl hrevoked⟩
    rw [hnobody, SessionHousekeeping.resolve]
    have hless : ∀ found, q.db.describe id = some found → False := fun found hfound => by
      rw [h.describe_less hfound] at hnobody
      contradiction
    cases hfound : remembered q.resolved id q.clock with
    | none => exact (Option.eq_none_iff_forall_not_mem.mpr fun found hin => hless found hin).symm
    | some actor =>
      cases actor with
      | none => rfl
      | some found =>
        have htrusted := h.memory.of_remembered hfound
        rw [htrusted.2.2 found rfl ⟨hash, token, htoken, hsession, hlasting⟩] at hnobody
        contradiction

/-- A refresh on both servers. -/
theorem Related.refresh (h : Related p q) (hp : Sound refreshLifetime p) (tokenHash fresh : String) :
    (refresh refreshLifetime p tokenHash fresh).2 = (refresh refreshLifetime q tokenHash fresh).2 ∧
      Related (refresh refreshLifetime p tokenHash fresh).1
        (refresh refreshLifetime q tokenHash fresh).1 := by
  obtain ⟨hmine, hrefused⟩ | ⟨record, hrecord, haccepted, hdone⟩ :=
    refresh_cases refreshLifetime p tokenHash fresh
  · obtain ⟨htheirs, -⟩ | ⟨other, hother, hgood, -⟩ :=
      refresh_cases refreshLifetime q tokenHash fresh
    · rw [hmine, htheirs]
      exact ⟨rfl, h⟩
    · obtain ⟨token, -, htoken, -⟩ := findRefreshToken_eq_some hother
      rw [← h.clock] at hgood
      exact absurd hgood (hrefused other ((h.findRefreshToken_eq hp htoken).trans hother))
  · obtain ⟨token, htoken, hsession, hpresent⟩ := h.left_of_acceptable hp hrecord haccepted
    have hsame := (h.findRefreshToken_eq hp htoken).symm.trans hrecord
    obtain ⟨-, hrefused⟩ | ⟨other, hother, -, hagain⟩ :=
      refresh_cases refreshLifetime q tokenHash fresh
    · rw [h.clock] at haccepted
      exact absurd haccepted (hrefused record hsame)
    · obtain rfl := Option.some.inj (hsame.symm.trans hother)
      obtain ⟨actor, hactor⟩ := describe_of_acceptable hrecord haccepted hp.ownerOf
      have hfound := (hp.resolve_eq (describe_exchanged p.db tokenHash record.sessionId
        record.sessionId p.clock)).trans hactor
      rw [hsession] at hfound hdone hagain hactor
      have hsame := describe_exchanged q.db tokenHash token.sessionId token.sessionId q.clock
      have htheirs := (h.resolve_left hpresent hsame).trans ((h.describe_eq hpresent).symm.trans hactor)
      rw [hdone actor hfound, hagain actor htheirs]
      refine ⟨rfl, h.exchange htoken hpresent (sessionId_of_describe hactor) ?_⟩
      obtain ⟨row, hrow⟩ := Option.isSome_iff_exists.mp hpresent
      have hcreated := hp.created _ row (h.sessions _ row hrow)
      rw [h.createdAt] at hcreated
      refine remembers_resolve h.memory ?_
      rw [hsame]
      exact h.trusted_describe hcreated

/-- A token that housekeeping clears away is refused. -/
theorem refused_of_dead {now : Timestamp} {token : RefreshToken} (h : Dead now token) :
    Refused now token := by
  have hgrace : ROTATION_GRACE ≤ 7 * DAY := by decide
  obtain hexpired | ⟨revoked, hrevoked, -⟩ | ⟨rotated, hrotated, hlong⟩ := h
  · exact Or.inl hexpired
  · exact Or.inr (Or.inl (Option.isSome_iff_exists.mpr ⟨revoked, hrevoked⟩))
  · refine Or.inr (Or.inr ⟨rotated, hrotated, ?_⟩)
    linarith

/-- Housekeeping on one of the servers. -/
theorem Related.purge (h : Related p q) (ownerId : Uuid) :
    Related p (purgeDeadSessions q ownerId) := by
  have hkept : ∀ hash token, (tokensLeft q ownerId).find? hash = some token →
      q.db.tokens.find? hash = some token :=
    fun hash token htoken => (Table.find?_filter_eq_some.mp htoken).1
  have hstill : ∀ id row, (sessionsLeft q ownerId).find? id = some row →
      q.db.sessions.find? id = some row :=
    fun id row hrow => (Table.find?_filter_eq_some.mp hrow).1
  refine ⟨h.clock, h.createdAt, h.drawn, h.owners, h.staff, h.subscriptions,
    fun id row hrow => h.sessions id row (hstill id row hrow),
    fun hash token htoken => h.tokens hash token (hkept hash token htoken),
    fun hash token htoken hgone => ?_, fun id row hrow hgone => ?_,
    remembers_mono h.memory fun id actor htrusted => ⟨htrusted.1, fun hid => ?_, htrusted.2.2⟩⟩
  · cases hleft : q.db.tokens.find? hash with
    | none => exact h.goneTokens hash token htoken hleft
    | some other =>
      obtain rfl := Option.some.inj (htoken.symm.trans (h.tokens _ _ hleft))
      by_contra hrefused
      have hstays : (tokensLeft q ownerId).find? hash = some token := by
        refine Table.find?_filter_eq_some.mpr ⟨hleft, decide_eq_true fun hdead => ?_⟩
        rw [← h.clock] at hdead
        exact hrefused (refused_of_dead hdead.2)
      rw [show (tokensLeft q ownerId).find? hash = none from hgone] at hstays
      contradiction
  · cases hleft : q.db.sessions.find? id with
    | none =>
      obtain ⟨hcreated, hempty⟩ := h.goneSessions id row hrow hleft
      refine ⟨hcreated, fun hash token htoken hsession => ?_⟩
      change (tokensLeft q ownerId).find? hash = none
      rw [tokensLeft, Table.find?_filter, hempty hash token htoken hsession]
      rfl
    | some other =>
      have hcleared : row.ownerId = ownerId ∧
          (∃ created ∈ q.createdAt.find? id, created < q.clock - DAY) ∧
          ¬ (tokensLeft q ownerId).Any fun _ token => token.sessionId = id := by
        obtain rfl := Option.some.inj (hrow.symm.trans (h.sessions _ _ hleft))
        by_contra hstays
        have hthere : (sessionsLeft q ownerId).find? id = some row :=
          Table.find?_filter_eq_some.mpr ⟨hleft, decide_eq_true hstays⟩
        rw [show (sessionsLeft q ownerId).find? id = none from hgone] at hthere
        contradiction
      obtain ⟨-, ⟨created, hcreated, hold⟩, hnone⟩ := hcleared
      refine ⟨⟨created, by rw [h.createdAt]; exact hcreated, ?_⟩, fun hash token htoken hsession => ?_⟩
      · rw [h.clock]
        linarith
      · change (tokensLeft q ownerId).find? hash = none
        cases hfind : (tokensLeft q ownerId).find? hash with
        | none => rfl
        | some found =>
          obtain rfl := Option.some.inj (htoken.symm.trans (h.tokens _ _ (hkept _ _ hfind)))
          exact absurd ⟨hash, token, hfind, hsession⟩ hnone
  · obtain ⟨row, hrow⟩ := Option.isSome_iff_exists.mp hid
    have hbefore := hstill id row hrow
    rw [htrusted.2.1 (by rw [hbefore]; rfl)]
    exact describe_congr (hbefore.trans hrow.symm) rfl rfl rfl

/-- Sessions are looked up on both servers. -/
theorem Related.look (h : Related p q) {a b : Remembered}
    (hmemory : Remembers (Trusted p q) b) :
    Related { p with resolved := a } { q with resolved := b } :=
  ⟨h.clock, h.createdAt, h.drawn, h.owners, h.staff, h.subscriptions, h.sessions, h.tokens,
    h.goneTokens, h.goneSessions, hmemory⟩

/-- Time passes on both servers. -/
theorem Related.wait (h : Related p q) (ticks : ℕ) :
    Related { p with clock := p.clock + ticks } { q with clock := q.clock + ticks } := by
  have hlater : p.clock ≤ p.clock + ticks := le_add_of_nonneg_right (Int.natCast_nonneg ticks)
  refine ⟨by rw [h.clock], h.createdAt, h.drawn, h.owners, h.staff, h.subscriptions, h.sessions,
    h.tokens, fun hash token htoken hgone => ?_, fun id row hrow hgone => ?_,
    remembers_mono h.memory fun id actor htrusted => ⟨htrusted.1, htrusted.2.1, ?_⟩⟩
  · obtain hexpired | hrevoked | ⟨rotated, hrotated, hlong⟩ := h.goneTokens hash token htoken hgone
    · exact Or.inl (hexpired.trans_le hlater)
    · exact Or.inr (Or.inl hrevoked)
    · exact Or.inr (Or.inr ⟨rotated, hrotated, hlong.trans hlater⟩)
  · obtain ⟨⟨created, hcreated, hold⟩, hempty⟩ := h.goneSessions id row hrow hgone
    exact ⟨⟨created, hcreated, hold.trans_le hlater⟩, hempty⟩
  · rintro found rfl ⟨hash, token, htoken, hsession, hunexpired⟩
    exact htrusted.2.2 found rfl ⟨hash, token, htoken, hsession, hlater.trans_lt hunexpired⟩

/-- An operation that housekeeping cannot disturb: a token is stored within a
day of its session, and nobody signs out with a token that is gone while its
session is signed in. -/
def Safe (p q : State) : Operation → Prop
  | .storeRefreshToken actor _ =>
    ∀ created ∈ p.createdAt.find? actor.sessionId, p.clock ≤ created + DAY
  | .logout tokenHash =>
    ∀ token ∈ p.db.tokens.find? tokenHash, q.db.tokens.find? tokenHash = none →
      ∀ row ∈ q.db.sessions.find? token.sessionId, row.revokedAt.isSome
  | _ => True

/-- Live sessions among some. -/
theorem mem_liveSessions {db : Db} {ids : Finset Uuid} {id : Uuid} :
    id ∈ liveSessions db ids ↔ ∃ row, db.sessions.find? id = some row ∧ id ∈ ids ∧
      row.revokedAt = none := by
  simp only [liveSessions, Table.mem_ids_filter, decide_eq_true_eq]

/-- Signing out with a token ends the same sessions, of those that are left. -/
theorem Related.endedByToken_iff (h : Related p q) {tokenHash : String}
    (hsafe : Safe p q (.logout tokenHash)) {id : Uuid}
    (hpresent : (q.db.sessions.find? id).isSome) :
    id ∈ endedByToken p.db tokenHash ↔ id ∈ endedByToken q.db tokenHash := by
  obtain ⟨row, hrow⟩ := Option.isSome_iff_exists.mp hpresent
  have hmine := h.sessions id row hrow
  cases htheirs : q.db.tokens.find? tokenHash with
  | some token =>
    simp only [endedByToken, h.tokens _ _ htheirs, htheirs, mem_liveSessions, hmine, hrow]
  | none =>
    cases htoken : p.db.tokens.find? tokenHash with
    | none => simp only [endedByToken, htoken, htheirs]
    | some token =>
      simp only [endedByToken, htoken, htheirs, mem_liveSessions, Finset.mem_singleton, hmine,
        Finset.notMem_empty, iff_false, not_exists, Option.some.injEq]
      rintro other ⟨rfl, rfl, hlive⟩
      have hover := hsafe token htoken htheirs row hrow
      rw [hlive] at hover
      contradiction

/-- Signing out nobody. -/
theorem signOut_empty (db : Db) (now : Timestamp) : signOut db ∅ now = db := by
  have hnone : liveTokens db ∅ = ∅ := by
    refine Finset.eq_empty_of_forall_notMem fun hash hin => ?_
    obtain ⟨token, -, hin⟩ := Table.mem_ids_filter.mp hin
    exact absurd (of_decide_eq_true hin).1 (Finset.notMem_empty _)
  simp only [signOut, writeAll, hnone, Finset.notMem_empty, if_false, not_false_iff, decide_true,
    Table.filter_true, Table.mapRows_eq_self fun _ _ _ => rfl]

/-- An owner signs a session out on both servers. -/
theorem Related.revoke (h : Related p q) (hp : Sound refreshLifetime p) (ownerId sessionId : Uuid) :
    Related (perform refreshLifetime p (.revoke ownerId sessionId)).1
      (perform refreshLifetime q (.revoke ownerId sessionId)).1 := by
  cases htheirs : q.db.sessions.find? sessionId with
  | some row =>
    have hsame : endedByOwner p.db ownerId sessionId = endedByOwner q.db ownerId sessionId := by
      simp only [endedByOwner, h.sessions _ _ htheirs, htheirs, h.owners]
    simp only [perform, hsame]
    split_ifs
    · exact h
    · exact h.signOut hp (fun id _ => Iff.rfl) (remembers_empty _)
  | none =>
    have hneither : endedByOwner q.db ownerId sessionId = ∅ := by
      simp only [endedByOwner, htheirs]
    simp only [perform, hneither, if_true]
    split_ifs
    · exact h
    · have hgone : ∀ id ∈ endedByOwner p.db ownerId sessionId, q.db.sessions.find? id = none := by
        intro id hin
        rw [endedByOwner] at hin
        split at hin
        · split_ifs at hin
          · rw [Finset.mem_singleton.mp hin, htheirs]
          · exact absurd hin (Finset.notMem_empty id)
        · exact absurd hin (Finset.notMem_empty id)
      have hsame : ∀ id, (q.db.sessions.find? id).isSome →
          (id ∈ endedByOwner p.db ownerId sessionId ↔ id ∈ (∅ : Finset Uuid)) := by
        intro id hpresent
        refine ⟨fun hin => ?_, fun hin => absurd hin (Finset.notMem_empty id)⟩
        rw [hgone id hin] at hpresent
        contradiction
      have hrelated := h.signOut hp hsame (a := Table.empty) (b := q.resolved)
        (remembers_mono h.memory fun id actor htrusted => ?_)
      · rw [signOut_empty] at hrelated
        exact hrelated
      · rw [signOut_empty]
        refine ⟨htrusted.1, htrusted.2.1, ?_⟩
        rintro found rfl ⟨hash, token, htoken, hsession, hunexpired⟩
        rw [find?_signOut_tokens] at htoken
        obtain ⟨before, hbefore, rfl⟩ := Option.map_eq_some_iff.mp htoken
        rw [signOut_fields.1] at hsession
        rw [signOut_fields.2.1] at hunexpired
        have hfound := htrusted.2.2 found rfl ⟨hash, before, hbefore, hsession, hunexpired⟩
        have hstays : id ∉ endedByOwner p.db ownerId sessionId := by
          intro hin
          obtain hpresent | ⟨row, hrow, hrevoked⟩ := h.left_of_unexpired hp hbefore hunexpired
          · rw [hsession, hgone id hin] at hpresent
            contradiction
          · rw [hsession] at hrow
            rw [Db.describe_eq_none_of_over ⟨_, hrow, Or.inl hrevoked⟩] at hfound
            contradiction
        rw [← hfound]
        refine describe_congr ?_ rfl ?_ rfl
        · rw [find?_signOut_sessions]
          simp only [if_neg hstays]
          exact Option.map_id'
        · exact Table.mapRows_eq_self fun _ _ _ => if_neg (Finset.notMem_empty _)

/-- What an operation other than housekeeping does on both servers. -/
theorem Related.perform (h : Related p q) (hp : Sound refreshLifetime p) {operation : Operation}
    (hother : operation.isPurge = false) (hsafe : Safe p q operation) :
    Related (perform refreshLifetime p operation).1 (perform refreshLifetime q operation).1 := by
  cases operation with
  | openSession id ownerId staffId deviceName =>
    simp only [SessionHousekeeping.perform, ← h.createdAt, ← h.owners, ← h.staff]
    split_ifs with hdrawn
    · have hopened := h.openSession ownerId staffId deviceName hdrawn.1
      rwa [← h.createdAt] at hopened
    · exact h
  | storeRefreshToken actor tokenHash =>
    simp only [SessionHousekeeping.perform, ← h.drawn, ← h.owners]
    cases hleft : q.db.sessions.find? actor.sessionId with
    | some row =>
      have hpresent : (q.db.sessions.find? actor.sessionId).isSome := by rw [hleft]; rfl
      rw [h.sessions _ row hleft]
      split_ifs with hdrawn
      · have hstored := h.storeRefreshToken refreshLifetime tokenHash hpresent
        rwa [← h.drawn] at hstored
      · exact h
    | none =>
      cases hrow : p.db.sessions.find? actor.sessionId with
      | none => simpa using h
      | some row =>
        obtain ⟨⟨created, hcreated, hold⟩, -⟩ := h.goneSessions _ row hrow hleft
        exact absurd (hsafe created hcreated) hold.not_ge
  | refresh tokenHash fresh =>
    simp only [SessionHousekeeping.perform, ← h.drawn]
    split_ifs
    · exact h
    · exact (h.refresh hp tokenHash fresh).2
  | resolve sessionId =>
    by_cases hcreated : (q.createdAt.find? sessionId).isSome
    · have hmine : (p.createdAt.find? sessionId).isSome := by rwa [h.createdAt]
      rw [SessionHousekeeping.perform, SessionHousekeeping.perform, if_pos hmine, if_pos hcreated]
      exact h.look (remembers_resolve h.memory (h.trusted_describe hcreated))
    · have hmine : ¬ (p.createdAt.find? sessionId).isSome := by rwa [h.createdAt]
      rw [SessionHousekeeping.perform, SessionHousekeeping.perform, if_neg hmine, if_neg hcreated]
      exact h
  | logout tokenHash =>
    exact h.signOut hp (fun id hpresent => h.endedByToken_iff hsafe hpresent) (remembers_empty _)
  | revoke ownerId sessionId => exact h.revoke hp ownerId sessionId
  | wait ticks => exact h.wait ticks
  | purgeDeadSessions ownerId => contradiction

/-- What an operation does on a server without housekeeping. -/
def performed (refreshLifetime : ℤ) (p : State) (operation : Operation) : State :=
  if operation.isPurge then p else (perform refreshLifetime p operation).1

/-- No operation of a run is disturbed by housekeeping before it. -/
def SafeRun (refreshLifetime : ℤ) (p q : State) : List Operation → Prop
  | [] => True
  | operation :: rest => Safe p q operation ∧
      SafeRun refreshLifetime (performed refreshLifetime p operation)
        (perform refreshLifetime q operation).1 rest

/-- One operation on both servers. -/
theorem Related.step (h : Related p q) (hp : Sound refreshLifetime p) {operation : Operation}
    (hsafe : Safe p q operation) :
    Sound refreshLifetime (performed refreshLifetime p operation) ∧
      Related (performed refreshLifetime p operation)
        (SessionHousekeeping.perform refreshLifetime q operation).1 := by
  rw [performed]
  cases operation with
  | purgeDeadSessions ownerId => exact ⟨hp, h.purge ownerId⟩
  | _ => exact ⟨hp.perform rfl, h.perform hp rfl hsafe⟩

/-- Operations on both servers. -/
theorem Related.run (h : Related p q) (hp : Sound refreshLifetime p) {operations : List Operation}
    (hsafe : SafeRun refreshLifetime p q operations) :
    Sound refreshLifetime (run refreshLifetime p (undisturbed operations)) ∧
      Related (run refreshLifetime p (undisturbed operations))
        (run refreshLifetime q operations) := by
  induction operations generalizing p q with
  | nil => exact ⟨hp, h⟩
  | cons operation rest ih =>
    obtain ⟨hsound, hrelated⟩ := h.step hp hsafe.1
    have hrest := ih hrelated hsound hsafe.2
    cases hpurge : operation.isPurge with
    | true =>
      simp only [performed, hpurge, if_true] at hrest
      simpa only [undisturbed, List.filter_cons, hpurge, Bool.not_true, Bool.false_eq_true,
        if_false, SessionHousekeeping.run, List.foldl_cons] using hrest
    | false =>
      simp only [performed, hpurge, Bool.false_eq_true, if_false] at hrest
      simpa only [undisturbed, List.filter_cons, hpurge, Bool.not_false, if_true,
        SessionHousekeeping.run, List.foldl_cons] using hrest

end

theorem sound_initial (refreshLifetime : ℤ) (db : Db) (now : Timestamp) :
    Sound refreshLifetime (State.initial db now) where
  sessionOf := fun _ token htoken => absurd htoken (Option.some_ne_none token).symm
  ownerOf := fun _ row hrow => absurd hrow (Option.some_ne_none row).symm
  created := fun _ row hrow => absurd hrow (Option.some_ne_none row).symm
  drawn := fun _ token htoken => absurd htoken (Option.some_ne_none token).symm
  expiry := fun _ token htoken => absurd htoken (Option.some_ne_none token).symm
  revoked := fun _ token _ htoken => absurd htoken (Option.some_ne_none token).symm
  successor := fun _ token _ htoken => absurd htoken (Option.some_ne_none token).symm
  asked := fun _ hid => absurd hid Bool.false_ne_true
  memory := remembers_empty _

theorem related_initial (db : Db) (now : Timestamp) :
    Related (State.initial db now) (State.initial db now) where
  clock := rfl
  createdAt := rfl
  drawn := rfl
  owners := rfl
  staff := rfl
  subscriptions := rfl
  sessions := fun _ _ hrow => hrow
  tokens := fun _ _ htoken => htoken
  goneTokens := fun _ token htoken => absurd htoken (Option.some_ne_none token).symm
  goneSessions := fun _ row hrow => absurd hrow (Option.some_ne_none row).symm
  memory := remembers_empty _

/-- If tokens are stored within a day of their sessions, and nobody signs out
of a session that is signed in with a token that is gone, housekeeping changes
no answer to a refresh, nor who is behind a session with a token that has not
expired; and it leaves every session that can be refreshed. -/
theorem housekeeping_unobservable_if {refreshLifetime : ℤ} {db : Db} {now : Timestamp}
    {operations : List Operation}
    (hsafe : SafeRun refreshLifetime (State.initial db now) (State.initial db now) operations) :
    (∀ tokenHash fresh,
      (perform refreshLifetime (run refreshLifetime (State.initial db now) (undisturbed operations))
          (.refresh tokenHash fresh)).2 =
        (perform refreshLifetime (run refreshLifetime (State.initial db now) operations)
          (.refresh tokenHash fresh)).2) ∧
    (∀ sessionId,
      Unexpired (run refreshLifetime (State.initial db now) (undisturbed operations)) sessionId →
        (perform refreshLifetime
            (run refreshLifetime (State.initial db now) (undisturbed operations))
            (.resolve sessionId)).2 =
          (perform refreshLifetime (run refreshLifetime (State.initial db now) operations)
            (.resolve sessionId)).2) ∧
    ∀ tokenHash record,
      findRefreshToken (run refreshLifetime (State.initial db now) (undisturbed operations)).db
          tokenHash = some record →
        Acceptable record
          (run refreshLifetime (State.initial db now) (undisturbed operations)).clock →
        ((run refreshLifetime (State.initial db now) operations).db.sessions.find?
          record.sessionId).isSome := by
  obtain ⟨hp, h⟩ := (related_initial db now).run (sound_initial refreshLifetime db now) hsafe
  refine ⟨fun tokenHash fresh => ?_, fun sessionId hunexpired => ?_,
    fun tokenHash record hrecord haccepted => ?_⟩
  · rw [perform, perform, h.drawn]
    split_ifs
    · rfl
    · exact (h.refresh hp tokenHash fresh).1
  · rw [perform, perform, h.createdAt]
    split_ifs with hcreated
    · exact congrArg Outcome.described (h.resolve_unexpired hp hunexpired)
    · rfl
  · obtain ⟨token, -, hsession, hpresent⟩ := h.left_of_acceptable hp hrecord haccepted
    rwa [hsession]

instance (p q : State) : (operation : Operation) → Decidable (Safe p q operation)
  | .storeRefreshToken actor _ => inferInstanceAs (Decidable
      (∀ created ∈ p.createdAt.find? actor.sessionId, p.clock ≤ created + DAY))
  | .logout tokenHash => inferInstanceAs (Decidable
      (∀ token ∈ p.db.tokens.find? tokenHash, q.db.tokens.find? tokenHash = none →
        ∀ row ∈ q.db.sessions.find? token.sessionId, row.revokedAt.isSome))
  | .openSession _ _ _ _ => inferInstanceAs (Decidable True)
  | .refresh _ _ => inferInstanceAs (Decidable True)
  | .resolve _ => inferInstanceAs (Decidable True)
  | .revoke _ _ => inferInstanceAs (Decidable True)
  | .wait _ => inferInstanceAs (Decidable True)
  | .purgeDeadSessions _ => inferInstanceAs (Decidable True)

instance decidableSafeRun (refreshLifetime : ℤ) : (p q : State) → (operations : List Operation) →
    Decidable (SafeRun refreshLifetime p q operations)
  | _, _, [] => inferInstanceAs (Decidable True)
  | p, q, operation :: rest =>
    have : Decidable (SafeRun refreshLifetime (performed refreshLifetime p operation)
      (perform refreshLifetime q operation).1 rest) := decidableSafeRun refreshLifetime _ _ rest
    inferInstanceAs (Decidable (Safe p q operation ∧ SafeRun refreshLifetime
      (performed refreshLifetime p operation) (perform refreshLifetime q operation).1 rest))

/-- An owner. -/
def ana : Uuid := ⟨2⟩

/-- Tables with one owner. -/
def oneOwner : Db :=
  ⟨Table.empty.put ana "Ana", Table.empty, Table.empty, Table.empty, Table.empty, Table.empty,
    Table.empty⟩

/-- Ana on her phone. -/
def anasPhone : SessionActor := ⟨⟨ana, "Ana", "phone", none⟩, ⟨4⟩, none, none⟩

/-- Ana signs in and exchanges her token; eight days later there is housekeeping. -/
def eightDays : List Operation :=
  [.openSession ⟨4⟩ ana none "phone", .storeRefreshToken anasPhone "first",
    .refresh "first" "second", .wait 691200000000, .purgeDeadSessions ana]

/-- The token she holds is exchanged as it would be without. -/
theorem housekeeping_unobservable_if_eightDays :
    (perform (30 * DAY) (run (30 * DAY) (State.initial oneOwner 0) (undisturbed eightDays))
        (.refresh "second" "third")).2 =
      (perform (30 * DAY) (run (30 * DAY) (State.initial oneOwner 0) eightDays)
        (.refresh "second" "third")).2 :=
  (housekeeping_unobservable_if (by decide)).1 "second" "third"

/-- Signing out with the first token does nothing once it is cleared away, and
the second one is still exchanged. -/
theorem logout_with_cleared_token :
    (perform (30 * DAY)
        (run (30 * DAY) (State.initial oneOwner 0) (undisturbed (eightDays ++ [.logout "first"])))
        (.refresh "second" "third")).2 = .signInAgain ∧
      (perform (30 * DAY)
        (run (30 * DAY) (State.initial oneOwner 0) (eightDays ++ [.logout "first"]))
        (.refresh "second" "third")).2 = .issued anasPhone "third" := by
  decide

end Kitaza.SessionHousekeeping
