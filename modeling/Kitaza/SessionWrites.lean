import Kitaza.SessionServer

/-!
# What the statements leave as it was

No statement takes a session, a staff member or a token away, brings a signed
out session or a removed staff member back, or forgets that a token was
exchanged. And a revoked token always belongs to a session that is over.
-/

namespace Kitaza.SessionWrites

open KeyedTable Primitives Access BillingPlan SessionDirectory SessionServer

/-- A later state of the database. -/
structure Later (db db' : Db) : Prop where
  /-- Owners stay. -/
  owners : ∀ id, (db.owners.find? id).isSome → (db'.owners.find? id).isSome
  /-- Staff members stay, removed ones removed. -/
  staff : ∀ id st, db.staff.find? id = some st → ∃ st', db'.staff.find? id = some st' ∧
    (st.removedAt.isSome → st'.removedAt.isSome)
  /-- Sessions stay whose they are, signed out ones signed out. -/
  sessions : ∀ id s, db.sessions.find? id = some s → ∃ s', db'.sessions.find? id = some s' ∧
    s'.ownerId = s.ownerId ∧ s'.staffId = s.staffId ∧ (s.revokedAt.isSome → s'.revokedAt.isSome)
  /-- Tokens stay of their sessions, exchanged ones exchanged. -/
  tokens : ∀ hash t, db.tokens.find? hash = some t → ∃ t', db'.tokens.find? hash = some t' ∧
    t'.sessionId = t.sessionId ∧ t'.expiresAt = t.expiresAt ∧
      ∀ rotated, t.rotatedAt = some rotated → t'.rotatedAt = some rotated

theorem Later.refl (db : Db) : Later db db where
  owners := fun _ h => h
  staff := fun _ st h => ⟨st, h, id⟩
  sessions := fun _ s h => ⟨s, h, rfl, rfl, id⟩
  tokens := fun _ t h => ⟨t, h, rfl, rfl, fun _ hr => hr⟩

theorem Later.trans {a b c : Db} (hab : Later a b) (hbc : Later b c) : Later a c where
  owners := fun id h => hbc.owners id (hab.owners id h)
  staff := by
    intro id st h
    obtain ⟨st', h', hr⟩ := hab.staff id st h
    obtain ⟨st'', h'', hr'⟩ := hbc.staff id st' h'
    exact ⟨st'', h'', fun hs => hr' (hr hs)⟩
  sessions := by
    intro id s h
    obtain ⟨s', h', ho, hm, hr⟩ := hab.sessions id s h
    obtain ⟨s'', h'', ho', hm', hr'⟩ := hbc.sessions id s' h'
    exact ⟨s'', h'', ho'.trans ho, hm'.trans hm, fun hs => hr' (hr hs)⟩
  tokens := by
    intro hash t h
    obtain ⟨t', h', hs, he, hr⟩ := hab.tokens hash t h
    obtain ⟨t'', h'', hs', he', hr'⟩ := hbc.tokens hash t' h'
    exact ⟨t'', h'', hs'.trans hs, he'.trans he, fun r hrot => hr' r (hr r hrot)⟩

theorem Later.staffRemoved {db db' : Db} (h : Later db db') {staffId : Uuid}
    (hr : db.StaffRemoved staffId) : db'.StaffRemoved staffId := by
  obtain ⟨st, hst, hremoved⟩ := hr
  obtain ⟨st', hst', hkept⟩ := h.staff staffId st hst
  exact ⟨st', hst', hkept hremoved⟩

/-- What is over stays over. -/
theorem Later.sessionOver {db db' : Db} (h : Later db db') {sessionId : Uuid}
    (ho : db.SessionOver sessionId) : db'.SessionOver sessionId := by
  obtain ⟨s, hs, hover⟩ := ho
  obtain ⟨s', hs', _, hmember, hkept⟩ := h.sessions sessionId s hs
  refine ⟨s', hs', ?_⟩
  rcases hover with hrevoked | ⟨staffId, hstaff, hremoved⟩
  · exact Or.inl (hkept hrevoked)
  · exact Or.inr ⟨staffId, hmember.trans hstaff, h.staffRemoved hremoved⟩

/-- Rows refer to rows there are, and a revoked token's session is over. -/
structure Consistent (db : Db) : Prop where
  /-- A session's owner is there. -/
  owners : ∀ id s, db.sessions.find? id = some s → (db.owners.find? s.ownerId).isSome
  /-- A token's session is there. -/
  sessions : ∀ hash t, db.tokens.find? hash = some t → (db.sessions.find? t.sessionId).isSome
  /-- A revoked token's session is over. -/
  revoked : ∀ hash t, db.tokens.find? hash = some t → t.revokedAt.isSome →
    db.SessionOver t.sessionId

/-- A write that adds no session and no token, and revokes no token of a
session that goes on. -/
theorem Consistent.of_later {db db' : Db} (h : Consistent db) (hlater : Later db db')
    (hsessions : ∀ id s', db'.sessions.find? id = some s' → ∃ s, db.sessions.find? id = some s)
    (htokens : ∀ hash t', db'.tokens.find? hash = some t' → ∃ t, db.tokens.find? hash = some t ∧
      (t'.revokedAt.isSome → t.revokedAt.isSome ∨ db'.SessionOver t.sessionId)) :
    Consistent db' where
  owners := by
    intro id s' hs'
    obtain ⟨s, hs⟩ := hsessions id s' hs'
    obtain ⟨s'', hs'', howner, _⟩ := hlater.sessions id s hs
    rw [hs'] at hs''
    cases hs''
    rw [howner]
    exact hlater.owners _ (h.owners id s hs)
  sessions := by
    intro hash t' ht'
    obtain ⟨t, ht, _⟩ := htokens hash t' ht'
    obtain ⟨t'', ht'', hsession, _⟩ := hlater.tokens hash t ht
    rw [ht'] at ht''
    cases ht''
    obtain ⟨s, hs⟩ := Option.isSome_iff_exists.mp (h.sessions hash t ht)
    obtain ⟨s', hs', _⟩ := hlater.sessions _ s hs
    rw [hsession, hs']
    rfl
  revoked := by
    intro hash t' ht' hrevoked
    obtain ⟨t, ht, hwhy⟩ := htokens hash t' ht'
    obtain ⟨t'', ht'', hsession, _⟩ := hlater.tokens hash t ht
    rw [ht'] at ht''
    cases ht''
    rw [hsession]
    rcases hwhy hrevoked with hbefore | hover
    · exact hlater.sessionOver (h.revoked hash t ht hbefore)
    · exact hover

section Statements

variable {db : Db} {now : Timestamp}

theorem later_markRotated (db : Db) (tokenHash : String) (now : Timestamp) :
    Later db (markRotated db tokenHash now) where
  owners := fun _ h => h
  staff := fun _ st h => ⟨st, h, id⟩
  sessions := fun _ s h => ⟨s, h, rfl, rfl, id⟩
  tokens := by
    intro hash t h
    refine ⟨_, (congrArg (Option.map _) h), ?_⟩
    dsimp only
    split_ifs with hmark
    · refine ⟨rfl, rfl, fun rotated hr => ?_⟩
      rw [hmark.2] at hr
      cases hr
    · exact ⟨rfl, rfl, fun _ hr => hr⟩

theorem consistent_markRotated (h : Consistent db) (tokenHash : String) (now : Timestamp) :
    Consistent (markRotated db tokenHash now) := by
  refine h.of_later (later_markRotated db tokenHash now) (fun _ s hs => ⟨s, hs⟩) ?_
  intro hash t' ht'
  obtain ⟨t, ht, rfl⟩ := Option.map_eq_some_iff.mp ht'
  refine ⟨t, ht, fun hrevoked => Or.inl ?_⟩
  dsimp only at hrevoked
  split_ifs at hrevoked <;> exact hrevoked

theorem later_touchSession (db : Db) (sessionId : Uuid) (now : Timestamp) :
    Later db (touchSession db sessionId now) where
  owners := fun _ h => h
  staff := fun _ st h => ⟨st, h, id⟩
  sessions := by
    intro id s h
    refine ⟨_, (congrArg (Option.map _) h), ?_⟩
    dsimp only
    split_ifs <;> exact ⟨rfl, rfl, fun hr => hr⟩
  tokens := fun _ t h => ⟨t, h, rfl, rfl, fun _ hr => hr⟩

theorem consistent_touchSession (h : Consistent db) (sessionId : Uuid) (now : Timestamp) :
    Consistent (touchSession db sessionId now) := by
  refine h.of_later (later_touchSession db sessionId now) ?_
    fun _ t ht => ⟨t, ht, fun hr => Or.inl hr⟩
  intro id s' hs'
  obtain ⟨s, hs, _⟩ := Option.map_eq_some_iff.mp hs'
  exact ⟨s, hs⟩

theorem later_storeRefreshToken {tokenHash : String} (hfree : db.tokens.find? tokenHash = none)
    (actor : SessionActor) (expiresAt : Timestamp) :
    Later db (storeRefreshToken db actor tokenHash expiresAt) where
  owners := fun _ h => h
  staff := fun _ st h => ⟨st, h, id⟩
  sessions := fun _ s h => ⟨s, h, rfl, rfl, id⟩
  tokens := by
    intro hash t h
    have hne : hash ≠ tokenHash := by
      rintro rfl
      rw [hfree] at h
      cases h
    exact ⟨t, (Table.find?_put_ne _ _ hne).trans h, rfl, rfl, fun _ hr => hr⟩

theorem consistent_storeRefreshToken (h : Consistent db) {tokenHash : String}
    (hfree : db.tokens.find? tokenHash = none) {actor : SessionActor}
    (hsession : (db.sessions.find? actor.sessionId).isSome) (expiresAt : Timestamp) :
    Consistent (storeRefreshToken db actor tokenHash expiresAt) where
  owners := h.owners
  sessions := by
    intro hash t ht
    rw [storeRefreshToken, Table.find?_put] at ht
    split_ifs at ht
    · cases ht
      exact hsession
    · exact h.sessions hash t ht
  revoked := by
    intro hash t ht hrevoked
    rw [storeRefreshToken, Table.find?_put] at ht
    split_ifs at ht
    · cases ht
      cases hrevoked
    · exact (later_storeRefreshToken hfree actor expiresAt).sessionOver
        (h.revoked hash t ht hrevoked)

theorem later_openSession {id : Uuid} (hfree : db.sessions.find? id = none) (ownerId : Uuid)
    (staffId : Option Uuid) (deviceName : String) (now : Timestamp) :
    Later db (openSession db id ownerId staffId deviceName now) where
  owners := fun _ h => h
  staff := fun _ st h => ⟨st, h, fun hr => hr⟩
  sessions := by
    intro other s h
    have hne : other ≠ id := by
      rintro rfl
      rw [hfree] at h
      cases h
    exact ⟨s, (Table.find?_put_ne _ _ hne).trans h, rfl, rfl, fun hr => hr⟩
  tokens := fun _ t h => ⟨t, h, rfl, rfl, fun _ hr => hr⟩

theorem consistent_openSession (h : Consistent db) {id ownerId : Uuid}
    (hfree : db.sessions.find? id = none) (howner : (db.owners.find? ownerId).isSome)
    (staffId : Option Uuid) (deviceName : String) (now : Timestamp) :
    Consistent (openSession db id ownerId staffId deviceName now) where
  owners := by
    intro other s hs
    rw [openSession, Table.find?_put] at hs
    split_ifs at hs
    · cases hs
      exact howner
    · exact h.owners other s hs
  sessions := by
    intro hash t ht
    obtain ⟨s, hs⟩ := Option.isSome_iff_exists.mp (h.sessions hash t ht)
    obtain ⟨s', hs', _⟩ :=
      (later_openSession hfree ownerId staffId deviceName now).sessions _ s hs
    rw [hs']
    rfl
  revoked := fun hash t ht hrevoked =>
    (later_openSession hfree ownerId staffId deviceName now).sessionOver
      (h.revoked hash t ht hrevoked)

theorem later_markRedeemed (db : Db) (codeHash : String) (now : Timestamp) :
    Later db (markRedeemed db codeHash now) where
  owners := fun _ h => h
  staff := fun _ st h => ⟨st, h, id⟩
  sessions := fun _ s h => ⟨s, h, rfl, rfl, id⟩
  tokens := fun _ t h => ⟨t, h, rfl, rfl, fun _ hr => hr⟩

theorem consistent_markRedeemed (h : Consistent db) (codeHash : String) (now : Timestamp) :
    Consistent (markRedeemed db codeHash now) :=
  h.of_later (later_markRedeemed db codeHash now) (fun _ s hs => ⟨s, hs⟩)
    fun _ t ht => ⟨t, ht, fun hr => Or.inl hr⟩

theorem later_updateStaff (db : Db) (storeId staffId : Uuid) (displayName : String)
    (permissions : Permissions) : Later db (updateStaff db storeId staffId displayName permissions) where
  owners := fun _ h => h
  staff := by
    intro id st h
    refine ⟨_, (congrArg (Option.map _) h), ?_⟩
    dsimp only
    split_ifs <;> exact fun hr => hr
  sessions := fun _ s h => ⟨s, h, rfl, rfl, id⟩
  tokens := fun _ t h => ⟨t, h, rfl, rfl, fun _ hr => hr⟩

theorem consistent_updateStaff (h : Consistent db) (storeId staffId : Uuid) (displayName : String)
    (permissions : Permissions) :
    Consistent (updateStaff db storeId staffId displayName permissions) :=
  h.of_later (later_updateStaff db storeId staffId displayName permissions)
    (fun _ s hs => ⟨s, hs⟩) fun _ t ht => ⟨t, ht, fun hr => Or.inl hr⟩

theorem later_subscribe (db : Db) (ownerId : Uuid) (subscription : SubscriptionRecord) :
    Later db (subscribe db ownerId subscription) where
  owners := fun _ h => h
  staff := fun _ st h => ⟨st, h, id⟩
  sessions := fun _ s h => ⟨s, h, rfl, rfl, id⟩
  tokens := fun _ t h => ⟨t, h, rfl, rfl, fun _ hr => hr⟩

theorem consistent_subscribe (h : Consistent db) (ownerId : Uuid)
    (subscription : SubscriptionRecord) : Consistent (subscribe db ownerId subscription) :=
  h.of_later (later_subscribe db ownerId subscription) (fun _ s hs => ⟨s, hs⟩)
    fun _ t ht => ⟨t, ht, fun hr => Or.inl hr⟩

/-- A commit revokes only tokens of sessions it ends. -/
def EndsTokens (db : Db) (w : Writes) : Prop :=
  ∀ hash ∈ w.tokens, ∃ t, db.tokens.find? hash = some t ∧
    (t.sessionId ∈ w.sessions ∨ ∃ s staffId, db.sessions.find? t.sessionId = some s ∧
      s.staffId = some staffId ∧ staffId ∈ w.staff ∧ (db.staff.find? staffId).isSome)

theorem EndsTokens.of_later {db' : Db} {w : Writes} (h : EndsTokens db w) (hlater : Later db db') :
    EndsTokens db' w := by
  intro hash hmem
  obtain ⟨t, ht, hwhy⟩ := h hash hmem
  obtain ⟨t', ht', hsession, _⟩ := hlater.tokens hash t ht
  refine ⟨t', ht', ?_⟩
  rw [hsession]
  rcases hwhy with hends | ⟨s, staffId, hs, hstaff, hremoved, hst⟩
  · exact Or.inl hends
  · obtain ⟨s', hs', _, hsame, _⟩ := hlater.sessions _ s hs
    obtain ⟨st, hst⟩ := Option.isSome_iff_exists.mp hst
    obtain ⟨st', hst', _⟩ := hlater.staff staffId st hst
    exact Or.inr ⟨s', staffId, hs', hsame.trans hstaff, hremoved, by rw [hst']; rfl⟩

theorem later_writeAll (db : Db) (w : Writes) : Later db (writeAll db w) where
  owners := fun _ h => h
  staff := by
    intro id st h
    refine ⟨_, (congrArg (Option.map _) h), fun hr => ?_⟩
    dsimp only
    split_ifs
    · simp
    · exact hr
  sessions := by
    intro id s h
    refine ⟨_, (congrArg (Option.map _) h), ?_⟩
    dsimp only
    split_ifs
    · exact ⟨rfl, rfl, fun _ => by simp⟩
    · exact ⟨rfl, rfl, fun hr => hr⟩
  tokens := by
    intro hash t h
    refine ⟨_, (congrArg (Option.map _) h), ?_⟩
    dsimp only
    split_ifs <;> exact ⟨rfl, rfl, fun _ hr => hr⟩

/-- A session in the list is signed out by the commit. -/
theorem sessionOver_writeAll {w : Writes} {sessionId : Uuid} (hmem : sessionId ∈ w.sessions)
    (hs : (db.sessions.find? sessionId).isSome) : (writeAll db w).SessionOver sessionId := by
  obtain ⟨s, hs⟩ := Option.isSome_iff_exists.mp hs
  refine ⟨_, (congrArg (Option.map _) hs), Or.inl ?_⟩
  dsimp only
  rw [if_pos hmem]
  simp

/-- A staff member in the list is removed by the commit. -/
theorem staffRemoved_writeAll {w : Writes} {staffId : Uuid} (hmem : staffId ∈ w.staff)
    (hst : (db.staff.find? staffId).isSome) : (writeAll db w).StaffRemoved staffId := by
  obtain ⟨st, hst⟩ := Option.isSome_iff_exists.mp hst
  refine ⟨_, (congrArg (Option.map _) hst), ?_⟩
  dsimp only
  rw [if_pos hmem]
  simp

theorem consistent_writeAll (h : Consistent db) {w : Writes} (hw : EndsTokens db w) :
    Consistent (writeAll db w) := by
  refine h.of_later (later_writeAll db w) ?_ ?_
  · intro id s' hs'
    obtain ⟨s, hs, _⟩ := Option.map_eq_some_iff.mp hs'
    exact ⟨s, hs⟩
  · intro hash t' ht'
    obtain ⟨t, ht, rfl⟩ := Option.map_eq_some_iff.mp ht'
    refine ⟨t, ht, fun hrevoked => ?_⟩
    dsimp only at hrevoked
    split_ifs at hrevoked with hmem
    · right
      obtain ⟨t₀, ht₀, hwhy⟩ := hw hash hmem
      obtain rfl : t₀ = t := Option.some.inj (ht₀.symm.trans ht)
      rcases hwhy with hsession | ⟨s, staffId, hs, hstaff, hremoved, hst⟩
      · exact sessionOver_writeAll hsession (h.sessions hash t₀ ht₀)
      · obtain ⟨s', hs', _, hsame, _⟩ := (later_writeAll db w).sessions _ s hs
        exact ⟨s', hs', Or.inr ⟨staffId, hsame.trans hstaff, staffRemoved_writeAll hremoved hst⟩⟩
    · exact Or.inl hrevoked

end Statements

end Kitaza.SessionWrites
