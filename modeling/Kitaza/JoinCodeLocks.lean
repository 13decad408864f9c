import Kitaza.JoinCodes

/-!
# Locks on join codes

What a step of the server can do to join codes, and what the row locks keep: a
code that is locked is unused, one transaction at a time locks it, and a phone
that has used a code up is the only one that opens a session with it.
-/

namespace Kitaza.JoinCodes

open KeyedTable Primitives Access BillingPlan SessionDirectory
open SessionServer (Settings Outcome Writes unusedInvites liveSessions liveTokens sessionsOf writeAll
  ownerOfCode liveInvite markRedeemed openSession storeRefreshToken)

/-- A phase in which nothing is locked, listed or used up. -/
structure Phase.Free (phase : Phase) : Prop where
  /-- No code is deleted. -/
  gone : phase.gone = ∅
  /-- No code is inserted. -/
  inserting : phase.inserting = none
  /-- No codes are being replaced. -/
  replacing : phase.replacing = none
  /-- No code is locked. -/
  locksCode : phase.locksCode = false
  /-- No code is used up. -/
  spent : phase.spent = false

/-- What a step of a call can lead to. -/
inductive Moved (s : State) (i : ℕ) (c : Call) : State → Prop
  /-- Nothing happens to the codes and the sessions. -/
  | quiet {phase : Phase} {db : Db} (hphase : phase.Free) (hinvites : db.invites = s.db.invites)
      (hsessions : db.sessions = s.db.sessions)
      (hstaff : ∀ id st, s.db.staff.find? id = some st → db.staff.find? id = some st) :
      Moved s i c ({ s with db := db }.advance i c phase)
  /-- The unused codes of a staff member are read. -/
  | listed {staffId : Uuid} (codeHash : String) (expiresAt : Timestamp)
      (hphase : c.phase = .issuing staffId) :
      Moved s i c (s.advance i c (.deleting staffId codeHash expiresAt (unusedInvites s.db staffId)))
  /-- They are deleted. -/
  | deleted {staffId : Uuid} {codeHash : String} {expiresAt : Timestamp} {listed : Finset String}
      (hphase : c.phase = .deleting staffId codeHash expiresAt listed)
      (hfree : ∀ hash ∈ listed, ¬CodeHeld hash s) :
      Moved s i c (s.advance i c
        (.deleted staffId codeHash expiresAt (listed ∩ unusedInvites s.db staffId)))
  /-- The codes of a removed staff member are deleted. -/
  | cleared {staffId : Uuid} {w : Writes} {listed : Finset String}
      (hphase : c.phase = .clearing staffId w listed) (hfree : ∀ hash ∈ listed, ¬CodeHeld hash s) :
      Moved s i c (s.advance i c
        (.cleared staffId { w with invites := listed ∩ unusedInvites s.db staffId }))
  /-- A code is inserted. -/
  | inserted {staffId : Uuid} {codeHash : String} {expiresAt : Timestamp} {gone : Finset String}
      (hphase : c.phase = .deleted staffId codeHash expiresAt gone)
      (hnew : s.db.invites.find? codeHash = none ∨ codeHash ∈ gone)
      (hfree : ¬CodeInserted codeHash s) :
      Moved s i c (s.advance i c (.inserted staffId codeHash expiresAt gone))
  /-- A code is locked. -/
  | locked {staffId : Uuid} {began : Timestamp} {codeHash deviceName : String}
      {invite : StaffInvite} (hoperation : c.operation = .join codeHash deviceName)
      (hfree : ¬CodeHeld codeHash s) (hinvite : s.db.invites.find? codeHash = some invite)
      (hstaff : invite.staffId = staffId) (hunused : invite.redeemedAt = none) :
      Moved s i c (s.advance i c (.locked staffId began))
  /-- A code is marked used. -/
  | marked {staffId : Uuid} {began : Timestamp} (hphase : c.phase = .locked staffId began) :
      Moved s i c (s.advance i c (.marked staffId began))
  /-- Whom it is for is read. -/
  | read {ownerId staffId : Uuid} {began : Timestamp} (hphase : c.phase = .marked staffId began) :
      Moved s i c (s.advance i c (.read ownerId staffId began))
  /-- A new code is committed. -/
  | issued {staffId : Uuid} {codeHash : String} {expiresAt : Timestamp} {gone : Finset String}
      (hphase : c.phase = .inserted staffId codeHash expiresAt gone) :
      Moved s i c ({ s with
        db := replaced s.db staffId codeHash expiresAt gone
        issued := (staffId, codeHash) :: s.issued }.advance i c (.returned .done))
  /-- A removal is committed. -/
  | removed {staffId : Uuid} {w : Writes} (hphase : c.phase = .cleared staffId w) :
      Moved s i c ({ s with db := writeAll s.db w }.advance i c (.returned .done))
  /-- The use of a code is committed. -/
  | redeemed {ownerId staffId : Uuid} {began : Timestamp} {codeHash deviceName : String}
      (hoperation : c.operation = .join codeHash deviceName)
      (hphase : c.phase = .read ownerId staffId began) :
      Moved s i c ({ s with db := markRedeemed s.db codeHash began }.advance i c
        (.redeemed ownerId staffId))
  /-- A session is opened. -/
  | opened {ownerId staffId id : Uuid} {now : Timestamp} {codeHash deviceName : String}
      (hoperation : c.operation = .join codeHash deviceName)
      (hphase : c.phase = .redeemed ownerId staffId) (hnew : s.db.sessions.find? id = none) :
      Moved s i c ({ s with
        db := openSession s.db id ownerId (some staffId) deviceName now
        opened := (codeHash, id) :: s.opened }.advance i c (.opened id))

section

variable {settings : Settings} {s s' : State} {i : ℕ} {c : Call} {now : Timestamp} {draw : Draw}

/-- A step to a phase in which nothing is locked, and nothing is written. -/
theorem Moved.still {phase : Phase} (h : phase.Free) : Moved s i c (s.advance i c phase) :=
  Moved.quiet h rfl rfl fun _ _ hst => hst

theorem free_returned (outcome : Outcome) : (Phase.returned outcome).Free := ⟨rfl, rfl, rfl, rfl, rfl⟩

theorem moved_of_firstStep (h : firstStep settings s i c now = some s') : Moved s i c s' := by
  unfold firstStep at h
  cases hop : c.operation with
  | add storeId displayName permissions subscription =>
    simp only [hop] at h
    cases hcheck : checkStaff settings subscription now <;>
      (rw [hcheck] at h; cases h; exact Moved.still ⟨rfl, rfl, rfl, rfl, rfl⟩)
  | reinvite storeId staffId subscription =>
    simp only [hop] at h
    cases hcheck : checkStaff settings subscription now <;>
      (rw [hcheck] at h; cases h; exact Moved.still ⟨rfl, rfl, rfl, rfl, rfl⟩)
  | remove storeId staffId =>
    simp only [hop] at h
    cases hfind : s.db.staff.find? staffId with
    | none =>
      rw [hfind] at h
      cases h
      exact Moved.still (free_returned _)
    | some st =>
      rw [hfind] at h
      dsimp only at h
      split_ifs at h <;> (cases h; exact Moved.still ⟨rfl, rfl, rfl, rfl, rfl⟩)
  | join codeHash deviceName =>
    simp only [hop] at h
    cases howner : ownerOfCode s.db codeHash now <;>
      (rw [howner] at h; cases h; exact Moved.still ⟨rfl, rfl, rfl, rfl, rfl⟩)

/-- A new member is put beside those who are there. -/
theorem moved_of_creating (hphase : c.phase = .creating)
    (h : advance settings s i c now draw = some s') : Moved s i c s' := by
  unfold advance at h
  simp only [hphase] at h
  split at h
  · split_ifs at h with hnew
    · cases h
      refine Moved.quiet ⟨rfl, rfl, rfl, rfl, rfl⟩ rfl rfl fun id st hst => ?_
      have hid : id ≠ draw.id := by
        rintro rfl
        rw [hst] at hnew
        cases hnew.1
      rw [Table.find?_put_ne _ _ hid]
      exact hst
    · cases h
      exact Moved.still (free_returned _)
  · cases h

theorem moved_of_finding (hphase : c.phase = .finding)
    (h : advance settings s i c now draw = some s') : Moved s i c s' := by
  unfold advance at h
  simp only [hphase] at h
  split at h
  · split at h
    · split_ifs at h <;> (cases h; exact Moved.still ⟨rfl, rfl, rfl, rfl, rfl⟩)
    · cases h
      exact Moved.still (free_returned _)
  · cases h

theorem moved_of_deleting {staffId : Uuid} {codeHash : String} {expiresAt : Timestamp}
    {listed : Finset String} (hphase : c.phase = .deleting staffId codeHash expiresAt listed)
    (h : advance settings s i c now draw = some s') : Moved s i c s' := by
  unfold advance at h
  rw [hphase] at h
  dsimp only at h
  split_ifs at h with hheld
  cases h
  exact Moved.deleted hphase fun hash hmem hhash => hheld ⟨hash, hmem, hhash⟩

/-- A code is inserted only where there is none, or the call deleted it. -/
theorem moved_of_deleted {staffId : Uuid} {codeHash : String} {expiresAt : Timestamp}
    {gone : Finset String} (hphase : c.phase = .deleted staffId codeHash expiresAt gone)
    (h : advance settings s i c now draw = some s') : Moved s i c s' := by
  unfold advance at h
  rw [hphase] at h
  dsimp only at h
  split_ifs at h with htaken hheld
  · cases h
    exact Moved.still (free_returned _)
  · cases h
    refine Moved.inserted hphase ?_ hheld
    by_cases hgone : codeHash ∈ gone
    · exact Or.inr hgone
    · left
      by_contra hsome
      exact htaken (Or.inl ⟨Option.isSome_iff_ne_none.mpr hsome, hgone⟩)

/-- A code that is locked is live and nobody holds it. -/
theorem moved_of_matching {staffId : Uuid} {began : Timestamp} (hphase : c.phase = .matching staffId began)
    (h : advance settings s i c now draw = some s') : Moved s i c s' := by
  unfold advance at h
  simp only [hphase] at h
  split at h
  · next codeHash deviceName hop =>
    split_ifs at h with hheld
    split at h
    · next invite hinvite =>
      cases h
      obtain ⟨hfind, hlive⟩ := Option.filter_eq_some_iff.mp hinvite
      have hlive := of_decide_eq_true hlive
      exact Moved.locked hop hheld hfind hlive.1 hlive.2.1
    · cases h
      exact Moved.still (free_returned _)
  · cases h

theorem moved_of_redeemed {ownerId staffId : Uuid} (hphase : c.phase = .redeemed ownerId staffId)
    (h : advance settings s i c now draw = some s') : Moved s i c s' := by
  unfold advance at h
  simp only [hphase] at h
  split at h
  · next codeHash deviceName hop =>
    split_ifs at h with hnew
    · cases h
      exact Moved.opened hop hphase (Option.isNone_iff_eq_none.mp hnew.1)
    · cases h
      exact Moved.still (free_returned _)
  · cases h

theorem moved_of_answering {actor : SessionActor} (hphase : c.phase = .answering actor)
    (h : advance settings s i c now draw = some s') : Moved s i c s' := by
  unfold advance at h
  simp only [hphase] at h
  split_ifs at h
  · cases h
    exact Moved.quiet (free_returned _) rfl rfl fun _ _ hst => hst
  · cases h
    exact Moved.still (free_returned _)

/-- Everything a step of a call can do. -/
theorem moved_of_advance (h : advance settings s i c now draw = some s') : Moved s i c s' := by
  unfold advance at h
  cases hphase : c.phase with
  | begun =>
    rw [hphase] at h
    exact moved_of_firstStep h
  | creating =>
    exact moved_of_creating hphase h
  | finding =>
    exact moved_of_finding hphase h
  | issuing staffId =>
    rw [hphase] at h
    cases h
    exact Moved.listed _ _ hphase
  | deleting staffId codeHash expiresAt listed =>
    exact moved_of_deleting hphase h
  | deleted staffId codeHash expiresAt gone =>
    exact moved_of_deleted hphase h
  | inserted staffId codeHash expiresAt gone =>
    rw [hphase] at h
    cases h
    exact Moved.issued hphase
  | staffMarked staffId w =>
    rw [hphase] at h
    cases h
    exact Moved.still ⟨rfl, rfl, rfl, rfl, rfl⟩
  | sessionsMarked staffId w =>
    rw [hphase] at h
    cases h
    exact Moved.still ⟨rfl, rfl, rfl, rfl, rfl⟩
  | tokensMarked staffId w =>
    rw [hphase] at h
    cases h
    exact Moved.still ⟨rfl, rfl, rfl, rfl, rfl⟩
  | clearing staffId w listed =>
    rw [hphase] at h
    dsimp only at h
    split_ifs at h with hheld
    cases h
    exact Moved.cleared hphase fun hash hmem hhash => hheld ⟨hash, hmem, hhash⟩
  | cleared staffId w =>
    rw [hphase] at h
    cases h
    exact Moved.removed hphase
  | owned ownerId =>
    simp only [hphase] at h
    split at h <;> (cases h; exact Moved.still ⟨rfl, rfl, rfl, rfl, rfl⟩)
  | checked =>
    simp only [hphase] at h
    split at h
    · split at h <;> (cases h; exact Moved.still ⟨rfl, rfl, rfl, rfl, rfl⟩)
    · cases h
  | matching staffId began =>
    exact moved_of_matching hphase h
  | locked staffId began =>
    rw [hphase] at h
    cases h
    exact Moved.marked hphase
  | marked staffId began =>
    simp only [hphase] at h
    split at h
    · cases h
      exact Moved.read hphase
    · cases h
      exact Moved.still (free_returned _)
  | read ownerId staffId began =>
    simp only [hphase] at h
    split at h
    · next codeHash deviceName hop =>
      cases h
      exact Moved.redeemed hop hphase
    · cases h
  | redeemed ownerId staffId =>
    exact moved_of_redeemed hphase h
  | opened sessionId =>
    simp only [hphase] at h
    split at h <;> (cases h; exact Moved.still ⟨rfl, rfl, rfl, rfl, rfl⟩)
  | answering actor =>
    exact moved_of_answering hphase h
  | returned outcome =>
    rw [hphase] at h
    cases h

end

/-- A step is the arrival of a call, the move of one, or its end. -/
theorem step_cases {settings : Settings} {s s' : State} {a : Action}
    (h : step settings s a = some s') :
    (∃ i operation, s.calls.find? i = none ∧
        s' = { s with calls := s.calls.put i ⟨operation, .begun⟩ }) ∨
      (∃ i now draw c, a = .next i now draw ∧ s.calls.find? i = some c ∧ Moved s i c s') ∨
        ∃ i c, s.calls.find? i = some c ∧ s' = s.advance i c (.returned .failed) := by
  cases a with
  | start i operation =>
    left
    cases hfind : s.calls.find? i with
    | some c =>
      simp only [step, hfind] at h
      cases h
    | none =>
      simp only [step, hfind] at h
      cases h
      exact ⟨i, operation, hfind, rfl⟩
  | next i now draw =>
    right
    left
    cases hfind : s.calls.find? i with
    | none =>
      simp only [step, hfind] at h
      cases h
    | some c =>
      simp only [step, hfind] at h
      exact ⟨i, now, draw, c, rfl, hfind, moved_of_advance h⟩
  | fail i =>
    right
    right
    cases hfind : s.calls.find? i with
    | none =>
      simp only [step, hfind] at h
      cases h
    | some c =>
      simp only [step, hfind] at h
      split_ifs at h
      cases h
      exact ⟨i, c, hfind, rfl⟩

/-- The staff member a phone joins as. -/
def Phase.joining : Phase → Option Uuid
  | .locked staffId _ => some staffId
  | .marked staffId _ => some staffId
  | .read _ staffId _ => some staffId
  | .redeemed _ staffId => some staffId
  | _ => none

/-- What a call can hold. -/
inductive Hold where
  /-- A code it has locked. -/
  | lock (codeHash : String)
  /-- A code it has inserted. -/
  | insert (codeHash : String)
  /-- A code it has used up. -/
  | use (codeHash : String)

/-- A call holds something. -/
def Call.Has (c : Call) : Hold → Prop
  | .lock codeHash => c.Holds codeHash
  | .insert codeHash => c.phase.inserting = some codeHash
  | .use codeHash => c.spends = some codeHash

/-- What is so while a call holds something. -/
def Backed (s : State) (c : Call) : Hold → Prop
  | .lock codeHash => ∃ invite, s.db.invites.find? codeHash = some invite ∧
      invite.redeemedAt = none ∧ ∀ staffId ∈ c.phase.joining, staffId = invite.staffId
  | .insert codeHash => s.db.invites.find? codeHash = none ∨ codeHash ∈ c.phase.gone
  | .use codeHash => ∃ invite, s.db.invites.find? codeHash = some invite ∧
      invite.redeemedAt.isSome ∧ c.phase.joining = some invite.staffId ∧
        codeHash ∉ s.opened.map Prod.fst

/-- A code that opened a session is used, and for the session's staff member. -/
def Used (db : Db) (codeHash : String) (id : Uuid) : Prop :=
  ∃ invite row, db.invites.find? codeHash = some invite ∧ invite.redeemedAt.isSome ∧
    db.sessions.find? id = some row ∧ row.staffId = some invite.staffId

/-- The server keeps its codes apart. -/
structure Sound (s : State) : Prop where
  /-- What is held is backed. -/
  backed : ∀ i c hold, s.calls.find? i = some c → c.Has hold → Backed s c hold
  /-- Only one call holds it. -/
  alone : ∀ i j c d hold, s.calls.find? i = some c → s.calls.find? j = some d →
    c.Has hold → d.Has hold → i = j
  /-- Codes that opened a session are used. -/
  used : ∀ codeHash id, (codeHash, id) ∈ s.opened → Used s.db codeHash id
  /-- They opened one session. -/
  once : (s.opened.map Prod.fst).Nodup

theorem sound_initial (db : Db) : Sound (State.initial db) where
  backed i c hold hc := by cases hc
  alone i j c d hold hc := by cases hc
  used codeHash id hmem := by cases hmem
  once := List.nodup_nil

theorem mem_unusedInvites {db : Db} {staffId : Uuid} {codeHash : String} :
    codeHash ∈ unusedInvites db staffId ↔ ∃ invite, db.invites.find? codeHash = some invite ∧
      invite.staffId = staffId ∧ invite.redeemedAt = none := by
  simp only [unusedInvites, Table.mem_ids_filter, decide_eq_true_eq]

theorem not_has {c : Call} {hold : Hold} (hgone : c.phase.gone = ∅)
    (hinserting : c.phase.inserting = none) (hlocks : c.phase.locksCode = false)
    (hspent : c.phase.spent = false) : ¬c.Has hold := by
  intro h
  cases hold with
  | lock codeHash => simp [Call.Has, Call.Holds, Call.redeems, hgone, hlocks] at h
  | insert codeHash => simp [Call.Has, hinserting] at h
  | use codeHash => simp [Call.Has, Call.spends, hspent] at h

/-- A phone that has locked its code holds it. -/
theorem has_lock {c : Call} {codeHash deviceName : String}
    (hoperation : c.operation = .join codeHash deviceName) (hlocks : c.phase.locksCode = true) :
    c.Has (.lock codeHash) := by
  left
  rw [Call.redeems, if_pos hlocks, hoperation]
  rfl

/-- It holds nothing else. -/
theorem eq_of_has_lock {c : Call} {hold : Hold} (hlocks : c.phase.locksCode = true)
    (h : c.Has hold) : ∃ codeHash, hold = .lock codeHash ∧ c.operation.joinCode = some codeHash := by
  obtain ⟨operation, phase⟩ := c
  cases phase <;> cases hlocks <;> cases hold <;>
    simp_all [Call.Has, Call.Holds, Call.redeems, Call.spends, Phase.locksCode, Phase.gone,
      Phase.inserting, Phase.spent]

/-- What a deletion or an insertion holds. -/
theorem has_gone {c : Call} {hold : Hold} (hlocks : c.phase.locksCode = false)
    (hspent : c.phase.spent = false) (h : c.Has hold) :
    (∃ hash ∈ c.phase.gone, hold = .lock hash) ∨
      ∃ hash, c.phase.inserting = some hash ∧ hold = .insert hash := by
  cases hold with
  | lock codeHash =>
    left
    refine ⟨codeHash, ?_, rfl⟩
    simpa [Call.Has, Call.Holds, Call.redeems, hlocks] using h
  | insert codeHash => exact Or.inr ⟨codeHash, h, rfl⟩
  | use codeHash => simp [Call.Has, Call.spends, hspent] at h

theorem backed_congr {s s' : State} (hinvites : s'.db.invites = s.db.invites)
    (hopened : s'.opened = s.opened) {c : Call} {hold : Hold} (h : Backed s c hold) :
    Backed s' c hold := by
  cases hold <;> simpa only [Backed, hinvites, hopened] using h

section

variable {s s' : State} {i : ℕ} {c : Call}

/-- One call goes on, and the others keep what they hold. -/
theorem Sound.put (h : Sound s) {c' : Call} (hcalls : s'.calls = s.calls.put i c')
    (hothers : ∀ j d hold, j ≠ i → s.calls.find? j = some d → d.Has hold → Backed s' d hold)
    (hown : ∀ hold, c'.Has hold → Backed s' c' hold ∧
      ∀ j d, j ≠ i → s.calls.find? j = some d → ¬d.Has hold)
    (hused : ∀ codeHash id, (codeHash, id) ∈ s'.opened → Used s'.db codeHash id)
    (honce : (s'.opened.map Prod.fst).Nodup) : Sound s' where
  backed j d hold hd hhas := by
    rw [hcalls, Table.find?_put] at hd
    split_ifs at hd with hj
    · cases hd
      exact (hown hold hhas).1
    · exact hothers j d hold hj hd hhas
  alone j k d e hold hd he hdhas hehas := by
    rw [hcalls, Table.find?_put] at hd he
    split_ifs at hd he with hj hk hk
    · rw [hj, hk]
    · cases hd
      exact absurd hehas ((hown hold hdhas).2 k e hk he)
    · cases he
      exact absurd hdhas ((hown hold hehas).2 j d hj hd)
    · exact h.alone j k d e hold hd he hdhas hehas
  used := hused
  once := honce

/-- What a call holds, no other call does. -/
theorem Sound.others (h : Sound s) (hc : s.calls.find? i = some c) {hold : Hold}
    (hhas : c.Has hold) (j : ℕ) (d : Call) (hj : j ≠ i) (hd : s.calls.find? j = some d) :
    ¬d.Has hold := fun hdhas => hj (h.alone j i d c hold hd hc hdhas hhas)

/-- Codes that are being deleted are unused. -/
theorem Sound.notMem_gone (h : Sound s) (hc : s.calls.find? i = some c) {hash : String}
    {invite : StaffInvite} (hinvite : s.db.invites.find? hash = some invite)
    (hused : invite.redeemedAt.isSome) : hash ∉ c.phase.gone := by
  intro hmem
  obtain ⟨found, hfound, hunused, -⟩ := h.backed i c (.lock hash) hc (Or.inr hmem)
  rw [hinvite] at hfound
  cases hfound
  rw [hunused] at hused
  cases hused

/-- A code that is used, or locked by another call, stays when codes are
deleted. -/
theorem Sound.stays (h : Sound s) (hc : s.calls.find? i = some c) {hash : String}
    {invite : StaffInvite} (hinvite : s.db.invites.find? hash = some invite)
    (hkept : invite.redeemedAt.isSome ∨
      ∃ j d, j ≠ i ∧ s.calls.find? j = some d ∧ d.Has (.lock hash)) : hash ∉ c.phase.gone := by
  cases hkept with
  | inl hused => exact h.notMem_gone hc hinvite hused
  | inr hlocked =>
    obtain ⟨j, d, hj, hd, hhas⟩ := hlocked
    exact fun hmem => h.others hc (show c.Has (.lock hash) from Or.inr hmem) j d hj hd hhas

/-- The codes change, and those that are used or locked by others stay. -/
theorem Sound.rewrite (h : Sound s) (hc : s.calls.find? i = some c) {c' : Call}
    (hcalls : s'.calls = s.calls.put i c') (hopened : s'.opened = s.opened)
    (hnone : ∀ hold, ¬c'.Has hold)
    (hsessions : ∀ id row, s.db.sessions.find? id = some row →
      ∃ row', s'.db.sessions.find? id = some row' ∧ row'.staffId = row.staffId)
    (hstays : ∀ hash invite, s.db.invites.find? hash = some invite → hash ∉ c.phase.gone →
      c.phase.inserting ≠ some hash → s'.db.invites.find? hash = some invite)
    (habsent : ∀ hash, s.db.invites.find? hash = none → c.phase.inserting ≠ some hash →
      s'.db.invites.find? hash = none) : Sound s' := by
  have hkept : ∀ hash invite, s.db.invites.find? hash = some invite → (invite.redeemedAt.isSome ∨
      ∃ j d, j ≠ i ∧ s.calls.find? j = some d ∧ d.Has (.lock hash)) →
        s'.db.invites.find? hash = some invite := by
    intro hash invite hinvite hwhy
    have hgone := h.stays hc hinvite hwhy
    refine hstays hash invite hinvite hgone fun hins => ?_
    cases h.backed i c (.insert hash) hc hins with
    | inl habs =>
      rw [hinvite] at habs
      cases habs
    | inr hmem => exact hgone hmem
  refine h.put hcalls ?_ (fun hold hhas => absurd hhas (hnone hold)) ?_ (hopened ▸ h.once)
  · intro j d hold hj hd hhas
    have hback := h.backed j d hold hd hhas
    cases hold with
    | lock codeHash =>
      obtain ⟨invite, hinvite, hrest⟩ := hback
      exact ⟨invite, hkept codeHash invite hinvite (Or.inr ⟨j, d, hj, hd, hhas⟩), hrest⟩
    | insert codeHash =>
      refine hback.imp_left fun habs => habsent codeHash habs fun hins => ?_
      exact h.others hc (show c.Has (.insert codeHash) from hins) j d hj hd hhas
    | use codeHash =>
      obtain ⟨invite, hinvite, hused, hjoin, hnot⟩ := hback
      exact ⟨invite, hkept codeHash invite hinvite (Or.inl hused), hused, hjoin, by rwa [hopened]⟩
  · intro codeHash id hmem
    rw [hopened] at hmem
    obtain ⟨invite, row, hinvite, hused, hrow, hstaff⟩ := h.used codeHash id hmem
    obtain ⟨row', hrow', hsame⟩ := hsessions id row hrow
    exact ⟨invite, row', hkept codeHash invite hinvite (Or.inl hused), hused, hrow',
      hsame.trans hstaff⟩

/-- One call goes on, and codes and sessions are as before. -/
theorem Sound.still (h : Sound s) {c' : Call} (hcalls : s'.calls = s.calls.put i c')
    (hinvites : s'.db.invites = s.db.invites) (hsessions : s'.db.sessions = s.db.sessions)
    (hopened : s'.opened = s.opened)
    (hown : ∀ hold, c'.Has hold → Backed s' c' hold ∧
      ∀ j d, j ≠ i → s.calls.find? j = some d → ¬d.Has hold) : Sound s' := by
  refine h.put hcalls ?_ hown ?_ (hopened ▸ h.once)
  · exact fun j d hold _ hd hhas => backed_congr hinvites hopened (h.backed j d hold hd hhas)
  · intro codeHash id hmem
    rw [hopened] at hmem
    have hu := h.used codeHash id hmem
    unfold Used at hu ⊢
    rwa [hinvites, hsessions]

/-- Codes that nobody has locked are deleted. -/
theorem Sound.delete (h : Sound s) {phase : Phase} {staffId : Uuid} {listed : Finset String}
    (hfree : ∀ hash ∈ listed, ¬CodeHeld hash s)
    (hgone : phase.gone = listed ∩ unusedInvites s.db staffId) (hinserting : phase.inserting = none)
    (hlocks : phase.locksCode = false) (hspent : phase.spent = false)
    (hjoining : phase.joining = none) : Sound (s.advance i c phase) := by
  refine h.still rfl rfl rfl rfl fun hold hhas => ?_
  cases has_gone hlocks hspent hhas with
  | inl hdeleted =>
    obtain ⟨hash, hmem, rfl⟩ := hdeleted
    change hash ∈ phase.gone at hmem
    rw [hgone, Finset.mem_inter] at hmem
    obtain ⟨invite, hinvite, -, hunused⟩ := mem_unusedInvites.mp hmem.2
    refine ⟨⟨invite, hinvite, hunused, fun staffId hstaff => ?_⟩, fun j d _ hd hdhas => ?_⟩
    · change staffId ∈ phase.joining at hstaff
      rw [hjoining] at hstaff
      cases hstaff
    · exact Table.not_any.mp (hfree hash hmem.1) j d hd hdhas
  | inr hnew =>
    obtain ⟨hash, hins, -⟩ := hnew
    change phase.inserting = some hash at hins
    rw [hinserting] at hins
    cases hins

/-- A phone keeps the lock on its code. -/
theorem Sound.keep (h : Sound s) (hc : s.calls.find? i = some c) {phase : Phase}
    (hbefore : c.phase.locksCode = true) (hafter : phase.locksCode = true)
    (hjoining : phase.joining = c.phase.joining) : Sound (s.advance i c phase) := by
  refine h.still rfl rfl rfl rfl fun hold hhas => ?_
  obtain ⟨codeHash, rfl, hcode⟩ := eq_of_has_lock hafter hhas
  have hhas' : c.Has (.lock codeHash) := by
    left
    rw [Call.redeems, if_pos hbefore]
    exact hcode
  obtain ⟨invite, hinvite, hunused, hstaff⟩ := h.backed i c _ hc hhas'
  refine ⟨⟨invite, hinvite, hunused, fun staffId hmem => hstaff staffId ?_⟩, h.others hc hhas'⟩
  change staffId ∈ phase.joining at hmem
  rwa [hjoining] at hmem

/-- A phone that has used up its code holds that. -/
theorem has_use {codeHash deviceName : String} (hoperation : c.operation = .join codeHash deviceName)
    (hspent : c.phase.spent = true) : c.Has (.use codeHash) := by
  change c.spends = some codeHash
  rw [Call.spends, if_pos hspent, hoperation]
  rfl

theorem find?_markRedeemed {db : Db} (codeHash : String) (began : Timestamp) {hash : String}
    {invite : StaffInvite} (hinvite : db.invites.find? hash = some invite) :
    ∃ invite', (markRedeemed db codeHash began).invites.find? hash = some invite' ∧
      invite'.staffId = invite.staffId ∧ (hash ≠ codeHash → invite' = invite) ∧
      (hash = codeHash ∨ invite.redeemedAt.isSome → invite'.redeemedAt.isSome) := by
  change ∃ invite', (db.invites.mapRows _).find? hash = some invite' ∧ _
  rw [Table.find?_mapRows, hinvite, Option.map_some]
  by_cases hhash : hash = codeHash
  · exact ⟨_, rfl, by simp [hhash]⟩
  · exact ⟨_, rfl, by simp [hhash]⟩

/-- The use of a code is committed. -/
theorem Sound.redeem (h : Sound s) (hc : s.calls.find? i = some c) {ownerId staffId : Uuid}
    {began : Timestamp} {codeHash deviceName : String}
    (hoperation : c.operation = .join codeHash deviceName)
    (hphase : c.phase = .read ownerId staffId began) :
    Sound ({ s with db := markRedeemed s.db codeHash began }.advance i c
      (.redeemed ownerId staffId)) := by
  have hlock : c.Has (.lock codeHash) := has_lock hoperation (by rw [hphase]; rfl)
  obtain ⟨invite, hinvite, hunused, hstaff⟩ := h.backed i c _ hc hlock
  -- No code that is used is the one that is locked.
  have hfresh : ∀ found, s.db.invites.find? codeHash = some found → ¬found.redeemedAt.isSome := by
    intro found hfound
    rw [hinvite] at hfound
    cases hfound
    simp [hunused]
  refine h.put rfl ?_ ?_ ?_ h.once
  · intro j d hold hj hd hhas
    have hback := h.backed j d hold hd hhas
    cases hold with
    | lock hash =>
      obtain ⟨found, hfound, hrest⟩ := hback
      have hne : hash ≠ codeHash := by
        rintro rfl
        exact h.others hc hlock j d hj hd hhas
      obtain ⟨found', hfound', -, hsame, -⟩ :=
        find?_markRedeemed codeHash began hfound
      obtain rfl := hsame hne
      exact ⟨_, hfound', hrest⟩
    | insert hash =>
      refine hback.imp_left fun habs => ?_
      change (s.db.invites.mapRows _).find? hash = none
      rw [Table.find?_mapRows, habs]
      rfl
    | use hash =>
      obtain ⟨found, hfound, hused, hjoin, hnot⟩ := hback
      obtain ⟨found', hfound', hsame, -, hstill⟩ :=
        find?_markRedeemed codeHash began hfound
      exact ⟨found', hfound', hstill (Or.inr hused), hjoin.trans (congrArg some hsame.symm), hnot⟩
  · intro hold hhas
    cases hold with
    | lock hash => simp [Call.Has, Call.Holds, Call.redeems, Phase.locksCode, Phase.gone] at hhas
    | insert hash => simp [Call.Has, Phase.inserting] at hhas
    | use hash =>
      obtain rfl : codeHash = hash := by
        have hcode : c.operation.joinCode = some hash := hhas
        rw [hoperation] at hcode
        cases hcode
        rfl
      obtain ⟨found', hfound', hsame, -, hstill⟩ :=
        find?_markRedeemed codeHash began hinvite
      refine ⟨⟨found', hfound', hstill (Or.inl rfl), ?_, fun hmem => ?_⟩, fun j d _ hd hdhas => ?_⟩
      · rw [hsame, ← hstaff staffId (by rw [hphase]; rfl)]
        rfl
      · obtain ⟨⟨_, id⟩, hentry, rfl⟩ := List.mem_map.mp hmem
        obtain ⟨found, -, hfound, hused, -⟩ := h.used _ id hentry
        exact hfresh found hfound hused
      · obtain ⟨found, hfound, hused, -⟩ := h.backed j d _ hd hdhas
        exact hfresh found hfound hused
  · intro hash id hmem
    obtain ⟨found, row, hfound, hused, hrow, hsame⟩ := h.used hash id hmem
    obtain ⟨found', hfound', hstaff', -, hstill⟩ :=
      find?_markRedeemed codeHash began hfound
    exact ⟨found', row, hfound', hstill (Or.inr hused), hrow, by rw [hsame, hstaff']⟩

/-- A session is opened with a code that was used up. -/
theorem Sound.enter (h : Sound s) (hc : s.calls.find? i = some c) {ownerId staffId id : Uuid}
    {now : Timestamp} {codeHash deviceName : String}
    (hoperation : c.operation = .join codeHash deviceName)
    (hphase : c.phase = .redeemed ownerId staffId) (hnew : s.db.sessions.find? id = none) :
    Sound ({ s with
      db := openSession s.db id ownerId (some staffId) deviceName now
      opened := (codeHash, id) :: s.opened }.advance i c (.opened id)) := by
  have huse : c.Has (.use codeHash) := has_use hoperation (by rw [hphase]; rfl)
  obtain ⟨invite, hinvite, hused, hjoin, hnot⟩ := h.backed i c _ hc huse
  refine h.put rfl ?_ (fun hold hhas => absurd hhas (not_has rfl rfl rfl rfl)) ?_ ?_
  · intro j d hold hj hd hhas
    have hback := h.backed j d hold hd hhas
    cases hold with
    | lock hash => exact hback
    | insert hash => exact hback
    | use hash =>
      obtain ⟨found, hfound, hfoundUsed, hfoundJoin, hfoundNot⟩ := hback
      refine ⟨found, hfound, hfoundUsed, hfoundJoin, fun hmem => ?_⟩
      cases List.mem_cons.mp hmem with
      | inl he =>
        obtain rfl : hash = codeHash := he
        exact h.others hc huse j d hj hd hhas
      | inr hold => exact hfoundNot hold
  · intro hash other hmem
    cases List.mem_cons.mp hmem with
    | inl he =>
      cases he
      refine ⟨invite, _, hinvite, hused, Table.find?_put_self _ _ _, ?_⟩
      rw [hphase] at hjoin
      exact hjoin
    | inr hentry =>
      obtain ⟨found, row, hfound, hfoundUsed, hrow, hsame⟩ := h.used hash other hentry
      have hne : other ≠ id := by
        rintro rfl
        rw [hnew] at hrow
        cases hrow
      exact ⟨found, row, hfound, hfoundUsed, (Table.find?_put_ne _ _ hne).trans hrow, hsame⟩
  · exact List.nodup_cons.mpr ⟨hnot, h.once⟩

/-- The move of a call keeps the codes apart. -/
theorem Sound.moved (h : Sound s) (hc : s.calls.find? i = some c) (hmoved : Moved s i c s') :
    Sound s' := by
  cases hmoved with
  | quiet hphase hinvites hsessions hstaff =>
    exact h.still rfl hinvites hsessions rfl fun hold hhas =>
      absurd hhas (not_has hphase.gone hphase.inserting hphase.locksCode hphase.spent)
  | listed codeHash expiresAt hphase =>
    exact h.still rfl rfl rfl rfl fun hold hhas => absurd hhas (not_has rfl rfl rfl rfl)
  | deleted hphase hfree => exact h.delete hfree rfl rfl rfl rfl rfl
  | cleared hphase hfree => exact h.delete hfree rfl rfl rfl rfl rfl
  | @inserted staffId codeHash expiresAt gone hphase hnew hfree =>
    refine h.still rfl rfl rfl rfl fun hold hhas => ?_
    cases has_gone rfl rfl hhas with
    | inl hdeleted =>
      obtain ⟨hash, hmem, rfl⟩ := hdeleted
      have hbefore : c.Has (.lock hash) := by
        right
        rw [hphase]
        exact hmem
      obtain ⟨invite, hinvite, hunused, -⟩ := h.backed i c _ hc hbefore
      exact ⟨⟨invite, hinvite, hunused, fun _ hstaff => by cases hstaff⟩, h.others hc hbefore⟩
    | inr hins =>
      obtain ⟨hash, hhash, rfl⟩ := hins
      cases hhash
      exact ⟨hnew, fun j d _ hd => Table.not_any.mp hfree j d hd⟩
  | @locked staffId began codeHash deviceName invite hoperation hfree hinvite hstaff hunused =>
    refine h.still rfl rfl rfl rfl fun hold hhas => ?_
    obtain ⟨hash, rfl, hcode⟩ := eq_of_has_lock rfl hhas
    obtain rfl : codeHash = hash := by
      have hcode' : c.operation.joinCode = some hash := hcode
      rw [hoperation] at hcode'
      cases hcode'
      rfl
    refine ⟨⟨invite, hinvite, hunused, ?_⟩, fun j d _ hd => Table.not_any.mp hfree j d hd⟩
    rintro _ ⟨⟩
    exact hstaff.symm
  | marked hphase => exact h.keep hc (by rw [hphase]; rfl) rfl (by rw [hphase]; rfl)
  | read hphase => exact h.keep hc (by rw [hphase]; rfl) rfl (by rw [hphase]; rfl)
  | @issued staffId codeHash expiresAt gone hphase =>
    refine h.rewrite hc rfl rfl (fun hold => not_has rfl rfl rfl rfl)
      (fun id row hrow => ⟨row, hrow, rfl⟩) ?_ ?_
    · intro hash invite hinvite hgone hins
      rw [hphase] at hgone hins
      have hne : hash ≠ codeHash := fun he => hins (congrArg some he.symm)
      change ((s.db.invites.filter fun hash _ => hash ∉ gone).put codeHash _).find? hash = _
      rw [Table.find?_put_ne _ _ hne, Table.find?_filter_eq_some]
      exact ⟨hinvite, decide_eq_true hgone⟩
    · intro hash habs hins
      rw [hphase] at hins
      have hne : hash ≠ codeHash := fun he => hins (congrArg some he.symm)
      change ((s.db.invites.filter fun hash _ => hash ∉ gone).put codeHash _).find? hash = _
      rw [Table.find?_put_ne _ _ hne, Table.find?_filter, habs]
      rfl
  | @removed staffId w hphase =>
    refine h.rewrite hc rfl rfl (fun hold => not_has rfl rfl rfl rfl) ?_ ?_ ?_
    · intro id row hrow
      change ∃ row', (s.db.sessions.mapRows _).find? id = some row' ∧ _
      rw [Table.find?_mapRows, hrow, Option.map_some]
      refine ⟨_, rfl, ?_⟩
      split_ifs <;> rfl
    · intro hash invite hinvite hgone _
      rw [hphase] at hgone
      exact Table.find?_filter_eq_some.mpr ⟨hinvite, decide_eq_true hgone⟩
    · intro hash habs _
      change (s.db.invites.filter _).find? hash = none
      rw [Table.find?_filter, habs]
      rfl
  | @redeemed ownerId staffId began codeHash deviceName hoperation hphase =>
    exact h.redeem hc hoperation hphase
  | @opened ownerId staffId id now codeHash deviceName hoperation hphase hnew =>
    exact h.enter hc hoperation hphase hnew

theorem Sound.step {settings : Settings} {a : Action} (h : Sound s)
    (hstep : step settings s a = some s') : Sound s' := by
  rcases step_cases hstep with ⟨i, operation, hnew, rfl⟩ | ⟨i, now, draw, c, -, hc, hmoved⟩ |
    ⟨i, c, hc, rfl⟩
  · exact h.still rfl rfl rfl rfl fun hold hhas => absurd hhas (not_has rfl rfl rfl rfl)
  · exact h.moved hc hmoved
  · exact h.moved hc (Moved.still (free_returned _))

theorem Sound.run {settings : Settings} {actions : List Action} (h : Sound s)
    (hrun : run settings s actions = some s') : Sound s' := by
  induction actions generalizing s with
  | nil =>
    cases hrun
    exact h
  | cons a rest ih =>
    obtain ⟨mid, hstep, hrest⟩ := Option.bind_eq_some_iff.mp hrun
    exact ih (h.step hstep) hrest

end

end Kitaza.JoinCodes
