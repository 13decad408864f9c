import Kitaza.JoinCodeLocks
import Kitaza.SessionSafety

/-!
# What a join code lets in

A code opens one session at most. A staff member who was removed stays
removed, and nobody is behind their sessions. That the code issued last is the
only unused one needs more than the locks: the codes of a staff member have to
be replaced one at a time.
-/

namespace Kitaza.JoinCodes

open KeyedTable Primitives Access BillingPlan SessionDirectory
open SessionServer (Settings unusedInvites liveInvite findRefreshToken Acceptable)

section

variable {settings : Settings} {s s' : State} {i : ℕ} {c : Call} {staffId : Uuid}

theorem Moved.staffRemoved (h : Moved s i c s') (hremoved : s.db.StaffRemoved staffId) :
    s'.db.StaffRemoved staffId := by
  cases h with
  | quiet hphase hinvites hsessions hstaff =>
    obtain ⟨st, hst, hsome⟩ := hremoved
    exact ⟨st, hstaff _ _ hst, hsome⟩
  | listed => exact hremoved
  | deleted => exact hremoved
  | cleared => exact hremoved
  | inserted => exact hremoved
  | locked => exact hremoved
  | marked => exact hremoved
  | read => exact hremoved
  | issued => exact hremoved
  | removed => exact (SessionWrites.later_writeAll _ _).staffRemoved hremoved
  | redeemed => exact hremoved
  | opened => exact hremoved

/-- Who was removed stays removed. -/
theorem staffRemoved_run {actions : List Action} (hremoved : s.db.StaffRemoved staffId)
    (hrun : run settings s actions = some s') : s'.db.StaffRemoved staffId := by
  induction actions generalizing s with
  | nil =>
    cases hrun
    exact hremoved
  | cons a rest ih =>
    obtain ⟨mid, hstep, hrest⟩ := Option.bind_eq_some_iff.mp hrun
    refine ih ?_ hrest
    rcases step_cases hstep with ⟨i, operation, -, rfl⟩ | ⟨i, now, draw, c, -, -, hmoved⟩ |
      ⟨i, c, -, rfl⟩
    · exact hremoved
    · exact hmoved.staffRemoved hremoved
    · exact hremoved

/-- Nobody is behind a session, and no token of it is accepted. -/
def Unusable (db : Db) (sessionId : Uuid) : Prop :=
  db.describe sessionId = none ∧ ∀ tokenHash record now,
    findRefreshToken db tokenHash = some record → record.sessionId = sessionId →
      ¬Acceptable record now

theorem unusable_of_over {db : Db} {sessionId : Uuid} (h : db.SessionOver sessionId) :
    Unusable db sessionId := by
  refine ⟨Db.describe_eq_none_of_over h, fun tokenHash record now hrecord hsession haccept => ?_⟩
  obtain ⟨t, -, hfound⟩ := Option.bind_eq_some_iff.mp hrecord
  obtain ⟨row, hrow, rfl⟩ := Option.map_eq_some_iff.mp hfound
  obtain rfl : t.sessionId = sessionId := hsession
  exact SessionSafety.not_live_of_over hrow h haccept.2.2.2

/-- A session that a code of a removed staff member opened is of no use. -/
theorem Sound.unusable (h : Sound s) (hremoved : s.db.StaffRemoved staffId) {codeHash : String}
    {id : Uuid} {invite : StaffInvite} (hopened : (codeHash, id) ∈ s.opened)
    (hinvite : s.db.invites.find? codeHash = some invite) (hstaff : invite.staffId = staffId) :
    Unusable s.db id := by
  obtain ⟨found, row, hfound, -, hrow, hmember⟩ := h.used codeHash id hopened
  rw [hinvite] at hfound
  cases hfound
  exact unusable_of_over ⟨row, hrow, Or.inr ⟨staffId, hmember.trans (congrArg some hstaff), hremoved⟩⟩

end

/-- The staff member whose unused codes are read next. -/
def Phase.issuingFor : Phase → Option Uuid
  | .issuing staffId => some staffId
  | _ => none

/-- Another call is replacing the codes of a staff member. -/
def Replacing (i : ℕ) (staffId : Uuid) (s : State) : Prop :=
  s.calls.Any fun j c => j ≠ i ∧ c.phase.replacing.map Prod.fst = some staffId

/-- A call that reads the unused codes of a staff member is the only one that
replaces them. -/
def Safe (s : State) : Action → Prop
  | .next i _ _ => ∀ c ∈ s.calls.find? i, ∀ staffId ∈ c.phase.issuingFor, ¬Replacing i staffId s
  | _ => True

/-- Every step of a run is safe. -/
def SafeRun (settings : Settings) (s : State) : List Action → Prop
  | [] => True
  | a :: rest => Safe s a ∧ ∀ s' ∈ step settings s a, SafeRun settings s' rest

/-- The unused codes are the ones issued last. -/
structure Latest (s : State) : Prop where
  /-- An unused code is the one issued last for its staff member. -/
  newest : ∀ codeHash invite, s.db.invites.find? codeHash = some invite →
    invite.redeemedAt = none → s.lastIssued invite.staffId = some codeHash
  /-- A call that replaces codes has seen every unused one. -/
  covers : ∀ i c staffId seen, s.calls.find? i = some c →
    c.phase.replacing = some (staffId, seen) → unusedInvites s.db staffId ⊆ seen
  /-- Only one call replaces the codes of a staff member. -/
  alone : ∀ i j c d staffId seen seen', s.calls.find? i = some c → s.calls.find? j = some d →
    c.phase.replacing = some (staffId, seen) → d.phase.replacing = some (staffId, seen') → i = j

theorem latest_initial (db : Db) : Latest (State.initial db) where
  newest codeHash invite hinvite := by cases hinvite
  covers i c staffId seen hc := by cases hc
  alone i j c d staffId seen seen' hc := by cases hc

theorem lastIssued_cons (s : State) (staffId : Uuid) (codeHash : String) (other : Uuid) :
    State.lastIssued { s with issued := (staffId, codeHash) :: s.issued } other =
      if staffId = other then some codeHash else s.lastIssued other := by
  unfold State.lastIssued
  by_cases h : staffId = other <;> simp [h]

section

variable {s s' : State} {i : ℕ} {c : Call}

/-- Codes are used or deleted, and a call that replaces some has seen them. -/
theorem Latest.put (h : Latest s) {c' : Call} (hcalls : s'.calls = s.calls.put i c')
    (hissued : s'.issued = s.issued)
    (hfewer : ∀ codeHash invite, s'.db.invites.find? codeHash = some invite →
      invite.redeemedAt = none → s.db.invites.find? codeHash = some invite)
    (hown : ∀ staffId seen, c'.phase.replacing = some (staffId, seen) →
      unusedInvites s.db staffId ⊆ seen ∧ ∀ j d seen', j ≠ i → s.calls.find? j = some d →
        d.phase.replacing ≠ some (staffId, seen')) : Latest s' := by
  have hunused : ∀ staffId, unusedInvites s'.db staffId ⊆ unusedInvites s.db staffId := by
    intro staffId codeHash hmem
    obtain ⟨invite, hinvite, hstaff, hnone⟩ := mem_unusedInvites.mp hmem
    exact mem_unusedInvites.mpr ⟨invite, hfewer codeHash invite hinvite hnone, hstaff, hnone⟩
  refine ⟨?_, ?_, ?_⟩
  · intro codeHash invite hinvite hnone
    rw [State.lastIssued, hissued]
    exact h.newest codeHash invite (hfewer codeHash invite hinvite hnone) hnone
  · intro j d staffId seen hd hreplacing
    rw [hcalls, Table.find?_put] at hd
    refine (hunused staffId).trans ?_
    split_ifs at hd with hj
    · cases hd
      exact (hown staffId seen hreplacing).1
    · exact h.covers j d staffId seen hd hreplacing
  · intro j k d e staffId seen seen' hd he hdr her
    rw [hcalls, Table.find?_put] at hd he
    split_ifs at hd he with hj hk hk
    · rw [hj, hk]
    · cases hd
      exact absurd her ((hown staffId seen hdr).2 k e seen' hk he)
    · cases he
      exact absurd hdr ((hown staffId seen' her).2 j d seen hj hd)
    · exact h.alone j k d e staffId seen seen' hd he hdr her

/-- A call that replaces codes goes on with the ones it has seen. -/
theorem Latest.goOn (h : Latest s) (hc : s.calls.find? i = some c) {staffId : Uuid}
    {seen seen' : Finset String} (hbefore : c.phase.replacing = some (staffId, seen)) {phase : Phase}
    (hafter : phase.replacing = some (staffId, seen'))
    (hseen : unusedInvites s.db staffId ⊆ seen') : Latest (s.advance i c phase) := by
  refine h.put rfl rfl (fun _ _ hinvite _ => hinvite) fun other found hreplacing => ?_
  change phase.replacing = some (other, found) at hreplacing
  rw [hafter] at hreplacing
  cases hreplacing
  exact ⟨hseen, fun j d _ hj hd hother => hj (h.alone j i d c _ _ _ hd hc hother hbefore)⟩

/-- A new code is committed. -/
theorem Latest.issue (h : Latest s) (hc : s.calls.find? i = some c) {staffId : Uuid}
    {codeHash : String} {expiresAt : Timestamp} {gone : Finset String}
    (hphase : c.phase = .inserted staffId codeHash expiresAt gone) :
    Latest ({ s with
      db := replaced s.db staffId codeHash expiresAt gone
      issued := (staffId, codeHash) :: s.issued }.advance i c (.returned .done)) := by
  have hreplacing : c.phase.replacing = some (staffId, gone) := by
    rw [hphase]
    rfl
  -- An unused code that is left is the new one, or one of another staff member.
  have hleft : ∀ hash invite, (replaced s.db staffId codeHash expiresAt gone).invites.find? hash =
      some invite → invite.redeemedAt = none →
        (hash = codeHash ∧ invite.staffId = staffId) ∨
          (s.db.invites.find? hash = some invite ∧ staffId ≠ invite.staffId) := by
    intro hash invite hinvite hnone
    change ((s.db.invites.filter _).put codeHash _).find? hash = _ at hinvite
    rw [Table.find?_put] at hinvite
    split_ifs at hinvite with hhash
    · cases hinvite
      exact Or.inl ⟨hhash, rfl⟩
    · obtain ⟨hfind, hkept⟩ := Table.find?_filter_eq_some.mp hinvite
      refine Or.inr ⟨hfind, fun hsame => of_decide_eq_true hkept ?_⟩
      exact h.covers i c staffId gone hc hreplacing
        (mem_unusedInvites.mpr ⟨invite, hfind, hsame.symm, hnone⟩)
  refine ⟨?_, ?_, ?_⟩
  · intro hash invite hinvite hnone
    change State.lastIssued { s with issued := (staffId, codeHash) :: s.issued } _ = _
    rw [lastIssued_cons]
    cases hleft hash invite hinvite hnone with
    | inl hnew => rw [if_pos hnew.2.symm, hnew.1]
    | inr hold =>
      rw [if_neg hold.2]
      exact h.newest hash invite hold.1 hnone
  · intro j d other seen hd hother hash hmem
    change (s.calls.put i _).find? j = some d at hd
    rw [Table.find?_put] at hd
    split_ifs at hd with hj
    · cases hd
      cases hother
    · have hne : staffId ≠ other := by
        rintro rfl
        exact hj (h.alone j i d c _ _ _ hd hc hother hreplacing)
      obtain ⟨invite, hinvite, hstaff, hnone⟩ := mem_unusedInvites.mp hmem
      refine h.covers j d other seen hd hother (mem_unusedInvites.mpr ⟨invite, ?_, hstaff, hnone⟩)
      cases hleft hash invite hinvite hnone with
      | inl hnew => exact absurd (hnew.2.symm.trans hstaff) hne
      | inr hold => exact hold.1
  · intro j k d e other seen seen' hd he hdr her
    change (s.calls.put i _).find? j = some d at hd
    change (s.calls.put i _).find? k = some e at he
    rw [Table.find?_put] at hd he
    split_ifs at hd he with hj hk hk
    · rw [hj, hk]
    · cases hd
      cases hdr
    · cases he
      cases her
    · exact h.alone j k d e other seen seen' hd he hdr her

/-- The move of a call leaves the latest code the only unused one, if codes
are replaced one at a time. -/
theorem Latest.moved (h : Latest s) (hc : s.calls.find? i = some c)
    (hsafe : ∀ staffId ∈ c.phase.issuingFor, ¬Replacing i staffId s) (hmoved : Moved s i c s') :
    Latest s' := by
  cases hmoved with
  | quiet hphase hinvites hsessions hstaff =>
    refine h.put rfl rfl (fun codeHash invite hinvite _ => ?_) fun staffId seen hreplacing => ?_
    · exact hinvites ▸ hinvite
    · exact absurd (hphase.replacing.symm.trans hreplacing) (Option.some_ne_none _).symm
  | @listed staffId codeHash expiresAt hphase =>
    refine h.put rfl rfl (fun _ _ hinvite _ => hinvite) fun other seen hreplacing => ?_
    cases hreplacing
    refine ⟨subset_rfl, fun j d seen' hj hd hother => ?_⟩
    have hnot := hsafe staffId (by rw [hphase]; rfl)
    exact Table.not_any.mp hnot j d hd ⟨hj, congrArg (Option.map Prod.fst) hother⟩
  | @deleted staffId codeHash expiresAt listed hphase hfree =>
    have hbefore : c.phase.replacing = some (staffId, listed) := by
      rw [hphase]
      rfl
    refine h.goOn hc hbefore rfl (Finset.subset_inter ?_ subset_rfl)
    exact h.covers i c staffId listed hc hbefore
  | cleared => exact h.put rfl rfl (fun _ _ hinvite _ => hinvite) fun _ _ hnone => by cases hnone
  | @inserted staffId codeHash expiresAt gone hphase hnew hfree =>
    have hbefore : c.phase.replacing = some (staffId, gone) := by
      rw [hphase]
      rfl
    exact h.goOn hc hbefore rfl (h.covers i c staffId gone hc hbefore)
  | locked => exact h.put rfl rfl (fun _ _ hinvite _ => hinvite) fun _ _ hnone => by cases hnone
  | marked => exact h.put rfl rfl (fun _ _ hinvite _ => hinvite) fun _ _ hnone => by cases hnone
  | read => exact h.put rfl rfl (fun _ _ hinvite _ => hinvite) fun _ _ hnone => by cases hnone
  | issued hphase => exact h.issue hc hphase
  | removed =>
    refine h.put rfl rfl (fun _ _ hinvite _ => ?_) fun _ _ hnone => by cases hnone
    exact (Table.find?_filter_eq_some.mp hinvite).1
  | redeemed =>
    refine h.put rfl rfl (fun codeHash invite hinvite hnone => ?_) fun _ _ hnone => by cases hnone
    obtain ⟨found, hfound, hsame⟩ := Option.map_eq_some_iff.mp hinvite
    dsimp only at hsame
    split_ifs at hsame
    · rw [← hsame] at hnone
      cases hnone
    · rwa [← hsame]
  | opened => exact h.put rfl rfl (fun _ _ hinvite _ => hinvite) fun _ _ hnone => by cases hnone

theorem Latest.step {settings : Settings} {a : Action} (h : Latest s) (hsafe : Safe s a)
    (hstep : step settings s a = some s') : Latest s' := by
  rcases step_cases hstep with ⟨i, operation, -, rfl⟩ | ⟨i, now, draw, c, rfl, hc, hmoved⟩ |
    ⟨i, c, hc, rfl⟩
  · exact h.put rfl rfl (fun _ _ hinvite _ => hinvite) fun _ _ hnone => by cases hnone
  · exact h.moved hc (hsafe c hc) hmoved
  · exact h.put rfl rfl (fun _ _ hinvite _ => hinvite) fun _ _ hnone => by cases hnone

theorem Latest.run {settings : Settings} {actions : List Action} (h : Latest s)
    (hsafe : SafeRun settings s actions) (hrun : run settings s actions = some s') : Latest s' := by
  induction actions generalizing s with
  | nil =>
    cases hrun
    exact h
  | cons a rest ih =>
    obtain ⟨mid, hstep, hrest⟩ := Option.bind_eq_some_iff.mp hrun
    exact ih (h.step hsafe.1 hstep) (hsafe.2 mid hstep) hrest

end

/-- A code opens at most one session; if codes are replaced one at a time, the
only unused code of a staff member is the one issued last; and once a staff
member is removed, no session that a code of theirs opened is of any use. -/
theorem codes_kept_if_replaced_in_turn {settings : Settings} {db : Db} {before after : List Action}
    {s s' : State} (hbefore : run settings (State.initial db) before = some s)
    (hafter : run settings s after = some s') :
    (s.opened.map Prod.fst).Nodup ∧
      (SafeRun settings (State.initial db) before → ∀ staffId,
        ∀ codeHash ∈ unusedInvites s.db staffId, s.lastIssued staffId = some codeHash) ∧
      ∀ staffId, s.db.StaffRemoved staffId → ∀ codeHash id invite, (codeHash, id) ∈ s'.opened →
        s'.db.invites.find? codeHash = some invite → invite.staffId = staffId →
          Unusable s'.db id := by
  have hsound : Sound s := (sound_initial db).run hbefore
  refine ⟨hsound.once, fun hsafe staffId codeHash hmem => ?_, ?_⟩
  · obtain ⟨invite, hinvite, hstaff, hnone⟩ := mem_unusedInvites.mp hmem
    rw [← hstaff]
    exact ((latest_initial db).run hsafe hbefore).newest codeHash invite hinvite hnone
  · intro staffId hremoved codeHash id invite hopened hinvite hstaff
    exact (hsound.run hafter).unusable (staffRemoved_run hremoved hafter) hopened hinvite hstaff

instance (i : ℕ) (staffId : Uuid) (s : State) : Decidable (Replacing i staffId s) :=
  inferInstanceAs (Decidable (s.calls.Any _))

instance (s : State) : (a : Action) → Decidable (Safe s a)
  | .start _ _ => inferInstanceAs (Decidable True)
  | .next i _ _ => inferInstanceAs (Decidable
      (∀ c ∈ s.calls.find? i, ∀ staffId ∈ c.phase.issuingFor, ¬Replacing i staffId s))
  | .fail _ => inferInstanceAs (Decidable True)

instance decidableSafeRun (settings : Settings) :
    (s : State) → (actions : List Action) → Decidable (SafeRun settings s actions)
  | _, [] => inferInstanceAs (Decidable True)
  | s, a :: rest =>
    have : ∀ s', Decidable (SafeRun settings s' rest) := fun s' => decidableSafeRun settings s' rest
    inferInstanceAs (Decidable (Safe s a ∧ ∀ s' ∈ step settings s a, SafeRun settings s' rest))

/-- A store's cashier. -/
def cashier : Uuid := ⟨3⟩

/-- A store with a cashier. -/
def oneCashier : Db where
  owners := Table.empty.put ⟨1⟩ "Ana"
  stores := Table.empty.put ⟨2⟩ ⟨1⟩
  staff := Table.empty.put cashier ⟨⟨2⟩, "Ben", ⟨false, false, false, false⟩, none⟩
  sessions := Table.empty
  tokens := Table.empty
  invites := Table.empty
  subscriptions := Table.empty

/-- Accounts need not be paid for. -/
def free : Settings := ⟨1000, 0, false⟩

/-- The next step of a call that draws a code. -/
def tick (i : ℕ) (codeHash : String) : Action := .next i 5 ⟨⟨9⟩, codeHash, "token"⟩

/-- The owner asks for a code, a phone joins with it, and the owner removes the
cashier. -/
def oneTap : List Action :=
  .start 0 (.reinvite ⟨2⟩ cashier none) :: List.replicate 6 (tick 0 "a") ++
    .start 1 (.join "a" "phone") :: List.replicate 10 (tick 1 "b") ++
    .start 2 (.remove ⟨2⟩ cashier) :: List.replicate 6 (tick 2 "b")

/-- The owner taps again before the first tap is done. -/
def twoTaps : List Action :=
  [.start 0 (.reinvite ⟨2⟩ cashier none), .start 1 (.reinvite ⟨2⟩ cashier none),
    tick 0 "a", tick 0 "a", tick 0 "a", tick 1 "b", tick 1 "b", tick 1 "b", tick 0 "a", tick 1 "b",
    tick 0 "a", tick 0 "a", tick 1 "b", tick 1 "b"]

/-- After one tap the session of the removed cashier is of no use, and no code
is left. -/
theorem codes_kept_if_replaced_in_turn_oneTap :
    ∃ s, run free (State.initial oneCashier) oneTap = some s ∧ (s.opened.map Prod.fst).Nodup ∧
      (∀ codeHash ∈ unusedInvites s.db cashier, s.lastIssued cashier = some codeHash) ∧
      Unusable s.db ⟨9⟩ := by
  have hvalues : (run free (State.initial oneCashier) oneTap).map (fun s =>
      (s.opened, (s.db.staff.find? cashier).bind fun st => st.removedAt,
        (s.db.invites.find? "a").map fun invite => invite.staffId)) =
      some ([("a", ⟨9⟩)], some 5, some cashier) := by decide
  obtain ⟨s, hrun, hfound⟩ := Option.map_eq_some_iff.mp hvalues
  obtain ⟨hopened, hstaff, hinvites⟩ :
      s.opened = [("a", ⟨9⟩)] ∧ ((s.db.staff.find? cashier).bind fun st => st.removedAt) = some 5 ∧
        ((s.db.invites.find? "a").map fun invite => invite.staffId) = some cashier := by
    simpa only [Prod.mk.injEq] using hfound
  obtain ⟨st, hst, hremoved⟩ := Option.bind_eq_some_iff.mp hstaff
  obtain ⟨invite, hinvite, hcashier⟩ := Option.map_eq_some_iff.mp hinvites
  obtain ⟨hnodup, hlatest, hunusable⟩ :=
    codes_kept_if_replaced_in_turn hrun (show run free s [] = some s from rfl)
  refine ⟨s, hrun, hnodup, hlatest (by decide) cashier, ?_⟩
  exact hunusable cashier ⟨st, hst, by rw [hremoved]; rfl⟩ "a" ⟨9⟩ invite
    (by rw [hopened]; exact List.mem_singleton_self _) hinvite hcashier

/-- Two taps leave two codes that let phones in, and one of them is not the
code issued last. -/
theorem two_live_codes :
    ∃ s, run free (State.initial oneCashier) twoTaps = some s ∧
      liveInvite s.db "a" 6 = some cashier ∧ liveInvite s.db "b" 6 = some cashier ∧
      ¬∀ codeHash ∈ unusedInvites s.db cashier, s.lastIssued cashier = some codeHash := by
  have hvalues : (run free (State.initial oneCashier) twoTaps).map (fun s =>
      (liveInvite s.db "a" 6, liveInvite s.db "b" 6, s.lastIssued cashier,
        decide ("a" ∈ unusedInvites s.db cashier))) =
      some (some cashier, some cashier, some "b", true) := by decide
  obtain ⟨s, hrun, hfound⟩ := Option.map_eq_some_iff.mp hvalues
  obtain ⟨ha, hb, hlast, hunused⟩ : liveInvite s.db "a" 6 = some cashier ∧
      liveInvite s.db "b" 6 = some cashier ∧ s.lastIssued cashier = some "b" ∧
        decide ("a" ∈ unusedInvites s.db cashier) = true := by
    simpa only [Prod.mk.injEq] using hfound
  refine ⟨s, hrun, ha, hb, fun hlatest => ?_⟩
  have hsame := (hlatest "a" (of_decide_eq_true hunused)).symm.trans hlast
  exact absurd hsame (by decide)

end Kitaza.JoinCodes
