import Kitaza.SessionServer

/-!
# What a look at a session answers after a change

A change clears the memory of sessions after its commit. A lookup that read the
database before the change may still put what it read into the memory
afterwards. In a run in which no lookup does, every look at a session that
begins after a change has cleared the memory answers as the database did since
that change.
-/

namespace Kitaza.SessionFreshness

open KeyedTable Primitives BillingPlan SessionDirectory SessionServer Versions

/-- The answer the database gives about a session. -/
def describing (sessionId : Uuid) (db : Db) : Option SessionActor := db.describe sessionId

/-- A lookup that is about to remember what it read has read it since the last
change that cleared the memory, or the database says the same now. -/
def ReadCurrent (s : State) : Phase → Prop
  | .looked sessionId _ actor version =>
    s.forgotten ≤ version ∨ actor = s.db.describe sessionId
  | _ => True

instance (s : State) : (phase : Phase) → Decidable (ReadCurrent s phase)
  | .looked _ _ _ _ => inferInstanceAs (Decidable (_ ∨ _))
  | .begun | .found _ | .passed _ | .rotated _ | .owned _ | .checked | .invited _ _
  | .redeeming _ _ | .redeemed _ _ _ | .opening _ _ _ | .resolving _ _ | .looking _ _
  | .issuing _ | .staffMarked _ | .sessionsMarked _ | .tokensMarked _ | .ready _
  | .forgetting _ | .returned _ => inferInstanceAs (Decidable True)

/-- The step remembers nothing that was read before a change that has cleared
the memory since. -/
def InsertsCurrent (s : State) : Action → Prop
  | .next i _ _ => ∀ c ∈ s.calls.find? i, ReadCurrent s c.phase
  | _ => True

instance (s : State) : (a : Action) → Decidable (InsertsCurrent s a)
  | .next i _ _ => inferInstanceAs (Decidable (∀ c ∈ s.calls.find? i, ReadCurrent s c.phase))
  | .start _ _ | .fail _ | .wait _ => inferInstanceAs (Decidable True)

/-- Every step of a run meets the condition. -/
def CurrentRun (settings : Settings) (s : State) : List Action → Prop
  | [] => True
  | a :: rest => InsertsCurrent s a ∧ ∀ s' ∈ step settings s a, CurrentRun settings s' rest

instance decidableCurrentRun (settings : Settings) : (s : State) → (actions : List Action) →
    Decidable (CurrentRun settings s actions)
  | _, [] => isTrue trivial
  | s, a :: rest =>
    have : ∀ s', Decidable (CurrentRun settings s' rest) := fun s' =>
      decidableCurrentRun settings s' rest
    inferInstanceAs (Decidable (_ ∧ ∀ s' ∈ step settings s a, CurrentRun settings s' rest))

/-- A call that has not begun to look for its session. -/
def NotLooking (c : Call) : Prop :=
  c.resolved = none ∧
    match c.phase with
    | .resolving _ _ => False
    | .looking _ _ => False
    | .looked _ _ _ _ => False
    | _ => True

/-- Between two states of a run: a look at a session that begins after a change
is done answers as the database did since that change was committed. -/
def Immediate (s₁ s₂ : State) : Prop :=
  ∀ j d v, s₁.calls.find? j = some d → d.phase = .returned .done → d.committedAt = some v →
    ∀ i c sessionId floor actor, (∀ c₁, s₁.calls.find? i = some c₁ → NotLooking c₁) →
      s₂.calls.find? i = some c → c.resolved = some (sessionId, floor, actor) →
        s₂.data.Since v (describing sessionId) actor

/-- A call's look at its session is up to date, and began after `low`. -/
def LookOk (s : State) (low : ℕ) (c : Call) : Prop :=
  match c.phase with
  | .resolving _ floor => low ≤ floor ∧ floor ≤ s.forgotten
  | .looking _ floor => low ≤ floor ∧ floor ≤ s.forgotten
  | .looked sessionId floor actor version =>
    low ≤ floor ∧ floor ≤ version ∧ ∃ db, s.data.at? version = some db ∧ actor = describing sessionId db
  | .forgetting version => version ≤ s.data.version ∧ c.committedAt = some version
  | .returned .done => ∀ v, c.committedAt = some v → v ≤ s.forgotten
  | _ => True

/-- What a call has been answered is up to date. -/
def AnswerOk (s : State) (low : ℕ) (c : Call) : Prop :=
  ∀ sessionId floor actor, c.resolved = some (sessionId, floor, actor) →
    low ≤ floor ∧ s.data.Since floor (describing sessionId) actor

/-- The invariant of a run, with a lower bound for the looks of each call. -/
structure Inv (low : ℕ → ℕ) (s : State) : Prop where
  /-- The bounds are in the past. -/
  bounds : ∀ i, low i ≤ s.forgotten
  /-- Nothing is forgotten that has not happened. -/
  forgotten : s.forgotten ≤ s.data.version
  /-- What is remembered was read since the memory was last cleared. -/
  memory : Remembers (fun sessionId actor =>
    s.data.Since s.forgotten (describing sessionId) actor) s.resolved
  /-- The calls' looks. -/
  looks : ∀ i c, s.calls.find? i = some c → LookOk s (low i) c
  /-- The answers. -/
  answers : ∀ i c, s.calls.find? i = some c → AnswerOk s (low i) c

theorem inv_initial (db : Db) : Inv 0 (State.initial db) where
  bounds := fun _ => Nat.le_refl _
  forgotten := Nat.zero_le _
  memory := remembers_empty _
  looks := fun i c h => by cases h
  answers := fun i c h => by cases h

variable {settings : Settings} {s s' : State} {low : ℕ → ℕ} {i : ℕ} {c c' : Call}

theorem LookOk.mono {bound : ℕ} (h : LookOk s bound c) (hdata : s.data.Extends s'.data)
    (hforgotten : s.forgotten ≤ s'.forgotten) : LookOk s' bound c := by
  obtain ⟨operation, phase, begun, begunAt, exchangedAt, committedAt, resolved⟩ := c
  cases phase with
  | resolving sessionId floor => exact ⟨h.1, le_trans h.2 hforgotten⟩
  | looking sessionId floor => exact ⟨h.1, le_trans h.2 hforgotten⟩
  | looked sessionId floor actor version =>
    obtain ⟨hlow, hfloor, db, hdb, hactor⟩ := h
    exact ⟨hlow, hfloor, db, (hdata.2 _ (Versioned.le_version hdb)).trans hdb, hactor⟩
  | forgetting version => exact ⟨le_trans h.1 hdata.1, h.2⟩
  | returned outcome =>
    cases outcome with
    | done => exact fun v hv => le_trans (h v hv) hforgotten
    | _ => trivial
  | _ => trivial

theorem AnswerOk.mono {bound : ℕ} (h : AnswerOk s bound c) (hdata : s.data.Extends s'.data) :
    AnswerOk s' bound c :=
  fun sessionId floor actor hres =>
    ⟨(h sessionId floor actor hres).1, (h sessionId floor actor hres).2.mono hdata⟩

/-- One call goes on; what is remembered stays or is cleared or is fresh. -/
theorem Inv.put (h : Inv low s) (hdata : s.data.Extends s'.data)
    (hforgotten : s.forgotten ≤ s'.forgotten) (hversion : s'.forgotten ≤ s'.data.version)
    (hmemory : Remembers (fun sessionId actor =>
      s'.data.Since s'.forgotten (describing sessionId) actor) s'.resolved)
    (hcalls : s'.calls = s.calls.put i c') (hlook : LookOk s' (low i) c')
    (hanswer : AnswerOk s' (low i) c') :
    Inv low s' where
  bounds := fun i => (h.bounds i).trans hforgotten
  forgotten := hversion
  memory := hmemory
  looks := by
    intro j d hd
    rw [hcalls, Table.find?_put] at hd
    split_ifs at hd with hj
    · cases hd
      rw [hj]
      exact hlook
    · exact (h.looks j d hd).mono hdata hforgotten
  answers := by
    intro j d hd
    rw [hcalls, Table.find?_put] at hd
    split_ifs at hd with hj
    · cases hd
      rw [hj]
      exact hanswer
    · exact (h.answers j d hd).mono hdata

/-- A write leaves what is remembered as fresh as it was. -/
theorem Inv.memory_mono (h : Inv low s) {data : Versioned Db} (hdata : s.data.Extends data) :
    Remembers (fun sessionId actor => data.Since s.forgotten (describing sessionId) actor)
      s.resolved :=
  fun sessionId looked actor hfound => (h.memory sessionId looked actor hfound).mono hdata

/-- A call that goes on without touching the database or the memory. -/
theorem Inv.advance (h : Inv low s) (hc : s.calls.find? i = some c) {phase : Phase}
    (hlook : LookOk s (low i) { c with phase := phase }) : Inv low (s.advance i c phase) :=
  h.put (Versioned.Extends.refl _) le_rfl h.forgotten h.memory rfl hlook (h.answers i c hc)

/-- A call that writes something and goes on. -/
theorem Inv.write (h : Inv low s) (hc : s.calls.find? i = some c) {db : Db} {phase : Phase}
    (hres : c'.resolved = c.resolved)
    (hlook : LookOk (s.write db) (low i) { c' with phase := phase }) :
    Inv low ((s.write db).advance i c' phase) := by
  have hdata := Versioned.extends_write s.data db
  have hanswer : AnswerOk (s.write db) (low i) c' := by
    intro sessionId floor actor hsome
    exact ((h.answers i c hc).mono hdata) sessionId floor actor (hres ▸ hsome)
  exact h.put hdata le_rfl (h.forgotten.trans hdata.1) (h.memory_mono hdata) rfl hlook hanswer

/-- A look that is answered with something the database said since. -/
theorem Inv.answer (h : Inv low s) {sessionId : Uuid} {floor : ℕ} {actor : Option SessionActor}
    (hlow : low i ≤ floor) (hsince : s.data.Since floor (describing sessionId) actor) :
    Inv low (s.answer i c sessionId floor actor) := by
  refine h.put (Versioned.Extends.refl _) le_rfl h.forgotten h.memory rfl ?_ ?_
  · obtain ⟨operation, phase, begun, begunAt, exchangedAt, committedAt, resolved⟩ := c
    cases operation <;> cases actor <;> trivial
  · intro id low found hres
    cases hres
    exact ⟨hlow, hsince⟩

/-- A committed change: its call clears the memory next. -/
theorem Inv.change (h : Inv low s) (hc : s.calls.find? i = some c) (db : Db) :
    Inv low (s.change i c db) := by
  have hdata := Versioned.extends_write s.data db
  refine h.put hdata le_rfl (h.forgotten.trans hdata.1) (h.memory_mono hdata) rfl ?_ ?_
  · exact ⟨le_rfl, rfl⟩
  · exact (h.answers i c hc).mono hdata

theorem Inv.firstStep (h : Inv low s) (hc : s.calls.find? i = some c) : Inv low (firstStep s i c) := by
  unfold SessionServer.firstStep
  split
  · exact h.advance hc trivial
  · split
    · exact h.advance hc trivial
    · exact h.advance hc trivial
  · split
    · exact h.advance hc trivial
    · exact h.advance hc trivial
  · exact h.advance hc trivial
  · split
    · split_ifs
      · exact h.advance hc trivial
      · exact h.advance hc trivial
    · exact h.advance hc trivial
  · split
    · split_ifs
      · exact h.advance hc trivial
      · exact h.advance hc trivial
    · exact h.advance hc trivial
  · split
    · split_ifs
      · exact h.change hc _
      · exact h.advance hc trivial
    · exact h.advance hc trivial
  · exact h.change hc _
  · exact h.advance hc ⟨h.bounds i, Nat.le_refl _⟩

theorem Inv.goOn_owned (h : Inv low s) (hc : s.calls.find? i = some c) {id : Uuid}
    {token : String} {ownerId : Uuid} (hphase : c.phase = .owned ownerId)
    (hstep : SessionServer.advance settings s i c id token = some s') : Inv low s' := by
  unfold SessionServer.advance at hstep
  simp only [hphase] at hstep
  split_ifs at hstep
  · cases hstep
    exact h.advance hc trivial
  · cases hstep
    exact h.advance hc trivial
  · cases hstep
    exact h.advance hc trivial

theorem Inv.goOn_checked (h : Inv low s) (hc : s.calls.find? i = some c) {id : Uuid}
    {token : String} (hphase : c.phase = .checked)
    (hstep : SessionServer.advance settings s i c id token = some s') : Inv low s' := by
  unfold SessionServer.advance at hstep
  simp only [hphase] at hstep
  split at hstep
  · split at hstep
    · cases hstep
      exact h.advance hc trivial
    · split_ifs at hstep
      cases hstep
      exact h.advance hc trivial
  · cases hstep

theorem Inv.goOn_opening (h : Inv low s) (hc : s.calls.find? i = some c) {id : Uuid}
    {token : String} {ownerId : Uuid} {staffId : Option Uuid} {deviceName : String}
    (hphase : c.phase = .opening ownerId staffId deviceName)
    (hstep : SessionServer.advance settings s i c id token = some s') : Inv low s' := by
  unfold SessionServer.advance at hstep
  simp only [hphase] at hstep
  split_ifs at hstep
  · cases hstep
    exact h.write hc rfl ⟨h.bounds i, Nat.le_refl _⟩
  · cases hstep
    exact h.advance hc trivial

/-- What is answered from memory is as young as the memory. -/
theorem Inv.goOn_resolving (h : Inv low s) (hc : s.calls.find? i = some c) {id : Uuid}
    {token : String} {sessionId : Uuid} {floor : ℕ} (hphase : c.phase = .resolving sessionId floor)
    (hstep : SessionServer.advance settings s i c id token = some s') : Inv low s' := by
  have hlook := h.looks i c hc
  unfold LookOk at hlook
  unfold SessionServer.advance at hstep
  simp only [hphase] at hstep hlook
  split at hstep
  · rename_i actor hfound
    cases hstep
    exact h.answer hlook.1 ((h.memory.of_remembered hfound).of_le hlook.2)
  · cases hstep
    exact h.advance hc hlook

theorem Inv.goOn_looking (h : Inv low s) (hc : s.calls.find? i = some c) {id : Uuid}
    {token : String} {sessionId : Uuid} {floor : ℕ} (hphase : c.phase = .looking sessionId floor)
    (hstep : SessionServer.advance settings s i c id token = some s') : Inv low s' := by
  have hlook := h.looks i c hc
  unfold LookOk at hlook
  unfold SessionServer.advance at hstep
  simp only [hphase] at hstep hlook
  cases hstep
  exact h.advance hc ⟨hlook.1, hlook.2.trans h.forgotten, _, Versioned.at?_version _, rfl⟩

/-- What a look-up inserts is current, so it is no older than the last
forgetting. -/
theorem Inv.goOn_looked (h : Inv low s) (hc : s.calls.find? i = some c) {id : Uuid}
    {token : String} {sessionId : Uuid} {floor : ℕ} {actor : Option SessionActor} {version : ℕ}
    (hphase : c.phase = .looked sessionId floor actor version)
    (hsafe : InsertsCurrent s (.next i id token))
    (hstep : SessionServer.advance settings s i c id token = some s') : Inv low s' := by
  have hlook := h.looks i c hc
  unfold LookOk at hlook
  have hsafe := hsafe c hc
  unfold SessionServer.advance at hstep
  simp only [hphase] at hstep hlook
  rw [hphase] at hsafe
  cases hstep
  obtain ⟨hlow, hfloor, db, hdb, hactor⟩ := hlook
  have hanswered := @Inv.answer s low i c h sessionId floor actor hlow
    ⟨version, db, hfloor, hdb, hactor⟩
  have hfresh : s.data.Since s.forgotten (describing sessionId) actor := by
    rcases hsafe with hread | hsame
    · exact ⟨version, db, hread, hdb, hactor⟩
    · rw [hsame]
      exact Versioned.since_now h.forgotten _
  exact ⟨h.bounds, h.forgotten, h.memory.remember hfresh _, hanswered.looks, hanswered.answers⟩

theorem Inv.goOn_forgetting (h : Inv low s) (hc : s.calls.find? i = some c) {id : Uuid}
    {token : String} {version : ℕ} (hphase : c.phase = .forgetting version)
    (hstep : SessionServer.advance settings s i c id token = some s') : Inv low s' := by
  have hlook := h.looks i c hc
  unfold LookOk at hlook
  unfold SessionServer.advance at hstep
  simp only [hphase] at hstep hlook
  cases hstep
  refine h.put (Versioned.Extends.refl _) (le_max_left _ _) (max_le h.forgotten hlook.1)
    (remembers_empty _) rfl ?_ (h.answers i c hc)
  intro v hv
  rw [hlook.2] at hv
  cases hv
  exact le_max_right _ _

theorem Inv.goOn (h : Inv low s) (hc : s.calls.find? i = some c) {id : Uuid} {token : String}
    (hsafe : InsertsCurrent s (.next i id token))
    (hstep : SessionServer.advance settings s i c id token = some s') : Inv low s' := by
  unfold SessionServer.advance at hstep
  cases hphase : c.phase with
  | begun =>
    simp only [hphase] at hstep
    cases hstep
    exact h.firstStep hc
  | found record =>
    simp only [hphase] at hstep
    split_ifs at hstep
    · cases hstep
      exact h.advance hc trivial
    · cases hstep
      exact h.advance hc trivial
  | passed record =>
    simp only [hphase] at hstep
    split at hstep
    · cases hstep
      exact h.write hc rfl trivial
    · cases hstep
  | rotated record =>
    simp only [hphase] at hstep
    cases hstep
    exact h.write hc rfl ⟨h.bounds i, Nat.le_refl _⟩
  | owned ownerId =>
    exact h.goOn_owned hc hphase hstep
  | checked =>
    exact h.goOn_checked hc hphase hstep
  | invited staffId began =>
    simp only [hphase] at hstep
    cases hstep
    exact h.advance hc trivial
  | redeeming staffId began =>
    simp only [hphase] at hstep
    split at hstep
    · cases hstep
      exact h.advance hc trivial
    · cases hstep
      exact h.advance hc trivial
  | redeemed ownerId staffId began =>
    simp only [hphase] at hstep
    split at hstep
    · cases hstep
      exact h.write hc rfl trivial
    · cases hstep
  | opening ownerId staffId deviceName =>
    exact h.goOn_opening hc hphase hstep
  | resolving sessionId floor =>
    exact h.goOn_resolving hc hphase hstep
  | looking sessionId floor =>
    exact h.goOn_looking hc hphase hstep
  | looked sessionId floor actor version =>
    exact h.goOn_looked hc hphase hsafe hstep
  | issuing actor =>
    simp only [hphase] at hstep
    split_ifs at hstep
    · cases hstep
      exact h.write hc rfl trivial
    · cases hstep
      exact h.advance hc trivial
  | staffMarked w =>
    simp only [hphase] at hstep
    split at hstep
    · cases hstep
      exact h.advance hc trivial
    · cases hstep
  | sessionsMarked w =>
    simp only [hphase] at hstep
    split at hstep
    · cases hstep
      exact h.advance hc trivial
    · cases hstep
      exact h.advance hc trivial
  | tokensMarked w =>
    simp only [hphase] at hstep
    split at hstep
    · cases hstep
      exact h.advance hc trivial
    · cases hstep
  | ready w =>
    simp only [hphase] at hstep
    cases hstep
    exact h.change hc _
  | forgetting version =>
    exact h.goOn_forgetting hc hphase hstep
  | returned outcome =>
    simp only [hphase] at hstep
    cases hstep

theorem Inv.step (h : Inv low s) {a : Action} (hsafe : InsertsCurrent s a)
    (hstep : step settings s a = some s') : Inv low s' := by
  cases a with
  | start i operation =>
    simp only [SessionServer.step] at hstep
    split at hstep
    · cases hstep
    · split_ifs at hstep
      cases hstep
      exact h.put (Versioned.Extends.refl _) le_rfl h.forgotten h.memory rfl trivial
        fun sessionId floor actor hres => by cases hres
  | next i id token =>
    simp only [SessionServer.step] at hstep
    split at hstep
    · cases hstep
    · rename_i c hc
      exact h.goOn hc hsafe hstep
  | fail i =>
    simp only [SessionServer.step] at hstep
    split at hstep
    · cases hstep
    · rename_i c hc
      split_ifs at hstep
      cases hstep
      exact h.advance hc trivial
  | wait ticks =>
    cases hstep
    exact ⟨h.bounds, h.forgotten, h.memory, h.looks, h.answers⟩

theorem Inv.run (h : Inv low s) {actions : List Action} (hsafe : CurrentRun settings s actions)
    (hrun : run settings s actions = some s') : Inv low s' := by
  induction actions generalizing s with
  | nil =>
    cases hrun
    exact h
  | cons a rest ih =>
    obtain ⟨mid, hmid, hrest⟩ := Option.bind_eq_some_iff.mp hrun
    exact ih (h.step hsafe.1 hmid) (hsafe.2 mid hmid) hrest

/-- The looks that have not begun will begin after what is forgotten by now. -/
theorem Inv.raise (h : Inv low s) :
    ∃ low', Inv low' s ∧ ∀ i, (∀ c, s.calls.find? i = some c → NotLooking c) →
      low' i = s.forgotten := by
  classical
  let low' : ℕ → ℕ := fun i =>
    if ∀ c, s.calls.find? i = some c → NotLooking c then s.forgotten else low i
  have hraised : ∀ i, (∀ c, s.calls.find? i = some c → NotLooking c) → low' i = s.forgotten :=
    fun i hi => if_pos hi
  have hkept : ∀ i, (¬ ∀ c, s.calls.find? i = some c → NotLooking c) → low' i = low i :=
    fun i hi => if_neg hi
  refine ⟨low', ⟨?_, h.forgotten, h.memory, ?_, ?_⟩, hraised⟩
  · intro i
    by_cases hi : ∀ c, s.calls.find? i = some c → NotLooking c
    · rw [hraised i hi]
    · rw [hkept i hi]
      exact h.bounds i
  · intro i c hc
    by_cases hi : ∀ c, s.calls.find? i = some c → NotLooking c
    · have hlook := h.looks i c hc
      have hnot := (hi c hc).2
      unfold LookOk at hlook ⊢
      split at hnot
      · exact hnot.elim
      · exact hnot.elim
      · exact hnot.elim
      · rename_i hresolving hlooking hlooked
        split
        · rename_i sessionId floor hphase
          exact absurd hphase (hresolving sessionId floor)
        · rename_i sessionId floor hphase
          exact absurd hphase (hlooking sessionId floor)
        · rename_i sessionId floor actor version hphase
          exact absurd hphase (hlooked sessionId floor actor version)
        · rename_i version hphase
          simpa only [hphase] using hlook
        · rename_i hphase
          simpa only [hphase] using hlook
        · trivial
    · rw [hkept i hi]
      exact h.looks i c hc
  · intro i c hc
    by_cases hi : ∀ c, s.calls.find? i = some c → NotLooking c
    · intro sessionId floor actor hres
      rw [(hi c hc).1] at hres
      cases hres
    · rw [hkept i hi]
      exact h.answers i c hc

/-- Along a run in which no lookup remembers what it read before a change that
has cleared the memory since: once a change is done, every look at a session
that begins later answers as the database did since the change. -/
theorem immediate_of_currentRun {db : Db} {before after : List Action} {s₁ s₂ : State}
    (hbefore : run settings (State.initial db) before = some s₁)
    (hafter : run settings s₁ after = some s₂)
    (hsafe₁ : CurrentRun settings (State.initial db) before)
    (hsafe₂ : CurrentRun settings s₁ after) : Immediate s₁ s₂ := by
  intro j d v hd hdone hv i c sessionId floor actor hnot hc hres
  have h₁ := (inv_initial db).run hsafe₁ hbefore
  have hforgotten := h₁.looks j d hd
  simp only [LookOk, hdone] at hforgotten
  obtain ⟨low, hlow, hraised⟩ := h₁.raise
  have h₂ := hlow.run hsafe₂ hafter
  obtain ⟨hfloor, hsince⟩ := h₂.answers i c hc sessionId floor actor hres
  rw [hraised i hnot] at hfloor
  exact hsince.of_le ((hforgotten v hv).trans hfloor)

/-- An account with one owner. -/
def oneOwner : Db where
  owners := Table.empty.put ⟨1⟩ "Rosa"
  stores := Table.empty
  staff := Table.empty
  sessions := Table.empty
  tokens := Table.empty
  invites := Table.empty
  subscriptions := Table.empty

/-- Tokens for an hour, billing switched off. -/
def hourly : Settings := ⟨3600 * SECOND, 0, false⟩

/-- A call does some steps. -/
def steps (i n : ℕ) : List Action := List.replicate n (.next i ⟨5⟩ "token")

/-- The owner signs in; later a request looks their session up, and the device
is signed out before the request goes on. -/
def signedOutMeanwhile : List Action :=
  [.start 0 (.openOwnerSession ⟨1⟩ "phone")] ++ steps 0 6 ++ [.wait 21000000,
    .start 1 (.request ⟨5⟩)] ++ steps 1 3 ++ [.start 2 (.revoke ⟨1⟩ ⟨5⟩)] ++ steps 2 4

/-- The request remembers what it read; the next one is believed. -/
def believed : List Action := steps 1 1 ++ [.start 3 (.request ⟨5⟩)] ++ steps 3 2

/-- The next request, while the first one waits. -/
def asked : List Action := [.start 3 (.request ⟨5⟩)] ++ steps 3 4

/-- A request that began after the device was signed out is taken for the
owner's. -/
theorem not_immediate : ∃ s₁ s₂, run hourly (State.initial oneOwner) signedOutMeanwhile = some s₁ ∧
    run hourly s₁ believed = some s₂ ∧ ¬ Immediate s₁ s₂ := by
  have hruns : ∃ s₁ ∈ run hourly (State.initial oneOwner) signedOutMeanwhile,
      ∃ s₂ ∈ run hourly s₁ believed, (∃ d ∈ s₁.calls.find? 2, d.phase = .returned .done ∧
        d.committedAt = some 3) ∧ s₁.calls.find? 3 = none ∧
        ∃ c ∈ s₂.calls.find? 3, ∃ r ∈ c.resolved,
          r.2.2 ∉ ((s₂.data.past ++ [s₂.data.now]).drop 3).map (describing r.1) := by
    decide +kernel
  obtain ⟨s₁, h₁, s₂, h₂, ⟨d, hd, hdone, hv⟩, hnew, c, hc, ⟨sessionId, floor, actor⟩, hres, hnot⟩ :=
    hruns
  refine ⟨s₁, s₂, h₁, h₂, fun himmediate => hnot (Versioned.since_iff_mem.mp ?_)⟩
  refine himmediate 2 d 3 hd hdone hv 3 c sessionId floor actor ?_ hc hres
  intro c₁ hc₁
  rw [hnew] at hc₁
  cases hc₁

/-- While the first request waits, the next one finds the device signed out. -/
theorem immediate_of_currentRun_asked : ∃ s₁ s₂,
    run hourly (State.initial oneOwner) signedOutMeanwhile = some s₁ ∧
      run hourly s₁ asked = some s₂ ∧ Immediate s₁ s₂ := by
  have hruns : ∃ s₁ ∈ run hourly (State.initial oneOwner) signedOutMeanwhile,
      ∃ s₂ ∈ run hourly s₁ asked, CurrentRun hourly s₁ asked := by
    decide +kernel
  have hsafe : CurrentRun hourly (State.initial oneOwner) signedOutMeanwhile := by
    decide +kernel
  obtain ⟨s₁, h₁, s₂, h₂, hcurrent⟩ := hruns
  exact ⟨s₁, s₂, h₁, h₂, immediate_of_currentRun h₁ h₂ hsafe hcurrent⟩

end Kitaza.SessionFreshness
