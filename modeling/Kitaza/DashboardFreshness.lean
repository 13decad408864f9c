import Kitaza.DashboardCache

/-!
# What a summary shows after a change

A request that computed a summary may remember it after a change has cleared
the memory, or in the middle of that; and saving or removing a product, or
making a change again, clears nothing. In a run in which no step leaves an
outdated summary behind, every summary asked for after a change is made shows
it.
-/

namespace Kitaza.DashboardFreshness

open KeyedTable Primitives Access Schema Payloads BillingPlan ReportWindows Dashboard SyncPush
  Versions DashboardCache

variable {ttl : ℕ} {s s' : State} {i : ℕ} {c : Call}

theorem asCacheKey_inj {p q : ReportPeriod} {x y : String}
    (h : p.asCacheKey ++ (":" ++ x) = q.asCacheKey ++ (":" ++ y)) : p = q ∧ x = y := by
  have hlist := congrArg String.toList h
  cases p <;> cases q <;>
    simp only [ReportPeriod.asCacheKey, String.toList_append] at hlist h <;>
    first
      | exact ⟨rfl, by simpa using h⟩
      | simp at hlist

/-- Summaries that are asked for differently have different keys. -/
theorem cacheKey_injective : Function.Injective DashboardQuery.cacheKey := by
  intro q q' h
  obtain ⟨hperiod, hoffset⟩ := asCacheKey_inj (String.append_right_inj _ |>.mp h)
  cases q
  cases q'
  simp only [DashboardQuery.mk.injEq]
  exact ⟨hperiod, Int.repr_injective hoffset⟩

/-- The store a request is about. -/
def ofStore : Operation → Uuid
  | .summary storeId _ => storeId
  | .write storeId _ _ => storeId

/-- The figures of a store in a numbered state are those it has now. -/
def FiguresKept (s : State) (storeId : Uuid) (version : ℕ) (db : Db) : Prop :=
  (s.data.at? version).map (figures storeId) = some (figures storeId db)

instance (s : State) (storeId : Uuid) (version : ℕ) (db : Db) :
    Decidable (FiguresKept s storeId version db) :=
  inferInstanceAs (Decidable (_ = _))

/-- A change after which a summary must not be remembered: one that is about to
forget a list without its key, or one that is made and has changed the figures
since the summary was computed. -/
def Outdates (s : State) (storeId : Uuid) (scope : String) (version : ℕ) (d : Call) : Prop :=
  match d.operation, d.phase with
  | .write id _ _, .indexed members => id = storeId ∧ scope ∉ members
  | .write id _ _, .returned .done =>
    id = storeId ∧ (∃ v ∈ d.committedAt, version < v) ∧ ¬ FiguresKept s storeId version s.db
  | _, _ => False

instance (s : State) (storeId : Uuid) (scope : String) (version : ℕ) (d : Call) :
    Decidable (Outdates s storeId scope version d) := by
  unfold Outdates
  split <;> infer_instance

/-- A remembered summary that shows something else than a state. -/
def ShowsOther (s : State) (storeId : Uuid) (db : Db) (key : Uuid × String) (e : Entry) : Prop :=
  key.1 = storeId ∧ s.clock < e.expires ∧ ¬ FiguresKept s storeId e.version db

instance (s : State) (storeId : Uuid) (db : Db) (key : Uuid × String) (e : Entry) :
    Decidable (ShowsOther s storeId db key e) :=
  inferInstanceAs (Decidable (_ ∧ _ ∧ _))

/-- The next step of a request leaves nothing outdated behind: it remembers no
outdated summary, and makes no change that clears nothing while a remembered
summary shows other figures. -/
def LeavesCurrent (s : State) (c : Call) : Prop :=
  match c.operation, c.phase with
  | .summary storeId query, .computed _ version =>
    ¬ s.calls.Any fun _ d => Outdates s storeId query.cacheKey version d
  | .write storeId actor row, .begun =>
    clearsCache s.clock storeId actor row s.db = false →
      ∀ r ∈ (row.apply s.clock storeId actor s.db).toOption,
        ¬ s.cache.entries.Any fun key e => ShowsOther s storeId r.2 key e
  | _, _ => True

instance (s : State) (c : Call) : Decidable (LeavesCurrent s c) := by
  unfold LeavesCurrent
  split <;> infer_instance

/-- A step leaves nothing outdated behind. -/
def StepCurrent (s : State) : Action → Prop
  | .next i => ∀ c ∈ s.calls.find? i, LeavesCurrent s c
  | _ => True

instance (s : State) : (a : Action) → Decidable (StepCurrent s a)
  | .next i => inferInstanceAs (Decidable (∀ c ∈ s.calls.find? i, LeavesCurrent s c))
  | .start _ _ | .fail _ | .wait _ => inferInstanceAs (Decidable True)

/-- Every step of a run leaves nothing outdated behind. -/
def CurrentRun (ttl : ℕ) (s : State) : List Action → Prop
  | [] => True
  | a :: rest => StepCurrent s a ∧ ∀ s' ∈ step ttl s a, CurrentRun ttl s' rest

instance decidableCurrentRun (ttl : ℕ) : (s : State) → (actions : List Action) →
    Decidable (CurrentRun ttl s actions)
  | _, [] => isTrue trivial
  | s, a :: rest =>
    have : ∀ s', Decidable (CurrentRun ttl s' rest) := fun s' => decidableCurrentRun ttl s' rest
    inferInstanceAs (Decidable (_ ∧ ∀ s' ∈ step ttl s a, CurrentRun ttl s' rest))

/-- Between two states of a run: a summary of a store that is asked for after a
change of the store is made is one computed from a state since that change. -/
def Reflects (s₁ s₂ : State) : Prop :=
  ∀ j d v storeId actor row, s₁.calls.find? j = some d → d.operation = .write storeId actor row →
    d.phase = .returned .done → d.committedAt = some v →
      ∀ i c query summary, s₁.calls.find? i = none → s₂.calls.find? i = some c →
        c.operation = .summary storeId query → c.phase = .returned (.answered summary) →
          ∃ now, s₂.data.Since v (summaryOf storeId query now) summary

/-- What the next step of a request does. -/
inductive StepEffect (ttl : ℕ) (s : State) (i : ℕ) (c : Call) : State → Prop
  /-- The summary was remembered. -/
  | hit {storeId : Uuid} {query : DashboardQuery} {cached : DashboardSummary}
      (asked : c.operation = .summary storeId query) (begun : c.phase = .begun)
      (found : s.cache.read s.clock storeId query.cacheKey = some cached) :
      StepEffect ttl s i c (s.advance i c (.returned (.answered cached)))
  /-- It was not. -/
  | miss {storeId : Uuid} {query : DashboardQuery}
      (asked : c.operation = .summary storeId query) (begun : c.phase = .begun) :
      StepEffect ttl s i c (s.advance i c .missed)
  /-- It was computed. -/
  | computes {storeId : Uuid} {query : DashboardQuery}
      (asked : c.operation = .summary storeId query) (missed : c.phase = .missed) :
      StepEffect ttl s i c
        (s.advance i c (.computed (summaryOf storeId query s.clock s.db) s.data.version))
  /-- It was remembered and returned. -/
  | stores {storeId : Uuid} {query : DashboardQuery} {summary : DashboardSummary} {version : ℕ}
      (asked : c.operation = .summary storeId query) (computed : c.phase = .computed summary version) :
      StepEffect ttl s i c { s.advance i c (.returned (.answered summary)) with
        cache := s.cache.write ttl s.clock storeId query.cacheKey summary version }
  /-- The change was refused. -/
  | refuses {storeId : Uuid} {actor : Actor} {row : PushRow} {e : ApiError}
      (asked : c.operation = .write storeId actor row) :
      StepEffect ttl s i c (s.advance i c (.returned (.refused e)))
  /-- The change was made; the memory is cleared next. -/
  | commits {storeId : Uuid} {actor : Actor} {row : PushRow} {db : Db}
      (asked : c.operation = .write storeId actor row) :
      StepEffect ttl s i c (s.commit i c db .written)
  /-- The change was made, and that was all. -/
  | commitsOnly {storeId : Uuid} {actor : Actor} {row : PushRow} {db : Db}
      (asked : c.operation = .write storeId actor row)
      (current : LeavesCurrent s c →
        ¬ s.cache.entries.Any fun key e => ShowsOther s storeId db key e) :
      StepEffect ttl s i c (s.commit i c db (.returned .done))
  /-- The list of the store was read. -/
  | indexes {storeId : Uuid} {actor : Actor} {row : PushRow}
      (asked : c.operation = .write storeId actor row) (written : c.phase = .written) :
      StepEffect ttl s i c (s.advance i c (.indexed (s.cache.members s.clock storeId)))
  /-- The summaries on it were forgotten. -/
  | deletes {storeId : Uuid} {actor : Actor} {row : PushRow} {members : Finset String}
      (asked : c.operation = .write storeId actor row) (indexed : c.phase = .indexed members) :
      StepEffect ttl s i c { s.advance i c (.returned .done) with
        cache := s.cache.delete storeId members }

theorem stepEffect_of_advance (h : advance ttl s i c = some s') : StepEffect ttl s i c s' := by
  unfold advance at h
  split at h
  · rename_i storeId query hop hphase
    split at h
    · rename_i cached hfound
      cases h
      exact .hit hop hphase hfound
    · cases h
      exact .miss hop hphase
  · rename_i storeId query hop hphase
    cases h
    exact .computes hop hphase
  · rename_i storeId query summary version hop hphase
    cases h
    exact .stores hop hphase
  · rename_i storeId actor row hop hphase
    split at h
    · cases h
      exact .refuses hop
    · rename_i id db happly
      split_ifs at h with hclears
      · cases h
        exact .commits hop
      · cases h
        refine .commitsOnly hop fun hcurrent => ?_
        simp only [LeavesCurrent, hop, hphase] at hcurrent
        refine hcurrent (by simpa using hclears) (id, db) ?_
        rw [happly]
        rfl
  · rename_i storeId actor row hop hphase
    cases h
    exact .indexes hop hphase
  · rename_i storeId actor row members hop hphase
    cases h
    exact .deletes hop hphase
  · cases h

/-- A summary that is remembered and not forgotten by itself. -/
def Held (s : State) (storeId : Uuid) (scope : String) (e : Entry) : Prop :=
  s.cache.entries.find? (storeId, scope) = some e ∧ s.clock < e.expires

/-- The figures of a numbered state are those of one since another. -/
def ShowsSince (s : State) (v : ℕ) (storeId : Uuid) (version : ℕ) : Prop :=
  ∃ db, s.data.at? version = some db ∧ s.data.Since v (figures storeId) (figures storeId db)

/-- What a request knows is true. -/
structure CallOk (s : State) (c : Call) : Prop where
  /-- A list that was read has all that is remembered of the store. -/
  indexed : ∀ storeId actor row members, c.operation = .write storeId actor row →
    c.phase = .indexed members → ∀ scope e, Held s storeId scope e → scope ∈ members
  /-- What is remembered of the store shows a change that is made. -/
  done : ∀ storeId actor row v, c.operation = .write storeId actor row →
    c.phase = .returned .done → c.committedAt = some v →
      ∀ scope e, Held s storeId scope e → ShowsSince s v storeId e.version
  /-- A summary was computed from a state there was. -/
  computed : ∀ storeId query summary version, c.operation = .summary storeId query →
    c.phase = .computed summary version →
      ∃ now db, s.data.at? version = some db ∧ summary = summaryOf storeId query now db
  /-- A change led to a state there was. -/
  committed : ∀ v, c.committedAt = some v → v ≤ s.data.version

/-- The invariant of a run. -/
structure Inv (ttl : ℕ) (s : State) : Prop where
  /-- What is remembered is listed, for long enough. -/
  listed : ∀ storeId scope e, Held s storeId scope e → ∃ keys ends,
    s.cache.indexes.find? storeId = some (keys, ends) ∧ scope ∈ keys ∧ e.expires ≤ ends
  /-- Nothing is remembered for longer than it should be. -/
  short : ∀ storeId scope e, Held s storeId scope e → e.expires ≤ s.clock + ttl * SECOND
  /-- What is remembered was computed. -/
  honest : ∀ storeId scope e, Held s storeId scope e → ∃ query now db,
    scope = query.cacheKey ∧ s.data.at? e.version = some db ∧ e.summary = summaryOf storeId query now db
  /-- The requests. -/
  calls : ∀ i c, s.calls.find? i = some c → CallOk s c

theorem ShowsSince.mono {v version : ℕ} {storeId : Uuid} (h : ShowsSince s v storeId version)
    (hdata : s.data.Extends s'.data) : ShowsSince s' v storeId version := by
  obtain ⟨db, hdb, hsince⟩ := h
  exact ⟨db, (hdata.2 _ (Versioned.le_version hdb)).trans hdb, hsince.mono hdata⟩

/-- What a request knows stays true while nothing new is remembered. -/
theorem CallOk.mono (h : CallOk s c) (hdata : s.data.Extends s'.data)
    (hheld : ∀ storeId scope e, Held s' storeId scope e → Held s storeId scope e) : CallOk s' c where
  indexed := fun storeId actor row members hop hphase scope e he =>
    h.indexed storeId actor row members hop hphase scope e (hheld storeId scope e he)
  done := fun storeId actor row v hop hphase hv scope e he =>
    (h.done storeId actor row v hop hphase hv scope e (hheld storeId scope e he)).mono hdata
  computed := by
    intro storeId query summary version hop hphase
    obtain ⟨now, db, hdb, hsummary⟩ := h.computed storeId query summary version hop hphase
    exact ⟨now, db, (hdata.2 _ (Versioned.le_version hdb)).trans hdb, hsummary⟩
  committed := fun v hv => (h.committed v hv).trans hdata.1

theorem inv_initial (ttl : ℕ) (db : Db) : Inv ttl (State.initial db) where
  listed := fun storeId scope e he => by cases he.1
  short := fun storeId scope e he => by cases he.1
  honest := fun storeId scope e he => by cases he.1
  calls := fun i c hc => by cases hc

/-- A request goes on; the database may have changed. -/
theorem Inv.put (h : Inv ttl s) (hcalls : s'.calls = s.calls.put i c)
    (hdata : s.data.Extends s'.data) (hclock : s'.clock = s.clock) (hcache : s'.cache = s.cache)
    (hok : CallOk s' c) : Inv ttl s' := by
  have hheld : ∀ storeId scope e, Held s' storeId scope e → Held s storeId scope e := by
    intro storeId scope e he
    rw [Held, hclock, hcache] at he
    exact he
  refine ⟨?_, ?_, ?_, ?_⟩
  · intro storeId scope e he
    rw [hcache]
    exact h.listed storeId scope e (hheld storeId scope e he)
  · intro storeId scope e he
    rw [hclock]
    exact h.short storeId scope e (hheld storeId scope e he)
  · intro storeId scope e he
    obtain ⟨query, now, db, hscope, hdb, hsummary⟩ := h.honest storeId scope e (hheld storeId scope e he)
    exact ⟨query, now, db, hscope, (hdata.2 _ (Versioned.le_version hdb)).trans hdb, hsummary⟩
  · intro j d hd
    rw [hcalls, Table.find?_put] at hd
    split_ifs at hd
    · cases hd
      exact hok
    · exact (h.calls j d hd).mono hdata hheld

/-- A phase in which a request knows nothing. -/
def Idle : Phase → Prop
  | .computed _ _ => False
  | .indexed _ => False
  | .returned .done => False
  | _ => True

theorem callOk_idle (hidle : Idle c.phase) (hcommitted : ∀ v, c.committedAt = some v → v ≤ s.data.version) :
    CallOk s c where
  indexed := by
    intro storeId actor row members hop hphase
    rw [hphase] at hidle
    exact hidle.elim
  done := by
    intro storeId actor row v hop hphase
    rw [hphase] at hidle
    exact hidle.elim
  computed := by
    intro storeId query summary version hop hphase
    rw [hphase] at hidle
    exact hidle.elim
  committed := hcommitted

/-- A request goes on, knowing nothing. -/
theorem Inv.advance_idle (h : Inv ttl s) (hc : s.calls.find? i = some c) {phase : Phase}
    (hidle : Idle phase) : Inv ttl (s.advance i c phase) :=
  h.put rfl (Versioned.Extends.refl s.data) rfl rfl (callOk_idle hidle (h.calls i c hc).committed)

/-- A request goes on without touching anything. -/
theorem Inv.advance (h : Inv ttl s) (hc : s.calls.find? i = some c) {phase : Phase}
    (hindexed : ∀ storeId actor row members, c.operation = .write storeId actor row →
      phase = .indexed members → ∀ scope e, Held s storeId scope e → scope ∈ members)
    (hdone : ∀ storeId actor row v, c.operation = .write storeId actor row →
      phase = .returned .done → c.committedAt = some v →
        ∀ scope e, Held s storeId scope e → ShowsSince s v storeId e.version)
    (hcomputed : ∀ storeId query summary version, c.operation = .summary storeId query →
      phase = .computed summary version →
        ∃ now db, s.data.at? version = some db ∧ summary = summaryOf storeId query now db) :
    Inv ttl (s.advance i c phase) :=
  h.put rfl (Versioned.Extends.refl s.data) rfl rfl
    ⟨hindexed, hdone, hcomputed, (h.calls i c hc).committed⟩

/-- A change is committed. -/
theorem Inv.commit (h : Inv ttl s) {db : Db} {phase : Phase}
    (hphase : phase = .written ∨ (phase = .returned .done ∧ ∀ storeId actor row,
      c.operation = .write storeId actor row → ∀ scope e, Held s storeId scope e →
        FiguresKept s storeId e.version db)) : Inv ttl (s.commit i c db phase) := by
  have hdata : s.data.Extends (s.data.write db) := Versioned.extends_write s.data db
  refine h.put rfl hdata rfl rfl ⟨?_, ?_, ?_, ?_⟩
  · intro storeId actor row members hop hindexed
    rcases hphase with rfl | ⟨rfl, _⟩ <;> cases hindexed
  · intro storeId actor row v hop hdone hv scope e he
    rcases hphase with rfl | ⟨rfl, hkept⟩
    · cases hdone
    · cases hv
      obtain ⟨before, hbefore, hfigures⟩ :=
        Option.map_eq_some_iff.mp (hkept storeId actor row hop scope e he)
      refine ⟨before, (hdata.2 _ (Versioned.le_version hbefore)).trans hbefore, ?_⟩
      rw [hfigures]
      exact Versioned.since_now (Nat.le_refl _) (figures storeId)
  · intro storeId query summary version hop hcomputed
    rcases hphase with rfl | ⟨rfl, _⟩ <;> cases hcomputed
  · intro v hv
    cases hv
    exact Nat.le_refl _

/-- The server with one more remembered summary. -/
def remembering (ttl : ℕ) (s : State) (storeId : Uuid) (scope : String) (summary : DashboardSummary)
    (version : ℕ) : State :=
  { s with cache := s.cache.write ttl s.clock storeId scope summary version }

/-- What is remembered then was, or is the new summary. -/
theorem held_remembering {storeId : Uuid} {scope : String} {summary : DashboardSummary}
    {version : ℕ} {id : Uuid} {key : String} {e : Entry}
    (h : Held (remembering ttl s storeId scope summary version) id key e) :
    (id = storeId ∧ key = scope ∧ e = ⟨summary, s.clock + ttl * SECOND, version⟩) ∨
      Held s id key e := by
  obtain ⟨hfind, hlive⟩ := h
  simp only [remembering, Cache.write, Table.find?_put] at hfind
  split_ifs at hfind with hkey
  · cases hkey
    cases hfind
    exact Or.inl ⟨rfl, rfl, rfl⟩
  · exact Or.inr ⟨hfind, hlive⟩

/-- A summary that is not outdated may be remembered. -/
theorem Inv.remember (h : Inv ttl s) {storeId : Uuid} {query : DashboardQuery}
    {summary : DashboardSummary} {version : ℕ} {now : Timestamp} {db : Db}
    (hdb : s.data.at? version = some db) (hsummary : summary = summaryOf storeId query now db)
    (hcurrent : ¬ s.calls.Any fun _ d => Outdates s storeId query.cacheKey version d) :
    Inv ttl (remembering ttl s storeId query.cacheKey summary version) := by
  have hnot : ∀ j d, s.calls.find? j = some d → ¬ Outdates s storeId query.cacheKey version d :=
    fun j d hd houtdates => hcurrent ⟨j, d, hd, houtdates⟩
  refine ⟨?_, ?_, ?_, ?_⟩
  · intro id key e he
    simp only [remembering, Cache.write, Table.find?_put]
    rcases held_remembering he with ⟨rfl, rfl, rfl⟩ | hold
    · refine ⟨_, _, if_pos rfl, Finset.mem_insert_self _ _, ?_⟩
      dsimp only
      have hsecond : (0 : ℤ) ≤ SECOND := by decide
      nlinarith [mul_nonneg (Int.natCast_nonneg ttl) hsecond]
    · obtain ⟨keys, ends, hindex, hmem, hends⟩ := h.listed id key e hold
      by_cases hid : id = storeId
      · subst hid
        refine ⟨_, _, if_pos rfl, ?_, ?_⟩
        · -- The list had not been forgotten by itself.
          have hlive : s.clock < ends := hold.2.trans_le hends
          simp only [Cache.members, hindex, Option.map_some, Option.getD_some, if_pos hlive]
          exact Finset.mem_insert_of_mem hmem
        · have hshort := h.short id key e hold
          have hsecond : (0 : ℤ) ≤ SECOND := by decide
          nlinarith [mul_nonneg (Int.natCast_nonneg ttl) hsecond]
      · exact ⟨keys, ends, (if_neg hid).trans hindex, hmem, hends⟩
  · intro id key e he
    rcases held_remembering he with ⟨rfl, rfl, rfl⟩ | hold
    · exact le_rfl
    · exact h.short id key e hold
  · intro id key e he
    rcases held_remembering he with ⟨rfl, rfl, rfl⟩ | hold
    · exact ⟨query, now, db, rfl, hdb, hsummary⟩
    · exact h.honest id key e hold
  · intro j d hd
    have hok := h.calls j d hd
    refine ⟨?_, ?_, hok.computed, hok.committed⟩
    · intro id actor row members hop hphase key e he
      rcases held_remembering he with ⟨rfl, rfl, rfl⟩ | hold
      · by_contra hmem
        refine hnot j d hd ?_
        simp only [Outdates, hop, hphase]
        exact ⟨trivial, hmem⟩
      · exact hok.indexed id actor row members hop hphase key e hold
    · intro id actor row v hop hphase hv key e he
      rcases held_remembering he with ⟨rfl, rfl, rfl⟩ | hold
      · refine ⟨db, hdb, ?_⟩
        by_cases hle : v ≤ version
        · exact ⟨version, db, hle, hdb, rfl⟩
        · -- A change made since has left the figures as they were.
          have hkept : FiguresKept s id version s.db := by
            by_contra hkept
            refine hnot j d hd ?_
            simp only [Outdates, hop, hphase]
            exact ⟨trivial, ⟨v, hv, not_le.mp hle⟩, hkept⟩
          rw [FiguresKept, hdb, Option.map_some, Option.some.injEq] at hkept
          rw [hkept]
          exact Versioned.since_now (hok.committed v hv) (figures id)
      · exact hok.done id actor row v hop hphase hv key e hold

/-- The server after a store's list is forgotten. -/
def forgetting (s : State) (storeId : Uuid) (keys : Finset String) : State :=
  { s with cache := s.cache.delete storeId keys }

/-- What is remembered then was remembered, and not on the list. -/
theorem held_forgetting {storeId : Uuid} {keys : Finset String} {id : Uuid} {key : String}
    {e : Entry} (h : Held (forgetting s storeId keys) id key e) :
    Held s id key e ∧ ¬ (id = storeId ∧ key ∈ keys) := by
  obtain ⟨hfind, hlive⟩ := h
  obtain ⟨hfind, hnot⟩ := Table.find?_filter_eq_some.mp hfind
  exact ⟨⟨hfind, hlive⟩, of_decide_eq_true hnot⟩

/-- A list of all that is remembered of a store may be forgotten. -/
theorem Inv.forget (h : Inv ttl s) {storeId : Uuid} {keys : Finset String}
    (hall : ∀ scope e, Held s storeId scope e → scope ∈ keys) :
    Inv ttl (forgetting s storeId keys) := by
  refine ⟨?_, ?_, ?_, ?_⟩
  · intro id key e he
    obtain ⟨hold, hnot⟩ := held_forgetting he
    have hid : id ≠ storeId := by
      rintro rfl
      exact hnot ⟨rfl, hall key e hold⟩
    obtain ⟨listed, ends, hindex, hmem, hends⟩ := h.listed id key e hold
    refine ⟨listed, ends, ?_, hmem, hends⟩
    exact Table.find?_filter_eq_some.mpr ⟨hindex, decide_eq_true hid⟩
  · exact fun id key e he => h.short id key e (held_forgetting he).1
  · exact fun id key e he => h.honest id key e (held_forgetting he).1
  · exact fun j d hd => (h.calls j d hd).mono (Versioned.Extends.refl s.data)
      fun id key e he => (held_forgetting he).1

/-- Time passes. -/
theorem Inv.wait (h : Inv ttl s) (ticks : ℕ) : Inv ttl { s with clock := s.clock + ticks } := by
  have hheld : ∀ storeId scope e, Held { s with clock := s.clock + ticks } storeId scope e →
      Held s storeId scope e := by
    intro storeId scope e he
    exact ⟨he.1, (le_add_of_nonneg_right (Int.natCast_nonneg ticks)).trans_lt he.2⟩
  refine ⟨?_, ?_, ?_, ?_⟩
  · exact fun storeId scope e he => h.listed storeId scope e (hheld storeId scope e he)
  · intro storeId scope e he
    have hshort := h.short storeId scope e (hheld storeId scope e he)
    have hticks := Int.natCast_nonneg ticks
    dsimp only
    linarith
  · exact fun storeId scope e he => h.honest storeId scope e (hheld storeId scope e he)
  · exact fun j d hd => (h.calls j d hd).mono (Versioned.Extends.refl s.data) hheld

theorem Inv.effect (h : Inv ttl s) (hc : s.calls.find? i = some c) (hcurrent : LeavesCurrent s c)
    (heffect : StepEffect ttl s i c s') : Inv ttl s' := by
  cases heffect with
  | hit asked begun found =>
    exact h.advance_idle hc trivial
  | miss asked begun =>
    exact h.advance_idle hc trivial
  | computes asked missed =>
    refine h.advance hc (fun _ _ _ _ _ hphase => by cases hphase)
      (fun _ _ _ _ _ hphase => by cases hphase) ?_
    intro storeId query summary version hop hphase
    rw [asked] at hop
    cases hop
    cases hphase
    exact ⟨s.clock, s.db, Versioned.at?_version _, rfl⟩
  | @stores storeId query summary version asked computed =>
    obtain ⟨now, db, hdb, hsummary⟩ :=
      (h.calls i c hc).computed storeId query summary version asked computed
    simp only [LeavesCurrent, asked, computed] at hcurrent
    have hinv := h.remember hdb hsummary hcurrent
    exact hinv.advance_idle hc trivial
  | refuses asked =>
    exact h.advance_idle hc trivial
  | commits asked => exact h.commit (Or.inl rfl)
  | commitsOnly asked current =>
    refine h.commit (Or.inr ⟨rfl, ?_⟩)
    intro storeId actor row hop scope e he
    rw [asked] at hop
    cases hop
    by_contra hkept
    exact current hcurrent ⟨_, e, he.1, rfl, he.2, hkept⟩
  | indexes asked written =>
    refine h.advance hc ?_ (fun _ _ _ _ _ hphase => by cases hphase)
      fun _ _ _ _ _ hphase => by cases hphase
    intro storeId actor row members hop hphase scope e he
    rw [asked] at hop
    cases hop
    cases hphase
    -- The list is kept at least as long as what it lists.
    obtain ⟨keys, ends, hindex, hmem, hends⟩ := h.listed _ scope e he
    simpa only [Cache.members, hindex, Option.map_some, Option.getD_some,
      if_pos (he.2.trans_le hends)] using hmem
  | deletes asked indexed =>
    have hall := (h.calls i c hc).indexed _ _ _ _ asked indexed
    have hinv := h.forget hall
    refine hinv.advance hc (fun _ _ _ _ _ hphase => by cases hphase) ?_
      fun _ _ _ _ _ hphase => by cases hphase
    intro storeId actor row v hop hphase hv scope e he
    rw [asked] at hop
    cases hop
    obtain ⟨hold, hnot⟩ := held_forgetting he
    exact absurd ⟨rfl, hall scope e hold⟩ hnot

theorem Inv.step (h : Inv ttl s) {a : Action} (hcurrent : StepCurrent s a)
    (hstep : step ttl s a = some s') : Inv ttl s' := by
  cases a with
  | start i operation =>
    simp only [DashboardCache.step] at hstep
    split at hstep
    · cases hstep
    · cases hstep
      exact h.put rfl (Versioned.Extends.refl s.data) rfl rfl
        (callOk_idle trivial fun v hv => by cases hv)
  | next i =>
    simp only [DashboardCache.step] at hstep
    split at hstep
    · cases hstep
    · rename_i c hc
      exact h.effect hc (hcurrent c hc) (stepEffect_of_advance hstep)
  | fail i =>
    simp only [DashboardCache.step] at hstep
    split at hstep
    · cases hstep
    · rename_i c hc
      split_ifs at hstep
      cases hstep
      exact h.advance_idle hc trivial
  | wait ticks =>
    cases hstep
    exact h.wait ticks

theorem Inv.run (h : Inv ttl s) {actions : List Action} (hcurrent : CurrentRun ttl s actions)
    (hrun : run ttl s actions = some s') : Inv ttl s' := by
  induction actions generalizing s with
  | nil =>
    cases hrun
    exact h
  | cons a rest ih =>
    obtain ⟨mid, hmid, hrest⟩ := Option.bind_eq_some_iff.mp hrun
    exact ih (h.step hcurrent.1 hmid) (hcurrent.2 mid hmid) hrest

/-- What holds after a state of a run: the requests that had ended have, and the
summaries asked for since show what had been changed by then. -/
structure After (s₁ s : State) : Prop where
  /-- The earlier states are still numbered as they were. -/
  data : s₁.data.Extends s.data
  /-- What had ended has ended. -/
  ended : ∀ j d outcome, s₁.calls.find? j = some d → d.phase = .returned outcome →
    s.calls.find? j = some d
  /-- What was computed since was computed from a state since. -/
  computed : ∀ i c summary version, s₁.calls.find? i = none → s.calls.find? i = some c →
    c.phase = .computed summary version → s₁.data.version ≤ version
  /-- What was answered since. -/
  answered : Reflects s₁ s

theorem After.refl (s : State) : After s s where
  data := Versioned.Extends.refl s.data
  ended := fun _ _ _ hd _ => hd
  computed := fun i c summary version hnew hc => by
    rw [hnew] at hc
    cases hc
  answered := fun j d v storeId actor row hd hop hdone hv i c query summary hnew hc => by
    rw [hnew] at hc
    cases hc

/-- A request that had not ended goes on. -/
theorem After.put {s₁ : State} {c' : Call} (h : After s₁ s)
    (hbusy : ∀ c outcome, s.calls.find? i = some c → c.phase ≠ .returned outcome)
    (hcalls : s'.calls = s.calls.put i c') (hdata : s.data.Extends s'.data)
    (hcomputed : ∀ summary version, s₁.calls.find? i = none →
      c'.phase = .computed summary version → s₁.data.version ≤ version)
    (hanswered : s₁.calls.find? i = none → ∀ storeId query summary,
      c'.operation = .summary storeId query → c'.phase = .returned (.answered summary) →
        ∀ j d v actor row, s₁.calls.find? j = some d → d.operation = .write storeId actor row →
          d.phase = .returned .done → d.committedAt = some v →
            ∃ now, s'.data.Since v (summaryOf storeId query now) summary) : After s₁ s' where
  data := h.data.trans hdata
  ended := by
    intro j d outcome hd hended
    have hkept := h.ended j d outcome hd hended
    have hj : j ≠ i := by
      rintro rfl
      exact hbusy d outcome hkept hended
    rw [hcalls, Table.find?_put_ne _ _ hj]
    exact hkept
  computed := by
    intro k d summary version hnew hd hphase
    rw [hcalls, Table.find?_put] at hd
    split_ifs at hd with hk
    · cases hd
      exact hcomputed summary version (hk ▸ hnew) hphase
    · exact h.computed k d summary version hnew hd hphase
  answered := by
    intro j d v storeId actor row hd hop hdone hv k b query summary hnew hb hask hphase
    rw [hcalls, Table.find?_put] at hb
    split_ifs at hb with hk
    · cases hb
      exact hanswered (hk ▸ hnew) storeId query summary hask hphase j d v actor row hd hop hdone hv
    · obtain ⟨now, hsince⟩ :=
        h.answered j d v storeId actor row hd hop hdone hv k b query summary hnew hb hask hphase
      exact ⟨now, hsince.mono hdata⟩

/-- A request that has ended does nothing. -/
theorem busy_of_advance (h : advance ttl s i c = some s') (outcome : DashboardCache.Outcome) :
    c.phase ≠ .returned outcome := by
  intro hphase
  unfold advance at h
  rw [hphase] at h
  cases hop : c.operation with
  | summary storeId query =>
    rw [hop] at h
    cases h
  | write storeId actor row =>
    rw [hop] at h
    cases h

/-- What is remembered shows the changes that are made. -/
theorem Inv.shows_of_read (h : Inv ttl s) {storeId : Uuid} {query : DashboardQuery}
    {cached : DashboardSummary} (hread : s.cache.read s.clock storeId query.cacheKey = some cached)
    {j v : ℕ} {d : Call} {actor : Actor} {row : PushRow} (hd : s.calls.find? j = some d)
    (hop : d.operation = .write storeId actor row) (hdone : d.phase = .returned .done)
    (hv : d.committedAt = some v) :
    ∃ now, s.data.Since v (summaryOf storeId query now) cached := by
  obtain ⟨e, hfind, hlive⟩ := Option.bind_eq_some_iff.mp hread
  split_ifs at hlive with hclock
  cases hlive
  have hheld : Held s storeId query.cacheKey e := ⟨hfind, hclock⟩
  obtain ⟨query', now, db, hkey, hdb, hsummary⟩ := h.honest storeId query.cacheKey e hheld
  obtain ⟨db', hdb', hsince⟩ :=
    (h.calls j d hd).done storeId actor row v hop hdone hv query.cacheKey e hheld
  rw [hdb] at hdb'
  cases hdb'
  rw [cacheKey_injective hkey]
  obtain ⟨k, later, hk, hlater, hfigures⟩ := hsince
  refine ⟨now, k, later, hk, hlater, ?_⟩
  rw [hsummary]
  exact compute_congr hfigures _ _

theorem After.effect {s₁ : State} (h₁ : Inv ttl s₁) (hinv : Inv ttl s) (h : After s₁ s)
    (hc : s.calls.find? i = some c) (hbusy : ∀ outcome, c.phase ≠ .returned outcome)
    (heffect : StepEffect ttl s i c s') : After s₁ s' := by
  have hbusy' : ∀ b outcome, s.calls.find? i = some b → b.phase ≠ .returned outcome := by
    intro b outcome hb
    rw [hc] at hb
    cases hb
    exact hbusy outcome
  have hsame := Versioned.Extends.refl s.data
  cases heffect with
  | @hit storeId query cached asked begun found =>
    refine h.put hbusy' rfl hsame (fun _ _ _ hphase => by cases hphase) ?_
    intro hnew id query' summary hop hphase j d v actor row hd hwrite hdone hv
    rw [asked] at hop
    cases hop
    cases hphase
    exact hinv.shows_of_read found (h.ended j d .done hd hdone) hwrite hdone hv
  | miss asked begun =>
    exact h.put hbusy' rfl hsame (fun _ _ _ hphase => by cases hphase)
      fun _ _ _ _ _ hphase => by cases hphase
  | computes asked missed =>
    refine h.put hbusy' rfl hsame ?_ fun _ _ _ _ _ hphase => by cases hphase
    intro summary version hnew hphase
    cases hphase
    exact h.data.1
  | @stores storeId query summary version asked computed =>
    refine h.put hbusy' rfl hsame (fun _ _ _ hphase => by cases hphase) ?_
    intro hnew id query' summary' hop hphase j d v actor row hd hwrite hdone hv
    rw [asked] at hop
    cases hop
    cases hphase
    obtain ⟨now, db, hdb, hsummary⟩ :=
      (hinv.calls i c hc).computed storeId query summary version asked computed
    have hv₁ := (h₁.calls j d hd).committed v hv
    exact ⟨now, version, db, hv₁.trans (h.computed i c summary version hnew hc computed), hdb,
      hsummary⟩
  | refuses asked =>
    exact h.put hbusy' rfl hsame (fun _ _ _ hphase => by cases hphase)
      fun _ _ _ _ _ hphase => by cases hphase
  | commits asked =>
    exact h.put hbusy' rfl (Versioned.extends_write s.data _) (fun _ _ _ hphase => by cases hphase)
      fun _ _ _ _ _ hphase => by cases hphase
  | commitsOnly asked current =>
    exact h.put hbusy' rfl (Versioned.extends_write s.data _) (fun _ _ _ hphase => by cases hphase)
      fun _ _ _ _ _ hphase => by cases hphase
  | indexes asked written =>
    exact h.put hbusy' rfl hsame (fun _ _ _ hphase => by cases hphase)
      fun _ _ _ _ _ hphase => by cases hphase
  | deletes asked indexed =>
    exact h.put hbusy' rfl hsame (fun _ _ _ hphase => by cases hphase)
      fun _ _ _ _ _ hphase => by cases hphase

theorem After.step {s₁ : State} (h₁ : Inv ttl s₁) (hinv : Inv ttl s) (h : After s₁ s) {a : Action}
    (hstep : step ttl s a = some s') : After s₁ s' := by
  cases a with
  | start i operation =>
    simp only [DashboardCache.step] at hstep
    split at hstep
    · cases hstep
    · rename_i hnew
      cases hstep
      refine h.put ?_ rfl (Versioned.Extends.refl s.data) (fun _ _ _ hphase => by cases hphase)
        fun _ _ _ _ _ hphase => by cases hphase
      intro c outcome hc
      rw [hnew] at hc
      cases hc
  | next i =>
    simp only [DashboardCache.step] at hstep
    split at hstep
    · cases hstep
    · rename_i c hc
      exact h.effect h₁ hinv hc (busy_of_advance hstep) (stepEffect_of_advance hstep)
  | fail i =>
    simp only [DashboardCache.step] at hstep
    split at hstep
    · cases hstep
    · rename_i c hc
      split_ifs at hstep with hended
      cases hstep
      refine h.put ?_ rfl (Versioned.Extends.refl s.data) (fun _ _ _ hphase => by cases hphase)
        fun _ _ _ _ _ hphase => by cases hphase
      intro b outcome hb hphase
      rw [hc] at hb
      cases hb
      rw [hphase] at hended
      exact hended rfl
  | wait ticks =>
    cases hstep
    exact ⟨h.data, h.ended, h.computed, h.answered⟩

theorem After.run {s₁ : State} (h₁ : Inv ttl s₁) (hinv : Inv ttl s) (h : After s₁ s)
    {actions : List Action} (hcurrent : CurrentRun ttl s actions)
    (hrun : run ttl s actions = some s') : After s₁ s' := by
  induction actions generalizing s with
  | nil =>
    cases hrun
    exact h
  | cons a rest ih =>
    obtain ⟨mid, hmid, hrest⟩ := Option.bind_eq_some_iff.mp hrun
    exact ih (hinv.step hcurrent.1 hmid) (h.step h₁ hinv hmid) (hcurrent.2 mid hmid) hrest

/-- Along a run in which no step leaves an outdated summary behind: every summary
that is asked for after a change is made is computed from a state since that
change. -/
theorem reflects_of_currentRun {db : Db} {before after : List Action} {s₁ s₂ : State}
    (hbefore : run ttl (State.initial db) before = some s₁)
    (hafter : run ttl s₁ after = some s₂)
    (hcurrent₁ : CurrentRun ttl (State.initial db) before) (hcurrent₂ : CurrentRun ttl s₁ after) :
    Reflects s₁ s₂ := by
  have hinv := (inv_initial ttl db).run hcurrent₁ hbefore
  exact ((After.refl s₁).run hinv hinv hcurrent₂ hafter).answered

/-- The owner. -/
def rosa : Actor := ⟨⟨1⟩, "Rosa", "phone", none⟩

/-- The rent, paid at noon. -/
def rent : PushRow := .expense ⟨some ⟨7⟩, "rent", none, 5000, some (43200 * SECOND)⟩

/-- Today in Manila. -/
def today : DashboardQuery := ⟨.today, 480⟩

/-- A summary is computed; the rent is recorded, and the memory cleared; then the
summary is remembered. -/
def rentMeanwhile : List Action :=
  [.wait 50000000000, .start 0 (.summary ⟨2⟩ today), .next 0, .next 0,
    .start 1 (.write ⟨2⟩ rosa rent), .next 1, .next 1, .next 1, .next 0]

/-- The same, the first request having waited. -/
def rentFirst : List Action :=
  [.wait 50000000000, .start 1 (.write ⟨2⟩ rosa rent), .next 1, .next 1, .next 1,
    .start 0 (.summary ⟨2⟩ today), .next 0, .next 0, .next 0]

/-- The dashboard is opened again. -/
def askedAgain : List Action := [.start 2 (.summary ⟨2⟩ today), .next 2]

theorem summaryOf_rangeEnd (storeId : Uuid) (query : DashboardQuery) (now : Timestamp) (db : Db) :
    (summaryOf storeId query now db).rangeEnd = now := rfl

/-- The summary a request was answered with. -/
def answer? : Phase → Option DashboardSummary
  | .returned (.answered summary) => some summary
  | _ => none

theorem phase_of_answer? {phase : Phase} {summary : DashboardSummary}
    (h : answer? phase = some summary) : phase = .returned (.answered summary) := by
  unfold answer? at h
  split at h
  · cases h
    rfl
  · cases h

/-- The rent is missing from a summary that was asked for after it was
recorded. -/
theorem not_reflects : ∃ s₁ s₂, run 30 (State.initial Db.empty) rentMeanwhile = some s₁ ∧
    run 30 s₁ askedAgain = some s₂ ∧ ¬ Reflects s₁ s₂ := by
  have hruns : ∃ s₁ ∈ run 30 (State.initial Db.empty) rentMeanwhile,
      ∃ s₂ ∈ run 30 s₁ askedAgain,
        (∃ d ∈ s₁.calls.find? 1, d = ⟨.write ⟨2⟩ rosa rent, .returned .done, some 1⟩) ∧
          s₁.calls.find? 2 = none ∧ ∃ c ∈ s₂.calls.find? 2, c.operation = .summary ⟨2⟩ today ∧
            ∃ summary ∈ answer? c.phase,
              summary ∉ ((s₂.data.past ++ [s₂.data.now]).drop 1).map
                (summaryOf ⟨2⟩ today summary.rangeEnd) := by
    decide +kernel
  obtain ⟨s₁, h₁, s₂, h₂, ⟨d, hd, rfl⟩, hnew, c, hc, hop, summary, hanswer, hnot⟩ := hruns
  refine ⟨s₁, s₂, h₁, h₂, fun hreflects => ?_⟩
  obtain ⟨now, hsince⟩ := hreflects 1 _ 1 ⟨2⟩ rosa rent hd rfl rfl rfl 2 c today summary hnew hc hop
    (phase_of_answer? hanswer)
  have hnow : summary.rangeEnd = now := by
    obtain ⟨k, db, _, _, hsummary⟩ := hsince
    rw [hsummary, summaryOf_rangeEnd]
  rw [← hnow] at hsince
  exact hnot (Versioned.since_iff_mem.mp hsince)

/-- Where the rent is recorded first, the summary has it. -/
theorem reflects_of_currentRun_rentFirst : ∃ s₁ s₂,
    run 30 (State.initial Db.empty) rentFirst = some s₁ ∧ run 30 s₁ askedAgain = some s₂ ∧
      Reflects s₁ s₂ := by
  have hruns : ∃ s₁ ∈ run 30 (State.initial Db.empty) rentFirst,
      ∃ s₂ ∈ run 30 s₁ askedAgain, CurrentRun 30 s₁ askedAgain := by
    decide +kernel
  have hcurrent : CurrentRun 30 (State.initial Db.empty) rentFirst := by
    decide +kernel
  obtain ⟨s₁, h₁, s₂, h₂, hcurrent₂⟩ := hruns
  exact ⟨s₁, s₂, h₁, h₂, reflects_of_currentRun h₁ h₂ hcurrent hcurrent₂⟩

end Kitaza.DashboardFreshness
