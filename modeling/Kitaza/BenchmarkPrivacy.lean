import Kitaza.BenchmarkService

/-!
# Whose figures a comparison shows

The medians of a comparison come from twenty or more stores that shared their
figures, of the kind and size of the store that asks. They are remembered for
other stores, though, without the store they left out: a comparison that is
answered from memory is about others only if the store that asks was not one
of them.
-/

namespace Kitaza.BenchmarkPrivacy

open KeyedTable Primitives BillingPlan Benchmarks BenchmarkService Versions

variable {s s' : State} {i : ℕ} {c : Call}

/-- A store's month was read. -/
def MonthRead (s : State) (storeId : Uuid) (month : StoreMonth) : Prop :=
  ∃ k now db, s.data.at? k = some db ∧ month = storeMonth storeId now db

/-- The kind of a store's business was read. -/
def TypeRead (s : State) (storeId : Uuid) (businessType : String) : Prop :=
  ∃ k db st, s.data.at? k = some db ∧ db.stores.find? storeId = some st ∧
    st.businessType = businessType

/-- Medians answered a question. -/
def Answers (s : State) (medians : PeerMedians) (q : Computation) : Prop :=
  ∃ db, s.data.at? q.version = some db ∧
    medians = peerMedians q.askedBy q.businessType q.band q.now db

/-- What a comparison shows was computed over twenty or more other stores of the
kind and size of the store that asked, which all shared their figures then. -/
structure AboutOthers (s : State) (storeId : Uuid) (report : BenchmarkReport) (month : StoreMonth)
    (medians : PeerMedians) (q : Computation) : Prop where
  /-- The month and the kind are the store's. -/
  asker : MonthRead s storeId month ∧ TypeRead s storeId q.businessType ∧
    SizeBand.of month.salesTotal = q.band
  /-- It shows the month beside the medians. -/
  shown : report = reportOf month q.businessType medians
  /-- The stores behind the medians. -/
  behind : ∃ db stores, s.data.at? q.version = some db ∧
    stores = peers q.askedBy q.businessType q.band q.now db ∧
      medians = mediansOver stores q.now db ∧ 20 ≤ stores.ids.card ∧
        ∀ id st, stores.find? id = some st → db.stores.find? id = some st ∧
          st.shareBenchmarks = true ∧ st.businessType = q.businessType ∧
            (storeMonth id q.now db).isTrading = true ∧
              SizeBand.of (storeMonth id q.now db).salesTotal = q.band ∧ id ≠ storeId

/-- Every comparison that is shown is about others. -/
def Anonymous (s : State) : Prop :=
  ∀ i c report month medians q, s.calls.find? i = some c →
    c.phase = .compared report month medians q → AboutOthers s c.storeId report month medians q

/-- Every state of a run shows comparisons about others alone. -/
def AnonymousRun (s : State) : List Action → Prop
  | [] => Anonymous s
  | a :: rest => Anonymous s ∧ ∀ s' ∈ step s a, AnonymousRun s' rest

theorem AnonymousRun.head {actions : List Action} (h : AnonymousRun s actions) : Anonymous s := by
  cases actions with
  | nil => exact h
  | cons a rest => exact h.1

/-- The store that asks is not one of those behind the remembered medians it is
about to be answered with. -/
def NotCounted (s : State) (c : Call) : Prop :=
  match c.phase with
  | .typed month businessType =>
    ∀ r ∈ remembered s.medians (businessType, (SizeBand.of month.salesTotal).asStr) s.clock,
      ∀ db ∈ s.data.at? r.2.version,
        (peers r.2.askedBy r.2.businessType r.2.band r.2.now db).find? c.storeId = none
  | _ => True

instance (s : State) (c : Call) : Decidable (NotCounted s c) := by
  unfold NotCounted
  split <;> infer_instance

/-- A step does not answer a store with medians it is behind. -/
def StepNotCounted (s : State) : Action → Prop
  | .next i => ∀ c ∈ s.calls.find? i, NotCounted s c
  | _ => True

instance (s : State) : (a : Action) → Decidable (StepNotCounted s a)
  | .next i => inferInstanceAs (Decidable (∀ c ∈ s.calls.find? i, NotCounted s c))
  | .start _ _ _ | .fail _ | .change _ | .wait _ => inferInstanceAs (Decidable True)

/-- No step of a run answers a store with medians it is behind. -/
def NotCountedRun (s : State) : List Action → Prop
  | [] => True
  | a :: rest => StepNotCounted s a ∧ ∀ s' ∈ step s a, NotCountedRun s' rest

instance decidableNotCountedRun : (s : State) → (actions : List Action) →
    Decidable (NotCountedRun s actions)
  | _, [] => isTrue trivial
  | s, a :: rest =>
    have : ∀ s', Decidable (NotCountedRun s' rest) := fun s' => decidableNotCountedRun s' rest
    inferInstanceAs (Decidable (_ ∧ ∀ s' ∈ step s a, NotCountedRun s' rest))

/-- What a request knows is true. -/
def PhaseOk (s : State) (storeId : Uuid) : Phase → Prop
  | .measured month => MonthRead s storeId month
  | .typed month businessType => MonthRead s storeId month ∧ TypeRead s storeId businessType
  | .asking month businessType => MonthRead s storeId month ∧ TypeRead s storeId businessType
  | .asked month businessType medians q =>
    MonthRead s storeId month ∧ TypeRead s storeId businessType ∧ Answers s medians q ∧
      q.askedBy = storeId ∧ q.businessType = businessType ∧ q.band = SizeBand.of month.salesTotal
  | _ => True

/-- The invariant of a run. -/
structure Inv (s : State) : Prop where
  /-- What is remembered answered a question about its kind and size, over enough
  stores. -/
  memory : ∀ key since medians q, s.medians.find? key = some (since, medians, q) →
    key = (q.businessType, q.band.asStr) ∧ MINIMUM_PEERS ≤ medians.sampleSize ∧ Answers s medians q
  /-- The requests. -/
  calls : ∀ i c, s.calls.find? i = some c → PhaseOk s c.storeId c.phase

theorem MonthRead.mono {storeId : Uuid} {month : StoreMonth} (h : MonthRead s storeId month)
    (hdata : s.data.Extends s'.data) : MonthRead s' storeId month := by
  obtain ⟨k, now, db, hdb, hmonth⟩ := h
  exact ⟨k, now, db, (hdata.2 k (Versioned.le_version hdb)).trans hdb, hmonth⟩

theorem TypeRead.mono {storeId : Uuid} {businessType : String} (h : TypeRead s storeId businessType)
    (hdata : s.data.Extends s'.data) : TypeRead s' storeId businessType := by
  obtain ⟨k, db, st, hdb, hst⟩ := h
  exact ⟨k, db, st, (hdata.2 k (Versioned.le_version hdb)).trans hdb, hst⟩

theorem Answers.mono {medians : PeerMedians} {q : Computation} (h : Answers s medians q)
    (hdata : s.data.Extends s'.data) : Answers s' medians q := by
  obtain ⟨db, hdb, hmedians⟩ := h
  exact ⟨db, (hdata.2 _ (Versioned.le_version hdb)).trans hdb, hmedians⟩

theorem AboutOthers.mono {storeId : Uuid} {report : BenchmarkReport} {month : StoreMonth}
    {medians : PeerMedians} {q : Computation} (h : AboutOthers s storeId report month medians q)
    (hdata : s.data.Extends s'.data) : AboutOthers s' storeId report month medians q where
  asker := ⟨h.asker.1.mono hdata, h.asker.2.1.mono hdata, h.asker.2.2⟩
  shown := h.shown
  behind := by
    obtain ⟨db, stores, hdb, hrest⟩ := h.behind
    exact ⟨db, stores, (hdata.2 _ (Versioned.le_version hdb)).trans hdb, hrest⟩

theorem PhaseOk.mono {storeId : Uuid} {phase : Phase} (h : PhaseOk s storeId phase)
    (hdata : s.data.Extends s'.data) : PhaseOk s' storeId phase := by
  cases phase with
  | measured month => exact MonthRead.mono h hdata
  | typed month businessType => exact ⟨h.1.mono hdata, h.2.mono hdata⟩
  | asking month businessType => exact ⟨h.1.mono hdata, h.2.mono hdata⟩
  | asked month businessType medians q =>
    exact ⟨h.1.mono hdata, h.2.1.mono hdata, h.2.2.1.mono hdata, h.2.2.2⟩
  | _ => trivial

theorem inv_initial (db : Db) : Inv (State.initial db) where
  memory := fun key since medians q h => by cases h
  calls := fun i c h => by cases h

/-- A request goes on. -/
theorem Inv.put (h : Inv s) {phase : Phase} (hphase : PhaseOk s c.storeId phase) :
    Inv (s.advance i c phase) where
  memory := h.memory
  calls := by
    intro j d hd
    simp only [State.advance, Table.find?_put] at hd
    split_ifs at hd
    · cases hd
      exact hphase
    · exact h.calls j d hd

/-- The phase after the medians are there knows nothing to be kept. -/
theorem phaseOk_publish (s : State) (storeId : Uuid) (month : StoreMonth) (businessType : String)
    (medians : PeerMedians) (q : Computation) :
    PhaseOk s storeId (publish month businessType medians q) := by
  unfold publish
  split_ifs
  · trivial
  · trivial

theorem Inv.advance (h : Inv s) (hc : s.calls.find? i = some c)
    (hstep : BenchmarkService.advance s i c = some s') : Inv s' := by
  have hok := h.calls i c hc
  unfold BenchmarkService.advance at hstep
  cases hphase : c.phase with
  | begun =>
    simp only [hphase] at hstep
    split_ifs at hstep
    · cases hstep
      exact h.put ⟨_, _, s.db, Versioned.at?_version _, rfl⟩
    · cases hstep
      exact h.put trivial
    · cases hstep
      exact h.put trivial
  | measured month =>
    simp only [hphase] at hstep hok
    split at hstep
    · rename_i st hst
      cases hstep
      exact h.put ⟨hok, _, s.db, st, Versioned.at?_version _, hst, rfl⟩
    · cases hstep
      exact h.put trivial
  | typed month businessType =>
    simp only [hphase] at hstep hok
    split at hstep
    · cases hstep
      exact h.put (phaseOk_publish _ _ _ _ _ _)
    · cases hstep
      exact h.put hok
  | asking month businessType =>
    simp only [hphase] at hstep hok
    cases hstep
    exact h.put ⟨hok.1, hok.2, ⟨s.db, Versioned.at?_version _, rfl⟩, rfl, rfl, rfl⟩
  | asked month businessType medians q =>
    simp only [hphase] at hstep hok
    cases hstep
    have hput : Inv (s.advance i c (publish month businessType medians q)) :=
      h.put (phaseOk_publish _ _ _ _ _ _)
    refine ⟨?_, hput.calls⟩
    intro key since found q' hfind
    dsimp only at hfind
    split_ifs at hfind with henough
    · rw [Table.find?_put] at hfind
      split_ifs at hfind with hkey
      · cases hfind
        obtain ⟨_, _, hanswers, _, htype, hband⟩ := hok
        rw [hkey, htype, hband]
        exact ⟨rfl, henough, hanswers⟩
      · exact h.memory key since found q' hfind
    · exact h.memory key since found q' hfind
  | _ =>
    simp only [hphase] at hstep
    cases hstep

theorem Inv.step (h : Inv s) {a : Action} (hstep : step s a = some s') : Inv s' := by
  cases a with
  | start i storeId shares =>
    simp only [BenchmarkService.step] at hstep
    split at hstep
    · cases hstep
    · cases hstep
      refine ⟨h.memory, ?_⟩
      intro j d hd
      rw [Table.find?_put] at hd
      split_ifs at hd
      · cases hd
        trivial
      · exact h.calls j d hd
  | next i =>
    simp only [BenchmarkService.step] at hstep
    split at hstep
    · cases hstep
    · rename_i c hc
      exact h.advance hc hstep
  | fail i =>
    simp only [BenchmarkService.step] at hstep
    split at hstep
    · cases hstep
    · split_ifs at hstep
      cases hstep
      exact h.put trivial
  | change db =>
    cases hstep
    have hdata := Versioned.extends_write s.data db
    refine ⟨?_, fun j d hd => (h.calls j d hd).mono hdata⟩
    intro key since medians q hfind
    obtain ⟨hkey, henough, hanswers⟩ := h.memory key since medians q hfind
    exact ⟨hkey, henough, hanswers.mono hdata⟩
  | wait ticks =>
    cases hstep
    exact ⟨h.memory, h.calls⟩

theorem publish_eq_compared {month month' : StoreMonth} {businessType : String}
    {medians medians' : PeerMedians} {q q' : Computation} {report : BenchmarkReport}
    (h : publish month businessType medians q = .compared report month' medians' q') :
    MINIMUM_PEERS ≤ medians.sampleSize ∧ report = reportOf month businessType medians ∧
      month' = month ∧ medians' = medians ∧ q' = q := by
  unfold publish at h
  split_ifs at h with hfew
  cases h
  exact ⟨not_lt.mp hfew, rfl, rfl, rfl, rfl⟩

/-- Medians over enough stores, none of which is the one that asks, may be
shown. -/
theorem aboutOthers_of_answers {storeId : Uuid} {month : StoreMonth} {businessType : String}
    {medians : PeerMedians} {q : Computation} (hmonth : MonthRead s storeId month)
    (htype : TypeRead s storeId businessType) (hkind : q.businessType = businessType)
    (hband : q.band = SizeBand.of month.salesTotal) (hanswers : Answers s medians q)
    (henough : MINIMUM_PEERS ≤ medians.sampleSize)
    (hnot : ∀ db, s.data.at? q.version = some db →
      (peers q.askedBy q.businessType q.band q.now db).find? storeId = none) :
    AboutOthers s storeId (reportOf month businessType medians) month medians q := by
  obtain ⟨db, hdb, hmedians⟩ := hanswers
  refine ⟨⟨hmonth, hkind ▸ htype, hband.symm⟩, by rw [hkind], db, _, hdb, rfl, hmedians, ?_, ?_⟩
  · rw [hmedians] at henough
    exact henough
  · intro id st hst
    obtain ⟨hstore, hshares, _, hsame, htrading, hsize⟩ := find?_peers.mp hst
    refine ⟨hstore, hshares, hsame, htrading, hsize, ?_⟩
    rintro rfl
    rw [hnot db hdb] at hst
    cases hst

theorem Anonymous.put (h : Anonymous s) {c' : Call} (hdata : s.data.Extends s'.data)
    (hcalls : s'.calls = s.calls.put i c')
    (hnew : ∀ report month medians q, c'.phase = .compared report month medians q →
      AboutOthers s' c'.storeId report month medians q) : Anonymous s' := by
  intro j d report month medians q hd hphase
  rw [hcalls, Table.find?_put] at hd
  split_ifs at hd
  · cases hd
    exact hnew report month medians q hphase
  · exact (h j d report month medians q hd hphase).mono hdata

theorem Anonymous.advance (h : Anonymous s) (hinv : Inv s) (hc : s.calls.find? i = some c)
    (hnot : NotCounted s c) (hstep : BenchmarkService.advance s i c = some s') : Anonymous s' := by
  have hsame := Versioned.Extends.refl s.data
  have hok := hinv.calls i c hc
  unfold BenchmarkService.advance at hstep
  cases hphase : c.phase with
  | begun =>
    simp only [hphase] at hstep
    split_ifs at hstep <;>
    · cases hstep
      exact h.put hsame rfl fun _ _ _ _ hshown => by cases hshown
  | measured month =>
    simp only [hphase] at hstep
    split at hstep <;>
    · cases hstep
      exact h.put hsame rfl fun _ _ _ _ hshown => by cases hshown
  | typed month businessType =>
    simp only [hphase, NotCounted] at hstep hok hnot
    split at hstep
    · rename_i medians q hremembered
      cases hstep
      refine h.put hsame rfl fun report month' medians' q' hshown => ?_
      obtain ⟨henough, rfl, rfl, rfl, rfl⟩ := publish_eq_compared hshown
      -- What is remembered under the key answered a question about it.
      obtain ⟨⟨since, found⟩, hfind, hfresh⟩ := Option.bind_eq_some_iff.mp hremembered
      split_ifs at hfresh
      cases hfresh
      obtain ⟨hkey, _, hanswers⟩ := hinv.memory _ since _ _ hfind
      obtain ⟨hkind, hband⟩ := Prod.mk.inj hkey
      exact aboutOthers_of_answers hok.1 hok.2 hkind.symm (SizeBand.asStr_injective hband.symm)
        hanswers henough (hnot _ hremembered)
    · cases hstep
      exact h.put hsame rfl fun _ _ _ _ hshown => by cases hshown
  | asking month businessType =>
    simp only [hphase] at hstep
    cases hstep
    exact h.put hsame rfl fun _ _ _ _ hshown => by cases hshown
  | asked month businessType medians q =>
    simp only [hphase] at hstep hok
    cases hstep
    refine h.put hsame rfl fun report month' medians' q' hshown => ?_
    obtain ⟨henough, rfl, rfl, rfl, rfl⟩ := publish_eq_compared hshown
    obtain ⟨hmonth, htype, hanswers, hasker, hkind, hband⟩ := hok
    refine aboutOthers_of_answers hmonth htype hkind hband hanswers henough fun db _ => ?_
    -- The query leaves out the store that asks.
    cases hfind : (peers q'.askedBy q'.businessType q'.band q'.now db).find? c.storeId with
    | none => rfl
    | some st => exact absurd hasker.symm (find?_peers.mp hfind).2.2.1
  | _ =>
    simp only [hphase] at hstep
    cases hstep

/-- A store that is answered with medians it is behind is shown itself. -/
theorem not_anonymous_of_counted (hinv : Inv s) (i : ℕ) (hcounted : ¬ NotCounted s c) :
    ∃ s', BenchmarkService.advance s i c = some s' ∧ ¬ Anonymous s' := by
  unfold NotCounted at hcounted
  split at hcounted
  · rename_i month businessType hphase
    push Not at hcounted
    obtain ⟨⟨medians, q⟩, hremembered, db, hdb, hfind⟩ := hcounted
    refine ⟨s.advance i c (publish month businessType medians q), ?_, ?_⟩
    · simp only [BenchmarkService.advance, hphase]
      rw [hremembered]
    · intro hanonymous
      obtain ⟨⟨since, found⟩, hmemory, hfresh⟩ := Option.bind_eq_some_iff.mp hremembered
      split_ifs at hfresh
      cases hfresh
      obtain ⟨_, henough, _⟩ := hinv.memory _ since _ _ hmemory
      have hpublish : publish month businessType medians q =
          .compared (reportOf month businessType medians) month medians q := by
        rw [publish, if_neg (not_lt.mpr henough)]
      obtain ⟨db', stores, hdb', rfl, _, _, hothers⟩ :=
        (hanonymous i { c with phase := publish month businessType medians q } _ month medians q
          (Table.find?_put_self _ _ _) hpublish).behind
      have hsame : db' = db := Option.some.inj (hdb'.symm.trans hdb)
      subst hsame
      obtain ⟨st, hst⟩ := Option.ne_none_iff_exists'.mp hfind
      exact (hothers c.storeId st hst).2.2.2.2.2 rfl
  · exact absurd trivial hcounted

/-- The runs that show comparisons about others alone are those in which no store
is answered from memory with medians it is behind. -/
theorem anonymousRun_iff_of_inv (hinv : Inv s) (h : Anonymous s) (actions : List Action) :
    AnonymousRun s actions ↔ NotCountedRun s actions := by
  induction actions generalizing s with
  | nil => exact ⟨fun _ => trivial, fun _ => h⟩
  | cons a rest ih =>
    constructor
    · rintro ⟨_, hrest⟩
      refine ⟨?_, fun s' hs' => ?_⟩
      · cases a with
        | next i =>
          intro c hc
          by_contra hcounted
          obtain ⟨s', hs', hnot⟩ := not_anonymous_of_counted hinv i hcounted
          refine hnot ?_
          have hmid : step s (.next i) = some s' := by
            simp only [step, Option.mem_def.mp hc, hs']
          exact (hrest s' hmid).head
        | _ => trivial
      · exact (ih (hinv.step hs') (hrest s' hs').head).mp (hrest s' hs')
    · rintro ⟨hnot, hrest⟩
      refine ⟨h, fun s' hs' => ?_⟩
      refine (ih (hinv.step hs') ?_).mpr (hrest s' hs')
      have hstep : step s a = some s' := hs'
      cases a with
      | start i storeId shares =>
        simp only [step] at hstep
        split at hstep
        · cases hstep
        · cases hstep
          exact h.put (Versioned.Extends.refl s.data) rfl fun _ _ _ _ hshown => by cases hshown
      | next i =>
        simp only [step] at hstep
        split at hstep
        · cases hstep
        · rename_i c hc
          exact h.advance hinv hc (hnot c hc) hstep
      | fail i =>
        simp only [step] at hstep
        split at hstep
        · cases hstep
        · split_ifs at hstep
          cases hstep
          exact h.put (Versioned.Extends.refl s.data) rfl fun _ _ _ _ hshown => by cases hshown
      | change db =>
        cases hstep
        intro j d report month medians q hd hphase
        exact (h j d report month medians q hd hphase).mono (Versioned.extends_write s.data db)
      | wait ticks =>
        cases hstep
        intro j d report month medians q hd hphase
        exact (h j d report month medians q hd hphase).mono (Versioned.Extends.refl s.data)

/-- Over every run from a server nobody has asked anything: it shows comparisons
about others alone if and only if no store is answered from memory with medians
it is behind. -/
theorem anonymousRun_iff (db : Db) (actions : List Action) :
    AnonymousRun (State.initial db) actions ↔ NotCountedRun (State.initial db) actions :=
  anonymousRun_iff_of_inv (inv_initial db) (fun _ _ _ _ _ _ hc => by cases hc)
    actions

/-- The table of so many rows. -/
def numbered {ρ : Type} (n : ℕ) (row : ℕ → ρ) : Table Uuid ρ where
  ids := (Finset.range n).map ⟨Uuid.mk, fun _ _ h => Uuid.mk.inj h⟩
  find? id := if id.bits < n then some (row id.bits) else none
  mem_ids id := by
    rw [Finset.mem_map]
    constructor
    · rintro ⟨k, hk, rfl⟩
      change (if k < n then some (row k) else none).isSome = true
      rw [if_pos (Finset.mem_range.mp hk)]
      rfl
    · intro h
      by_cases hk : id.bits < n
      · exact ⟨id.bits, Finset.mem_range.mpr hk, rfl⟩
      · rw [if_neg hk] at h
        cases h

/-- Twenty-one small shops with twenty sales each, all of which share their
figures. -/
def crowd : Db where
  stores := numbered 21 fun _ => ⟨"sari_sari", true⟩
  sales := numbered 420 fun k => ⟨⟨k / 20⟩, "cash", 100, 80, 0, none, 0, none, 0, none⟩
  expenses := Table.empty

/-- One shop asks, and an hour later another. -/
def askedTwice : List Action :=
  [.start 0 ⟨0⟩ true, .next 0, .next 0, .next 0, .next 0, .next 0, .wait 3600000000,
    .start 1 ⟨1⟩ true, .next 1, .next 1, .next 1]

/-- The second shop is shown medians over twenty shops, one of which it is. -/
theorem not_anonymousRun : ¬ AnonymousRun (State.initial crowd) askedTwice := by
  have hcounted : ¬ NotCountedRun (State.initial crowd) askedTwice := by
    decide +kernel
  have hiff := anonymousRun_iff_of_inv (inv_initial crowd) (fun _ _ _ _ _ _ hc => by cases hc)
    askedTwice
  exact fun hrun => hcounted (hiff.mp hrun)

end Kitaza.BenchmarkPrivacy
