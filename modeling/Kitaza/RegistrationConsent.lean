import Kitaza.Registration

/-!
# No account without consent

An account is there from the commit of its transaction on, and its consents
only two statements later. A registration leaves an account without consent
exactly when it fails, or the process stops, between the two.
-/

namespace Kitaza.RegistrationConsent

open KeyedTable Primitives BillingPlan Registration

/-- An owner with a store and a trial. -/
structure Opened (db : Db) (id : Uuid) : Prop where
  /-- The owner. -/
  owner : (db.owners.find? id).isSome
  /-- A store. -/
  store : ∃ store ∈ db.stores, store.ownerId = id
  /-- A trial. -/
  trial : ∃ row, db.subscriptions.find? id = some row ∧ row.trialEndsAt.isSome

/-- An owner who agreed to every document in its current version. -/
def Agreed (db : Db) (id : Uuid) : Prop :=
  ∀ document ∈ LegalDocument.all, db.hasConsent id document document.currentVersion = true

/-- No owner that the call created is there, or one with a store, a trial and
a consent for each document. -/
def Accounted (db : Db) (c : Call) : Prop :=
  ∀ id ∈ c.created, (db.owners.find? id).isSome → Opened db id ∧ Agreed db id

/-- Every registration that has ended left no account without consent. -/
def NoneWithoutConsent (s : State) : Prop :=
  ∀ i c, s.calls.find? i = some c → c.phase.ended = true → Accounted s.db c

/-- The consents that are still to be recorded once the account is there. -/
def owed : Phase → ℕ
  | .consenting _ left => left.length
  | _ => 0

/-- Whether the next step of a call creates the account. -/
def commits : Phase → Bool
  | .trialInserted _ => true
  | _ => false

/-- No call ends between the commit of its account and its last consent. -/
def Safe (s : State) : Action → Prop
  | .fail i => ∀ c ∈ s.calls.find? i, owed c.phase = 0
  | .lose i _ => ∀ c ∈ s.calls.find? i, commits c.phase = false ∧ owed c.phase ≤ 1
  | _ => True

/-- Every step of a run is safe. -/
def SafeRun (p : Platform) (s : State) : List Action → Prop
  | [] => True
  | a :: rest => Safe s a ∧ ∀ s' ∈ step p s a, SafeRun p s' rest

/-- Nothing was taken away, and only one owner's rows were added. -/
structure Grown (id : Uuid) (db db' : Db) : Prop where
  /-- Other owners are as they were. -/
  owners : ∀ k, k ≠ id → db'.owners.find? k = db.owners.find? k
  /-- Stores stay. -/
  stores : ∀ store ∈ db.stores, store ∈ db'.stores
  /-- Other subscriptions are as they were. -/
  subscriptions : ∀ k, k ≠ id → db'.subscriptions.find? k = db.subscriptions.find? k
  /-- Other consents are as they were. -/
  consents : ∀ k, k ≠ id → ∀ document version,
    db'.hasConsent k document version = db.hasConsent k document version

theorem Grown.refl (id : Uuid) (db : Db) : Grown id db db :=
  ⟨fun _ _ => rfl, fun _ h => h, fun _ _ => rfl, fun _ _ _ _ => rfl⟩

/-- Sessions and tokens are nobody's account. -/
theorem grown_signIn (id : Uuid) (db : Db) (sessions : Table Uuid SessionRow)
    (tokens : Table String TokenRow) :
    Grown id db { db with sessions := sessions, tokens := tokens } :=
  ⟨fun _ _ => rfl, fun _ h => h, fun _ _ => rfl, fun _ _ _ _ => rfl⟩

theorem grown_withAccount (db : Db) (account : NewAccount) :
    Grown account.ownerId db (db.withAccount account) where
  owners := fun k hk => Table.find?_put_ne _ _ hk
  stores := fun store h => List.mem_append_left _ h
  subscriptions := fun k hk => by
    cases htrial : account.trial with
    | none => simp only [Db.withAccount, htrial]
    | some trial =>
      simp only [Db.withAccount, htrial]
      exact Table.find?_put_ne _ _ hk
  consents := fun _ _ _ _ => rfl

theorem hasConsent_recordConsent (db : Db) (ownerId k : Uuid) (document d : LegalDocument)
    (version v : String) : (recordConsent db ownerId document version).hasConsent k d v =
      (db.hasConsent k d v || (ownerId = k && document == d && version == v)) := by
  have hcolumn : (document.columnValue == d.columnValue) = (document == d) := by
    rw [Bool.eq_iff_iff, beq_iff_eq, beq_iff_eq]
    exact LegalDocument.columnValue_injective.eq_iff
  rw [recordConsent]
  split_ifs with hhas
  · -- What is recorded again was there before.
    cases hsame : decide (ownerId = k) && document == d && version == v with
    | false => rw [Bool.or_false]
    | true =>
      simp only [Bool.and_eq_true, decide_eq_true_eq, beq_iff_eq] at hsame
      obtain ⟨⟨rfl, rfl⟩, rfl⟩ := hsame
      rw [hhas]
      rfl
  · rw [Db.hasConsent, List.any_append, ← Db.hasConsent, List.any_cons, List.any_nil, hcolumn,
      Bool.or_false]

theorem grown_recordConsent (db : Db) (id : Uuid) (document : LegalDocument) (version : String) :
    Grown id db (recordConsent db id document version) where
  owners := fun k _ => by
    rw [recordConsent]
    split_ifs <;> rfl
  stores := fun store h => by
    rw [recordConsent]
    split_ifs
    · exact h
    · exact h
  subscriptions := fun k _ => by
    rw [recordConsent]
    split_ifs <;> rfl
  consents := fun k hk d v => by
    rw [hasConsent_recordConsent]
    have hne : decide (id = k) = false := decide_eq_false (Ne.symm hk)
    rw [hne, Bool.false_and, Bool.false_and, Bool.or_false]

theorem Grown.opened {id k : Uuid} {db db' : Db} (h : Grown id db db') (hk : k ≠ id)
    (ho : Opened db k) : Opened db' k := by
  obtain ⟨store, hstore, howner⟩ := ho.store
  refine ⟨?_, ⟨store, h.stores store hstore, howner⟩, ?_⟩
  · rw [h.owners k hk]
    exact ho.owner
  · rw [h.subscriptions k hk]
    exact ho.trial

theorem Grown.agreed_iff {id k : Uuid} {db db' : Db} (h : Grown id db db') (hk : k ≠ id) :
    Agreed db' k ↔ Agreed db k := by
  simp only [Agreed, h.consents k hk]

/-- What holds of a call at its phase. -/
def CallOk (db : Db) (c : Call) : Prop :=
  match c.phase with
  | .begun | .checked | .free => c.created = none
  | .ownerInserted account => c.created = none ∧ db.owners.find? account.ownerId = none
  | .storeInserted account => c.created = none ∧ db.owners.find? account.ownerId = none ∧
      ∃ store, account.store = some store ∧ store.ownerId = account.ownerId
  | .trialInserted account => c.created = none ∧ db.owners.find? account.ownerId = none ∧
      (∃ store, account.store = some store ∧ store.ownerId = account.ownerId) ∧
      ∃ trial, account.trial = some trial ∧ trial.trialEndsAt.isSome
  | .consenting id left => c.created = some id ∧ Opened db id ∧ left <:+ LegalDocument.all ∧
      ∀ document, db.hasConsent id document document.currentVersion = true ↔ document ∉ left
  | .opening id | .resolving id _ | .issuing id _ | .describing id _ =>
    c.created = some id ∧ Opened db id ∧ Agreed db id
  | .returned _ => ∀ id ∈ c.created, Opened db id ∧ Agreed db id
  | .stopped => ∀ id ∈ c.created, Opened db id

/-- The account a call has created or is about to create. -/
def Concerns (c : Call) (id : Uuid) : Prop :=
  c.created = some id ∨ ∃ account ∈ c.phase.inFlight, account.ownerId = id

/-- A call whose account another call does not touch keeps what it knows. -/
theorem CallOk.grown {id : Uuid} {db db' : Db} {c : Call} (h : CallOk db c)
    (hgrown : Grown id db db') (hid : ¬ Concerns c id) : CallOk db' c := by
  have hcreated : ∀ k, c.created = some k → k ≠ id := fun k hk heq => hid (.inl (heq ▸ hk))
  obtain ⟨request, created, phase⟩ := c
  cases phase with
  | begun => exact h
  | checked => exact h
  | free => exact h
  | ownerInserted account =>
    have hne : account.ownerId ≠ id := fun heq => hid (.inr ⟨account, rfl, heq⟩)
    exact ⟨h.1, (hgrown.owners _ hne).trans h.2⟩
  | storeInserted account =>
    have hne : account.ownerId ≠ id := fun heq => hid (.inr ⟨account, rfl, heq⟩)
    exact ⟨h.1, (hgrown.owners _ hne).trans h.2.1, h.2.2⟩
  | trialInserted account =>
    have hne : account.ownerId ≠ id := fun heq => hid (.inr ⟨account, rfl, heq⟩)
    exact ⟨h.1, (hgrown.owners _ hne).trans h.2.1, h.2.2⟩
  | consenting k left =>
    have hne := hcreated k h.1
    refine ⟨h.1, hgrown.opened hne h.2.1, h.2.2.1, fun document => ?_⟩
    rw [hgrown.consents k hne]
    exact h.2.2.2 document
  | opening k | resolving k _ | issuing k _ | describing k _ =>
    have hne := hcreated k h.1
    exact ⟨h.1, hgrown.opened hne h.2.1, (hgrown.agreed_iff hne).2 h.2.2⟩
  | returned result =>
    exact fun k hk => ⟨hgrown.opened (hcreated k hk) (h k hk).1,
      (hgrown.agreed_iff (hcreated k hk)).2 (h k hk).2⟩
  | stopped => exact fun k hk => hgrown.opened (hcreated k hk) (h k hk)

/-- The account of a call that created one is there. -/
theorem CallOk.opened {db : Db} {c : Call} (h : CallOk db c) {id : Uuid}
    (hid : c.created = some id) : Opened db id := by
  obtain ⟨request, created, phase⟩ := c
  obtain rfl : created = some id := hid
  cases phase with
  | begun => cases h
  | checked => cases h
  | free => cases h
  | ownerInserted account | storeInserted account | trialInserted account => cases h.1
  | consenting k _ | opening k | resolving k _ | issuing k _ | describing k _ =>
    obtain rfl : id = k := Option.some.inj h.1
    exact h.2.1
  | returned result => exact (h id rfl).1
  | stopped => exact h id rfl

/-- The account of a call in its transaction is not there yet. -/
theorem CallOk.unborn {db : Db} {c : Call} (h : CallOk db c) {account : NewAccount}
    (hflight : c.phase.inFlight = some account) :
    c.created = none ∧ db.owners.find? account.ownerId = none := by
  obtain ⟨request, created, phase⟩ := c
  cases phase <;> cases hflight <;> exact ⟨h.1, by first | exact h.2 | exact h.2.1⟩

/-- What holds between two steps. -/
structure Inv (s : State) : Prop where
  /-- Consents and subscriptions are of owners there are. -/
  foreignKeys : s.db.ForeignKeys
  /-- Every call knows what is true. -/
  calls : ∀ i c, s.calls.find? i = some c → CallOk s.db c
  /-- No account is two calls'. -/
  distinct : ∀ i j c d id, s.calls.find? i = some c → s.calls.find? j = some d →
    Concerns c id → Concerns d id → i = j

theorem inv_initial {db : Db} (h : db.ForeignKeys) : Inv (State.initial db) where
  foreignKeys := h
  calls := fun i c hc => by cases hc
  distinct := fun i j c d id hc => by cases hc

/-- A call comes further and touches no account but its own. -/
theorem Inv.put {s : State} (h : Inv s) {i : ℕ} {c' : Call} {db' : Db}
    (hkeys : db'.ForeignKeys) (hok : CallOk db' c')
    (hothers : ∀ j d, j ≠ i → s.calls.find? j = some d → CallOk db' d)
    (hown : ∀ j d id, j ≠ i → s.calls.find? j = some d → Concerns d id → ¬ Concerns c' id) :
    Inv ⟨db', s.calls.put i c'⟩ where
  foreignKeys := hkeys
  calls := fun j d hd => by
    rw [Table.find?_put] at hd
    split_ifs at hd with hj
    · cases hd
      exact hok
    · exact hothers j d hj hd
  distinct := fun j k d e id hd he hjd hke => by
    rw [Table.find?_put] at hd he
    split_ifs at hd he with hj hk hk
    · rw [hj, hk]
    · cases hd
      exact absurd hjd (hown k e id hk he hke)
    · cases he
      exact absurd hke (hown j d id hj hd hjd)
    · exact h.distinct j k d e id hd he hjd hke

/-- What the next step of a call leads to. -/
structure Advanced (s : State) (i : ℕ) (c : Call) (db' : Db) (c' : Call) : Prop where
  /-- Consents and subscriptions are of owners there are. -/
  foreignKeys : db'.ForeignKeys
  /-- The call knows what is true. -/
  ok : CallOk db' c'
  /-- It has not been stopped. -/
  unstopped : c'.phase ≠ .stopped
  /-- It touched no account but its own. -/
  touched : db' = s.db ∨ ∃ id, Concerns c id ∧ Grown id s.db db'
  /-- Its account is nobody else's. -/
  own : ∀ id, Concerns c' id → Concerns c id ∨
    ∀ j d, j ≠ i → s.calls.find? j = some d → ¬ Concerns d id
  /-- Consents are owed from the commit to the last of them. -/
  owed_iff : owed c'.phase = 0 ↔ commits c.phase = false ∧ owed c.phase ≤ 1

/-- A step that writes nothing and owes nothing. -/
theorem advanced_stay {s : State} (h : Inv s) {i : ℕ} {c : Call} {phase : Phase}
    (hok : CallOk s.db { c with phase := phase }) (hrunning : phase ≠ .stopped)
    (hflight : phase.inFlight.map (·.ownerId) = c.phase.inFlight.map (·.ownerId) ∨
      phase.inFlight = none)
    (howed : owed phase = 0) (hcommits : commits c.phase = false) (hless : owed c.phase ≤ 1) :
    Advanced s i c s.db { c with phase := phase } where
  foreignKeys := h.foreignKeys
  ok := hok
  unstopped := hrunning
  touched := .inl rfl
  own := fun id hid => by
    rcases hid with hcreated | ⟨account, haccount, hid⟩
    · exact .inl (.inl hcreated)
    · rcases hflight with hsame | hnone
      · have hmap : phase.inFlight.map (·.ownerId) = some id := by
          rw [Option.mem_def.1 haccount, Option.map_some, hid]
        rw [hsame, Option.map_eq_some_iff] at hmap
        exact .inl (.inr hmap)
      · rw [hnone] at haccount
        cases haccount
  owed_iff := ⟨fun _ => ⟨hcommits, hless⟩, fun _ => howed⟩

/-- The account of a transaction is complete once it is committed. -/
theorem opened_withAccount {db : Db} {account : NewAccount}
    (hstore : ∃ store, account.store = some store ∧ store.ownerId = account.ownerId)
    (htrial : ∃ trial, account.trial = some trial ∧ trial.trialEndsAt.isSome) :
    Opened (db.withAccount account) account.ownerId := by
  obtain ⟨store, hstore, howner⟩ := hstore
  obtain ⟨trial, htrial, hends⟩ := htrial
  refine ⟨?_, ⟨store, ?_, howner⟩, trial, ?_, hends⟩
  · rw [Db.withAccount, Table.find?_put, if_pos rfl]
    rfl
  · rw [Db.withAccount, hstore]
    exact List.mem_append_right _ (List.mem_singleton_self _)
  · simp only [Db.withAccount, htrial]
    rw [Table.find?_put, if_pos rfl]

/-- A new owner has agreed to nothing. -/
theorem hasConsent_of_unborn {db : Db} (h : db.ForeignKeys) {id : Uuid}
    (hid : db.owners.find? id = none) (document : LegalDocument) (version : String) :
    db.hasConsent id document version = false := by
  rw [Db.hasConsent, List.any_eq_false]
  intro row hrow hmatch
  simp only [Bool.and_eq_true, decide_eq_true_eq] at hmatch
  have howner := h.consents row hrow
  rw [hmatch.1.1, hid] at howner
  cases howner

theorem foreignKeys_withAccount {db : Db} (h : db.ForeignKeys) (account : NewAccount) :
    (db.withAccount account).ForeignKeys := by
  have howners : ∀ id, (db.owners.find? id).isSome →
      ((db.withAccount account).owners.find? id).isSome := by
    intro id hid
    rw [Db.withAccount, Table.find?_put]
    split_ifs
    · rfl
    · exact hid
  refine ⟨fun row hrow => howners _ (h.consents row hrow), fun id row hrow => ?_⟩
  cases htrial : account.trial with
  | none =>
    simp only [Db.withAccount, htrial] at hrow
    exact howners id (h.subscriptions id row hrow)
  | some trial =>
    simp only [Db.withAccount, htrial] at hrow
    rw [Table.find?_put] at hrow
    split_ifs at hrow with hid
    · rw [hid, Db.withAccount, Table.find?_put, if_pos rfl]
      rfl
    · exact howners id (h.subscriptions id row hrow)

theorem foreignKeys_recordConsent {db : Db} (h : db.ForeignKeys) {id : Uuid}
    (hid : (db.owners.find? id).isSome) (document : LegalDocument) (version : String) :
    (recordConsent db id document version).ForeignKeys := by
  rw [recordConsent]
  split_ifs
  · exact h
  · refine ⟨fun row hrow => ?_, h.subscriptions⟩
    rcases List.mem_append.1 hrow with hold | hnew
    · exact h.consents row hold
    · rw [List.mem_singleton.1 hnew]
      exact hid

/-- A call that answers with its account complete. -/
theorem returned_ok {db : Db} {request : RegisterRequest} {created : Option Uuid} {id : Uuid}
    {result : Except ApiError Uuid} (hcreated : created = some id) (hopened : Opened db id)
    (hagreed : Agreed db id) : CallOk db ⟨request, created, .returned result⟩ := by
  intro k hk
  obtain rfl : id = k := Option.some.inj (hcreated.symm.trans hk)
  exact ⟨hopened, hagreed⟩

/-- A step that writes sessions and tokens alone. -/
theorem advanced_signIn {s : State} (h : Inv s) {i : ℕ} {c : Call} {phase : Phase} {id : Uuid}
    (hcreated : c.created = some id) (sessions : Table Uuid SessionRow)
    (tokens : Table String TokenRow)
    (hok : CallOk { s.db with sessions := sessions, tokens := tokens } { c with phase := phase })
    (hrunning : phase ≠ .stopped) (hflight : phase.inFlight = none) (howed : owed phase = 0)
    (hcommits : commits c.phase = false) (hless : owed c.phase ≤ 1) :
    Advanced s i c { s.db with sessions := sessions, tokens := tokens }
      { c with phase := phase } where
  foreignKeys := ⟨h.foreignKeys.consents, h.foreignKeys.subscriptions⟩
  ok := hok
  unstopped := hrunning
  touched := .inr ⟨id, .inl hcreated, grown_signIn id s.db sessions tokens⟩
  own := fun id' hid => by
    rcases hid with hid | ⟨account, haccount, -⟩
    · exact .inl (.inl hid)
    · rw [hflight] at haccount
      cases haccount
  owed_iff := ⟨fun _ => ⟨hcommits, hless⟩, fun _ => howed⟩

/-- The commit of an account. -/
theorem advanced_commit {s : State} (h : Inv s) {i : ℕ} {c : Call} {account : NewAccount}
    (hphase : c.phase = .trialInserted account) (hok : CallOk s.db c) :
    Advanced s i c (s.db.withAccount account)
      { c with
        created := some account.ownerId
        phase := .consenting account.ownerId LegalDocument.all } := by
  rw [CallOk, hphase] at hok
  obtain ⟨-, hunborn, hstore, htrial⟩ := hok
  have hconcerns : Concerns c account.ownerId := .inr ⟨account, by rw [hphase]; rfl, rfl⟩
  refine ⟨foreignKeys_withAccount h.foreignKeys account, ?_, by simp,
    .inr ⟨_, hconcerns, grown_withAccount s.db account⟩, ?_, ?_⟩
  · refine ⟨rfl, opened_withAccount hstore htrial, List.suffix_refl _, fun document => ?_⟩
    have hnothing : (s.db.withAccount account).hasConsent account.ownerId document
        document.currentVersion = false := hasConsent_of_unborn h.foreignKeys hunborn _ _
    have hall : document ∈ LegalDocument.all := by cases document <;> decide
    rw [hnothing]
    exact ⟨fun hf => (Bool.false_ne_true hf).elim, fun hn => absurd hall hn⟩
  · rintro id (hid | ⟨account', haccount', -⟩)
    · obtain rfl : account.ownerId = id := Option.some.inj hid
      exact .inl hconcerns
    · cases haccount'
  · rw [hphase]
    simp [owed, commits, LegalDocument.all]

/-- One more consent is recorded. -/
theorem advanced_consent {s : State} (h : Inv s) {i : ℕ} {c : Call} {id : Uuid}
    {document : LegalDocument} {left : List LegalDocument}
    (hphase : c.phase = .consenting id (document :: left)) (hok : CallOk s.db c) :
    Advanced s i c (recordConsent s.db id document document.currentVersion)
      { c with phase := .consenting id left } := by
  rw [CallOk, hphase] at hok
  obtain ⟨hcreated, hopened, hsuffix, hconsents⟩ := hok
  have hconcerns : Concerns c id := .inl hcreated
  have hgrown := grown_recordConsent s.db id document document.currentVersion
  have hnodup : (document :: left).Nodup := hsuffix.nodup (by decide)
  refine ⟨foreignKeys_recordConsent h.foreignKeys hopened.owner _ _, ?_, by simp,
    .inr ⟨_, hconcerns, hgrown⟩, ?_, ?_⟩
  · refine ⟨hcreated, ⟨?_, ?_, ?_⟩, (List.suffix_cons _ _).trans hsuffix, fun d => ?_⟩
    · rw [recordConsent]
      split_ifs <;> exact hopened.owner
    · rw [recordConsent]
      split_ifs <;> exact hopened.store
    · rw [recordConsent]
      split_ifs <;> exact hopened.trial
    · rw [hasConsent_recordConsent, Bool.or_eq_true, hconsents d]
      by_cases hd : d = document
      · subst hd
        simp [(List.nodup_cons.1 hnodup).1]
      · have hne : (document == d) = false := beq_eq_false_iff_ne.2 (Ne.symm hd)
        simp [hd, hne]
  · rintro id' (hid | ⟨account, haccount, -⟩)
    · exact .inl (.inl hid)
    · cases haccount
  · rw [hphase]
    simp [owed, commits]

/-- An owner is inserted whose identifier nobody has. -/
theorem advanced_insert {p : Platform} {s : State} (h : Inv s) {i : ℕ} {c : Call} {owner : OwnerRow}
    {id : Uuid} {email : String} (hphase : c.phase = .free) (hcreated : c.created = none)
    (hclaimed : ¬ Claimed p i id email s) (htaken : s.db.owners.find? id = none) :
    Advanced s i c s.db { c with phase := .ownerInserted ⟨id, owner, none, none⟩ } := by
  refine ⟨h.foreignKeys, ⟨hcreated, htaken⟩, by simp, .inl rfl, ?_, ?_⟩
  · rintro id' (hid | ⟨account, haccount, rfl⟩)
    · exact .inl (.inl hid)
    · cases haccount
      refine .inr fun j d hj hd hconcerns => ?_
      rcases hconcerns with hborn | ⟨account, haccount, hsame⟩
      · have howner := ((h.calls j d hd).opened hborn).owner
        rw [htaken] at howner
        cases howner
      · exact Table.not_any.1 hclaimed j d hd ⟨hj, account, haccount, .inl hsame⟩
  · rw [hphase]
    simp [owed, commits]

/-- The next step of a call, whatever it is. -/
theorem advanced_register {p : Platform} {s s' : State} (h : Inv s) {i : ℕ} {c : Call}
    {draw : Draw} (hc : s.calls.find? i = some c) (hr : register p s i c draw = some s') :
    ∃ db' c', s' = ⟨db', s.calls.put i c'⟩ ∧ Advanced s i c db' c' := by
  have hok := h.calls i c hc
  obtain ⟨request, created, phase⟩ := c
  cases phase with
  | begun =>
    simp only [register] at hr
    split at hr <;> cases hr
    · exact ⟨_, _, rfl, advanced_stay h hok (by simp) (.inr rfl) rfl rfl (Nat.zero_le _)⟩
    · obtain rfl : created = none := hok
      exact ⟨_, _, rfl, advanced_stay h (fun id hid => by cases hid) (by simp) (.inr rfl) rfl rfl
        (Nat.zero_le _)⟩
  | checked =>
    simp only [register] at hr
    split at hr <;> cases hr
    · obtain rfl : created = none := hok
      exact ⟨_, _, rfl, advanced_stay h (fun id hid => by cases hid) (by simp) (.inr rfl) rfl rfl
        (Nat.zero_le _)⟩
    · exact ⟨_, _, rfl, advanced_stay h hok (by simp) (.inr rfl) rfl rfl (Nat.zero_le _)⟩
  | free =>
    obtain rfl : created = none := hok
    simp only [register] at hr
    split_ifs at hr with hclaimed htaken <;> cases hr
    · exact ⟨_, _, rfl, advanced_stay h (fun id hid => by cases hid) (by simp) (.inr rfl) rfl rfl
        (Nat.zero_le _)⟩
    · rw [Bool.or_eq_true, not_or, Bool.not_eq_true, Option.isSome_eq_false_iff,
        Option.isNone_iff_eq_none] at htaken
      exact ⟨_, _, rfl, advanced_insert h rfl rfl hclaimed htaken.1⟩
  | ownerInserted account =>
    simp only [register] at hr
    split_ifs at hr <;> cases hr
    · obtain rfl : created = none := hok.1
      exact ⟨_, _, rfl, advanced_stay h (fun id hid => by cases hid) (by simp) (.inr rfl) rfl rfl
        (Nat.zero_le _)⟩
    · exact ⟨_, _, rfl, advanced_stay h ⟨hok.1, hok.2, _, rfl, rfl⟩ (by simp) (.inl rfl) rfl rfl
        (Nat.zero_le _)⟩
  | storeInserted account =>
    cases hr
    exact ⟨_, _, rfl, advanced_stay h ⟨hok.1, hok.2.1, hok.2.2, _, rfl, rfl⟩ (by simp) (.inl rfl)
      rfl rfl (Nat.zero_le _)⟩
  | trialInserted account =>
    cases hr
    exact ⟨_, _, rfl, advanced_commit h rfl hok⟩
  | consenting id left =>
    cases left with
    | nil =>
      cases hr
      have hagreed : Agreed s.db id := fun document _ =>
        (hok.2.2.2 document).2 List.not_mem_nil
      exact ⟨_, _, rfl, advanced_stay h ⟨hok.1, hok.2.1, hagreed⟩ (by simp) (.inr rfl) rfl rfl
        (Nat.zero_le _)⟩
    | cons document left =>
      cases hr
      exact ⟨_, _, rfl, advanced_consent h rfl hok⟩
  | opening id =>
    simp only [register] at hr
    obtain ⟨hcreated, hopened, hagreed⟩ := hok
    split_ifs at hr <;> cases hr
    · exact ⟨_, _, rfl, advanced_stay h (returned_ok hcreated hopened hagreed) (by simp) (.inr rfl)
        rfl rfl (Nat.zero_le _)⟩
    · exact ⟨_, _, rfl, advanced_signIn h hcreated _ _ ⟨hcreated, ⟨hopened.1, hopened.2, hopened.3⟩,
        hagreed⟩ (by simp) rfl rfl rfl (Nat.zero_le _)⟩
  | resolving id sessionId =>
    simp only [register] at hr
    obtain ⟨hcreated, hopened, hagreed⟩ := hok
    split at hr <;> cases hr
    · exact ⟨_, _, rfl, advanced_stay h ⟨hcreated, hopened, hagreed⟩ (by simp) (.inr rfl) rfl rfl
        (Nat.zero_le _)⟩
    · exact ⟨_, _, rfl, advanced_stay h (returned_ok hcreated hopened hagreed) (by simp) (.inr rfl)
        rfl rfl (Nat.zero_le _)⟩
  | issuing id sessionId =>
    simp only [register] at hr
    obtain ⟨hcreated, hopened, hagreed⟩ := hok
    split_ifs at hr <;> cases hr
    · exact ⟨_, _, rfl, advanced_stay h (returned_ok hcreated hopened hagreed) (by simp) (.inr rfl)
        rfl rfl (Nat.zero_le _)⟩
    · exact ⟨_, _, rfl, advanced_signIn h hcreated _ _ ⟨hcreated, ⟨hopened.1, hopened.2, hopened.3⟩,
        hagreed⟩ (by simp) rfl rfl rfl (Nat.zero_le _)⟩
  | describing id sessionId =>
    simp only [register] at hr
    obtain ⟨hcreated, hopened, hagreed⟩ := hok
    split at hr <;> cases hr <;>
      exact ⟨_, _, rfl, advanced_stay h (returned_ok hcreated hopened hagreed) (by simp) (.inr rfl)
        rfl rfl (Nat.zero_le _)⟩
  | returned result => cases hr
  | stopped => cases hr

/-- What the others know survives the step. -/
theorem Advanced.others {s : State} (h : Inv s) {i : ℕ} {c c' : Call} {db' : Db}
    (hc : s.calls.find? i = some c) (ha : Advanced s i c db' c') {j : ℕ} {d : Call} (hj : j ≠ i)
    (hd : s.calls.find? j = some d) : CallOk db' d ∧ (Accounted db' d ↔ Accounted s.db d) := by
  have hok := h.calls j d hd
  rcases ha.touched with rfl | ⟨id, hconcerns, hgrown⟩
  · exact ⟨hok, Iff.rfl⟩
  · have hnot : ¬ Concerns d id := fun hid => hj (h.distinct j i d c id hd hc hid hconcerns)
    have hok' := hok.grown hgrown hnot
    refine ⟨hok', ?_⟩
    have hiff : ∀ k ∈ d.created, (((db'.owners.find? k).isSome → Opened db' k ∧ Agreed db' k) ↔
        ((s.db.owners.find? k).isSome → Opened s.db k ∧ Agreed s.db k)) := by
      intro k hk
      have hne : k ≠ id := fun heq => hnot (.inl (heq ▸ hk))
      have ho := hok.opened hk
      have ho' := hok'.opened hk
      rw [hgrown.agreed_iff hne]
      exact ⟨fun hg _ => ⟨ho, (hg ho'.owner).2⟩, fun hg _ => ⟨ho', (hg ho.owner).2⟩⟩
    exact ⟨fun hg k hk => (hiff k hk).1 (hg k hk), fun hg k hk => (hiff k hk).2 (hg k hk)⟩

theorem Advanced.inv {s : State} (h : Inv s) {i : ℕ} {c c' : Call} {db' : Db}
    (hc : s.calls.find? i = some c) (ha : Advanced s i c db' c') :
    Inv ⟨db', s.calls.put i c'⟩ := by
  refine h.put ha.foreignKeys ha.ok (fun j d hj hd => (ha.others h hc hj hd).1) ?_
  intro j d id hj hd hconcerns hown
  rcases ha.own id hown with hold | hnew
  · exact hj (h.distinct j i d c id hd hc hconcerns hold)
  · exact hnew j d hj hd hconcerns

/-- A call that has not been stopped owes nothing exactly when its account is
complete, or not there. -/
theorem accounted_iff {db : Db} {c : Call} (h : CallOk db c) (hrunning : c.phase ≠ .stopped) :
    Accounted db c ↔ owed c.phase = 0 := by
  obtain ⟨request, created, phase⟩ := c
  have hnone : created = none → Accounted db ⟨request, created, phase⟩ := by
    rintro rfl k hk
    cases hk
  have hsome : ∀ {id}, created = some id → Opened db id → Agreed db id →
      Accounted db ⟨request, created, phase⟩ := by
    rintro id rfl hopened hagreed k hk _
    obtain rfl : id = k := Option.some.inj hk
    exact ⟨hopened, hagreed⟩
  cases phase with
  | begun => exact ⟨fun _ => rfl, fun _ => hnone h⟩
  | checked => exact ⟨fun _ => rfl, fun _ => hnone h⟩
  | free => exact ⟨fun _ => rfl, fun _ => hnone h⟩
  | ownerInserted account => exact ⟨fun _ => rfl, fun _ => hnone h.1⟩
  | storeInserted account => exact ⟨fun _ => rfl, fun _ => hnone h.1⟩
  | trialInserted account => exact ⟨fun _ => rfl, fun _ => hnone h.1⟩
  | consenting id left =>
    obtain ⟨hcreated, hopened, hsuffix, hconsents⟩ := h
    constructor
    · intro hacc
      have hagreed := (hacc id hcreated hopened.owner).2
      rw [owed, List.length_eq_zero_iff, List.eq_nil_iff_forall_not_mem]
      exact fun document hleft =>
        (hconsents document).1 (hagreed document (hsuffix.subset hleft)) hleft
    · intro hzero
      obtain rfl : left = [] := List.length_eq_zero_iff.1 hzero
      exact hsome hcreated hopened fun document _ => (hconsents document).2 List.not_mem_nil
  | opening id => exact ⟨fun _ => rfl, fun _ => hsome h.1 h.2.1 h.2.2⟩
  | resolving id sessionId => exact ⟨fun _ => rfl, fun _ => hsome h.1 h.2.1 h.2.2⟩
  | issuing id sessionId => exact ⟨fun _ => rfl, fun _ => hsome h.1 h.2.1 h.2.2⟩
  | describing id sessionId => exact ⟨fun _ => rfl, fun _ => hsome h.1 h.2.1 h.2.2⟩
  | returned result => exact ⟨fun _ => rfl, fun _ k hk _ => h k hk⟩
  | stopped => exact absurd rfl hrunning

theorem noneWithoutConsent_next {p : Platform} {s s' : State} (h : Inv s) {i : ℕ} {c : Call}
    {draw : Draw} (hc : s.calls.find? i = some c) (hr : register p s i c draw = some s') :
    NoneWithoutConsent s' ↔ NoneWithoutConsent s := by
  obtain ⟨db', c', rfl, ha⟩ := advanced_register h hc hr
  have hgoing : c.phase.ended = false := by
    cases hphase : c.phase <;> first | rfl | (simp [register, hphase] at hr)
  have hmine : c'.phase.ended = true → Accounted db' c' := by
    intro hended
    rw [accounted_iff ha.ok ha.unstopped]
    cases hphase : c'.phase <;> rw [hphase] at hended <;> first | rfl | cases hended
  constructor
  · intro hall j d hd hended
    have hj : j ≠ i := by
      rintro rfl
      rw [Option.some.inj (hc.symm.trans hd)] at hgoing
      exact Bool.false_ne_true (hgoing.symm.trans hended)
    refine (ha.others h hc hj hd).2.1 (hall j d ?_ hended)
    rw [Table.find?_put, if_neg hj]
    exact hd
  · intro hall j d hd hended
    rw [Table.find?_put] at hd
    split_ifs at hd with hj
    · cases hd
      exact hmine hended
    · exact (ha.others h hc hj hd).2.2 (hall j d hd hended)

theorem find?_halt (s : State) (i j : ℕ) : (s.halt i).calls.find? j =
    (s.calls.find? j).map fun c => if j = i then { c with phase := .stopped } else c :=
  Table.find?_mapRows ..

/-- A call that is stopped keeps its account as it is. -/
theorem inv_halt {s : State} (h : Inv s) (i : ℕ) : Inv (s.halt i) where
  foreignKeys := h.foreignKeys
  calls := fun j d hd => by
    rw [find?_halt, Option.map_eq_some_iff] at hd
    obtain ⟨c, hc, rfl⟩ := hd
    split_ifs
    · exact fun k hk => (h.calls j c hc).opened hk
    · exact h.calls j c hc
  distinct := fun j k d e id hd he hjd hke => by
    rw [find?_halt, Option.map_eq_some_iff] at hd he
    obtain ⟨c, hc, rfl⟩ := hd
    obtain ⟨f, hf, rfl⟩ := he
    refine h.distinct j k c f id hc hf ?_ ?_
    · split_ifs at hjd
      · rcases hjd with hcreated | ⟨account, haccount, -⟩
        · exact .inl hcreated
        · cases haccount
      · exact hjd
    · split_ifs at hke
      · rcases hke with hcreated | ⟨account, haccount, -⟩
        · exact .inl hcreated
        · cases haccount
      · exact hke

/-- Stopping a call does no harm exactly when it owes no consent. -/
theorem noneWithoutConsent_halt {s : State} (h : Inv s) {i : ℕ} {c : Call}
    (hc : s.calls.find? i = some c) :
    NoneWithoutConsent (s.halt i) ↔ NoneWithoutConsent s ∧ owed c.phase = 0 := by
  constructor
  · intro hall
    have hmine : Accounted s.db c := hall i { c with phase := .stopped }
      (by rw [find?_halt, hc, Option.map_some, if_pos rfl]) rfl
    refine ⟨fun j d hd hended => ?_, ?_⟩
    · by_cases hj : j = i
      · subst hj
        rw [← Option.some.inj (hc.symm.trans hd)]
        exact hmine
      · exact hall j d (by rw [find?_halt, hd, Option.map_some, if_neg hj]) hended
    · by_cases hstopped : c.phase = .stopped
      · rw [hstopped]
        rfl
      · exact (accounted_iff (h.calls i c hc) hstopped).1 hmine
  · rintro ⟨hall, howed⟩ j d hd hended
    rw [find?_halt, Option.map_eq_some_iff] at hd
    obtain ⟨e, he, rfl⟩ := hd
    split_ifs at hended ⊢ with hj
    · subst hj
      obtain rfl : c = e := Option.some.inj (hc.symm.trans he)
      by_cases hstopped : c.phase = .stopped
      · exact hall j c hc (by rw [hstopped]; rfl)
      · exact (accounted_iff (h.calls j c hc) hstopped).2 howed
    · exact hall j e he hended

/-- A step keeps the invariant, and does no harm exactly when it is safe. -/
theorem noneWithoutConsent_step {p : Platform} {s s' : State} {a : Action} (h : Inv s)
    (hstep : step p s a = some s') :
    Inv s' ∧ (NoneWithoutConsent s' ↔ NoneWithoutConsent s ∧ Safe s a) := by
  cases a with
  | arrive i request =>
    simp only [step] at hstep
    split at hstep <;> cases hstep
    rename_i hnone
    refine ⟨h.put h.foreignKeys rfl (fun j d _ hd => h.calls j d hd) ?_, ?_⟩
    · rintro j d id - - - (hid | ⟨account, haccount, -⟩)
      · cases hid
      · cases haccount
    · refine Iff.trans ⟨fun hall j d hd hended => ?_, fun hall j d hd hended => ?_⟩
        (and_iff_left trivial).symm
      · have hj : j ≠ i := by
          rintro rfl
          cases hnone.symm.trans hd
        exact hall j d (by rw [Table.find?_put, if_neg hj]; exact hd) hended
      · rw [Table.find?_put] at hd
        split_ifs at hd with hj
        · cases hd
          cases hended
        · exact hall j d hd hended
  | next i draw =>
    simp only [step] at hstep
    split at hstep
    · cases hstep
    · rename_i c hc
      obtain ⟨db', c', rfl, ha⟩ := advanced_register h hc hstep
      exact ⟨ha.inv h hc, (noneWithoutConsent_next h hc hstep).trans (and_iff_left trivial).symm⟩
  | fail i =>
    simp only [step] at hstep
    split at hstep
    · cases hstep
    · rename_i c hc
      split_ifs at hstep
      cases hstep
      refine ⟨inv_halt h i, (noneWithoutConsent_halt h hc).trans (and_congr_right' ?_)⟩
      simp only [Safe, hc, Option.mem_def, Option.some.injEq, forall_eq']
  | lose i draw =>
    simp only [step] at hstep
    split at hstep
    · cases hstep
    · rename_i c hc
      obtain ⟨s₁, hr, rfl⟩ := Option.map_eq_some_iff.1 hstep
      have hnext := noneWithoutConsent_next h hc hr
      obtain ⟨db', c', rfl, ha⟩ := advanced_register h hc hr
      have hinv := ha.inv h hc
      have hc' : (s.calls.put i c').find? i = some c' := by rw [Table.find?_put, if_pos rfl]
      refine ⟨inv_halt hinv i, (noneWithoutConsent_halt hinv hc').trans (and_congr hnext ?_)⟩
      rw [ha.owed_iff]
      simp only [Safe, hc, Option.mem_def, Option.some.injEq, forall_eq']

/-- A run does no harm exactly when its steps are safe. -/
theorem noneWithoutConsent_run {p : Platform} {actions : List Action} {s s' : State} (h : Inv s)
    (hrun : run p s actions = some s') :
    NoneWithoutConsent s' ↔ NoneWithoutConsent s ∧ SafeRun p s actions := by
  induction actions generalizing s with
  | nil =>
    cases hrun
    exact (and_iff_left trivial).symm
  | cons a rest ih =>
    obtain ⟨s₁, hstep, hrest⟩ := Option.bind_eq_some_iff.1 hrun
    obtain ⟨hinv, hsafe⟩ := noneWithoutConsent_step h hstep
    have hmore : (∀ s' ∈ step p s a, SafeRun p s' rest) ↔ SafeRun p s₁ rest := by
      rw [hstep]
      simp only [Option.mem_def, Option.some.injEq, forall_eq']
    rw [ih hinv hrest, hsafe, SafeRun, hmore, and_assoc]

theorem noneWithoutConsent_initial (db : Db) : NoneWithoutConsent (State.initial db) := by
  intro i c hc
  cases hc

/-- Registrations leave no account without consent exactly when none of them
ends between the commit of its account and its last consent. -/
theorem none_without_consent_iff {p : Platform} {db : Db} {actions : List Action} {s' : State}
    (hkeys : db.ForeignKeys) (hrun : run p (State.initial db) actions = some s') :
    NoneWithoutConsent s' ↔ SafeRun p (State.initial db) actions :=
  (noneWithoutConsent_run (inv_initial hkeys) hrun).trans
    (and_iff_right (noneWithoutConsent_initial db))

instance (s : State) : (a : Action) → Decidable (Safe s a)
  | .arrive _ _ => inferInstanceAs (Decidable True)
  | .next _ _ => inferInstanceAs (Decidable True)
  | .fail i => inferInstanceAs (Decidable (∀ c ∈ s.calls.find? i, owed c.phase = 0))
  | .lose i _ => inferInstanceAs
      (Decidable (∀ c ∈ s.calls.find? i, commits c.phase = false ∧ owed c.phase ≤ 1))

instance decidableSafeRun (p : Platform) :
    (s : State) → (actions : List Action) → Decidable (SafeRun p s actions)
  | _, [] => inferInstanceAs (Decidable True)
  | s, a :: rest =>
    have : ∀ s', Decidable (SafeRun p s' rest) := fun s' => decidableSafeRun p s' rest
    inferInstanceAs (Decidable (Safe s a ∧ ∀ s' ∈ step p s a, SafeRun p s' rest))

/-- Texts as they are, trials and tokens of thirty days. -/
def plain : Platform := ⟨id, id, id, 30 * DAY, 30 * DAY⟩

/-- Tables without a row. -/
def Db.empty : Db := ⟨Table.empty, [], Table.empty, [], Table.empty, Table.empty⟩

theorem foreignKeys_empty : Db.empty.ForeignKeys where
  consents := fun row hrow => by cases hrow
  subscriptions := fun id row hrow => by cases hrow

/-- A request that agrees to both documents. -/
def ana : RegisterRequest :=
  ⟨"ana@example.com", "password", "Ana", "Ana Store", none, none, none, some "2026-09-01",
    some "2026-09-01"⟩

/-- A call up to the commit of its account. -/
def upToCommit : List Action :=
  .arrive 0 ana :: List.replicate 6 (.next 0 ⟨⟨1⟩, "token", 0⟩)

/-- A registration that is cut off after its last consent leaves no account
without consent. -/
theorem none_without_consent_iff_ana :
    ∃ s', run plain (State.initial Db.empty) (upToCommit ++ [.next 0 ⟨⟨2⟩, "token", 0⟩,
      .lose 0 ⟨⟨2⟩, "token", 0⟩]) = some s' ∧ NoneWithoutConsent s' := by
  obtain ⟨s', hrun⟩ := Option.isSome_iff_exists.1 (by decide :
    (run plain (State.initial Db.empty) (upToCommit ++ [.next 0 ⟨⟨2⟩, "token", 0⟩,
      .lose 0 ⟨⟨2⟩, "token", 0⟩])).isSome = true)
  exact ⟨s', hrun, (none_without_consent_iff foreignKeys_empty hrun).2 (by decide)⟩

/-- The process stops right after the account is committed: it is there, and
nothing was agreed to. -/
theorem account_without_consent :
    ∃ s', run plain (State.initial Db.empty) (upToCommit ++ [.fail 0]) = some s' ∧
      ¬ NoneWithoutConsent s' := by
  obtain ⟨s', hrun⟩ := Option.isSome_iff_exists.1
    (by decide : (run plain (State.initial Db.empty) (upToCommit ++ [.fail 0])).isSome = true)
  refine ⟨s', hrun, fun hall => ?_⟩
  exact absurd ((noneWithoutConsent_run (inv_initial foreignKeys_empty) hrun).1 hall).2 (by decide)

end Kitaza.RegistrationConsent
