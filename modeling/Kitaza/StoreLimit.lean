import Kitaza.AnnouncedPause
import Mathlib.Data.List.Sort
import Mathlib.Data.Prod.Lex

/-!
# How many stores a plan covers

Opening a store counts the stores in one statement and inserts in another,
and nothing in the insert looks at the count again. Two requests that count
before either inserts take the same place. Which stores may take entries is
asked on every write: the oldest, as many as the plan covers.
-/

namespace Kitaza.StoreLimit

open KeyedTable Primitives BillingPlan

/-- A row of `stores`. -/
structure StoreRow where
  /-- The owner. -/
  ownerId : Uuid
  /-- The name. -/
  name : String
  /-- What kind of store it is. -/
  businessType : String
  /-- When it was added. -/
  createdAt : Timestamp
  deriving DecidableEq, Repr

/-- The tables a plan is checked against. -/
structure Db where
  /-- The table `stores`. -/
  stores : Table Uuid StoreRow
  /-- Subscriptions under their owners. -/
  subscriptions : Table Uuid SubscriptionRecord

/-- What the server is configured with. -/
structure Settings where
  /-- How long an account keeps working after its paid time. -/
  grace : ℤ
  /-- Whether accounts have to be paid for. -/
  enforced : Bool
  deriving DecidableEq, Repr

/-- Why a request is refused. -/
inductive Refusal where
  | subscriptionRequired (message : String)
  | upgradeRequired (message : String)
  | failed
  deriving DecidableEq, Repr

/-- The refusal of a paused account. -/
def paused : Refusal :=
  .subscriptionRequired "this account is paused until it is paid; nothing on the phones is lost"

/-- So many stores, in words. -/
def storesInWords (limit : ℤ) : String :=
  toString limit ++ " store" ++ if limit = 1 then "" else "s"

/-- Where a subscription stands. -/
def standing (settings : Settings) (subscription : Option SubscriptionRecord) (now : Timestamp) :
    Standing :=
  Standing.of subscription now settings.grace settings.enforced

/-- How many stores an owner holds. -/
def storeCount (db : Db) (ownerId : Uuid) : ℕ :=
  (db.stores.filter fun _ store => store.ownerId = ownerId).ids.card

/-- The place of a store in the order it was added. -/
def age (entry : Uuid × StoreRow) : Timestamp ×ₗ Uuid := toLex (entry.2.createdAt, entry.1)

/-- An owner's stores, the oldest first. -/
def oldestFirst (db : Db) (ownerId : Uuid) : List (Uuid × StoreRow) :=
  (db.stores.entries.filter fun entry => entry.2.ownerId = ownerId).insertionSort
    fun a b => age a ≤ age b

/-- Whether a store is among the owner's first. -/
def isWithinFirst (db : Db) (ownerId storeId : Uuid) (limit : ℤ) : Bool :=
  ((oldestFirst db ownerId).take limit.toNat).any fun entry => entry.1 = storeId

/-- Whether a request of a store may go ahead. -/
def checkStoreRequest (settings : Settings) (db : Db) (ownerId : Uuid) (isOwner : Bool)
    (subscription : Option SubscriptionRecord) (now : Timestamp) (storeId : Uuid)
    (isWrite : Bool) : Except Refusal Unit :=
  let standing := standing settings subscription now
  if !isOwner && !standing.allowsStaff then
    .error (if standing.canUpload then
      .upgradeRequired "the store's plan no longer includes staff" else paused)
  else if !isWrite then .ok ()
  else if !standing.canUpload then .error paused
  else
    match AnnouncedPause.storeLimit standing with
    | none => .ok ()
    | some limit =>
      if isWithinFirst db ownerId storeId limit then .ok ()
      else .error (.upgradeRequired ("your plan takes new entries in " ++ storesInWords limit))

/-- A request to open a store. -/
structure CreateStoreRequest where
  /-- The name. -/
  name : String
  /-- What kind of store it is. -/
  businessType : Option String
  deriving DecidableEq, Repr

/-- How far a call has come: what it does next. -/
inductive Phase where
  /-- Resolve the owner and their subscription. -/
  | begun
  /-- Check the plan, which may count the stores. -/
  | resolved (subscription : Option SubscriptionRecord)
  /-- Insert the store; `counted` is what the count said, if there was one. -/
  | passed (counted : Option ℕ)
  | returned (result : Except Refusal Uuid)
  deriving DecidableEq

/-- A call. -/
structure Call where
  /-- Who asks. -/
  ownerId : Uuid
  /-- What is asked. -/
  request : CreateStoreRequest
  /-- How far it has come. -/
  phase : Phase
  deriving DecidableEq

/-- The server and its database. -/
structure State where
  /-- What is committed. -/
  db : Db
  /-- The calls so far. -/
  calls : Table ℕ Call

/-- No call yet. -/
def State.initial (db : Db) : State := ⟨db, Table.empty⟩

/-- What can happen next. -/
inductive Action where
  /-- A request arrives. -/
  | arrive (i : ℕ) (ownerId : Uuid) (request : CreateStoreRequest)
  /-- A call does its next step, at an instant and with the identifier it may
  draw. -/
  | next (i : ℕ) (now : Timestamp) (id : Uuid)
  /-- A call fails: an error, a lost connection. -/
  | fail (i : ℕ)
  deriving DecidableEq

/-- Whether this owner may open one more store, and what was counted. -/
def checkNewStore (settings : Settings) (db : Db) (ownerId : Uuid)
    (subscription : Option SubscriptionRecord) (now : Timestamp) : Except Refusal (Option ℕ) :=
  let standing := standing settings subscription now
  if !standing.canUpload then .error paused
  else
    match AnnouncedPause.storeLimit standing with
    | none => .ok none
    | some limit =>
      if limit ≤ storeCount db ownerId then
        .error (.upgradeRequired ("your plan includes " ++ storesInWords limit))
      else .ok (some (storeCount db ownerId))

/-- A call that has come further. -/
def State.advance (s : State) (i : ℕ) (c : Call) (phase : Phase) : State :=
  { s with calls := s.calls.put i { c with phase := phase } }

/-- The next step of a call; absent if it has ended. -/
def createStore (settings : Settings) (s : State) (i : ℕ) (c : Call) (now : Timestamp) (id : Uuid) :
    Option State :=
  match c.phase with
  | .begun => some (s.advance i c (.resolved (s.db.subscriptions.find? c.ownerId)))
  | .resolved subscription =>
    match checkNewStore settings s.db c.ownerId subscription now with
    | .error refusal => some (s.advance i c (.returned (.error refusal)))
    | .ok counted => some (s.advance i c (.passed counted))
  | .passed _ =>
    if (s.db.stores.find? id).isSome then some (s.advance i c (.returned (.error .failed)))
    else
      let store : StoreRow := ⟨c.ownerId, trim c.request.name,
        c.request.businessType.getD "sari_sari", now⟩
      some ({ s with db := { s.db with stores := s.db.stores.put id store } }.advance i c
        (.returned (.ok id)))
  | .returned _ => none

/-- One step of the server. -/
def step (settings : Settings) (s : State) : Action → Option State
  | .arrive i ownerId request =>
    match s.calls.find? i with
    | some _ => none
    | none => some { s with calls := s.calls.put i ⟨ownerId, request, .begun⟩ }
  | .next i now id =>
    match s.calls.find? i with
    | none => none
    | some c => createStore settings s i c now id
  | .fail i =>
    match s.calls.find? i with
    | none => none
    | some c =>
      match c.phase with
      | .returned _ => none
      | _ => some (s.advance i c (.returned (.error .failed)))

/-- Steps one after another. -/
def run (settings : Settings) (s : State) : List Action → Option State
  | [] => some s
  | a :: rest => (step settings s a).bind fun s' => run settings s' rest

theorem mem_oldestFirst {db : Db} {ownerId id : Uuid} {store : StoreRow} :
    (id, store) ∈ oldestFirst db ownerId ↔
      db.stores.find? id = some store ∧ store.ownerId = ownerId := by
  rw [oldestFirst, List.mem_insertionSort, List.mem_filter, Table.mem_entries, decide_eq_true_eq]

theorem oldestFirst_sorted (db : Db) (ownerId : Uuid) :
    (oldestFirst db ownerId).Pairwise fun a b => age a ≤ age b := by
  have : Std.Total fun a b : Uuid × StoreRow => age a ≤ age b := ⟨fun a b => le_total _ _⟩
  have : IsTrans (Uuid × StoreRow) fun a b => age a ≤ age b := ⟨fun _ _ _ => le_trans⟩
  exact List.pairwise_insertionSort _ _

theorem isWithinFirst_iff {db : Db} {ownerId storeId : Uuid} {limit : ℤ} :
    isWithinFirst db ownerId storeId limit = true ↔
      ∃ store, (storeId, store) ∈ (oldestFirst db ownerId).take limit.toNat := by
  rw [isWithinFirst, List.any_eq_true]
  constructor
  · rintro ⟨⟨id, store⟩, hmem, hid⟩
    obtain rfl : id = storeId := of_decide_eq_true hid
    exact ⟨store, hmem⟩
  · rintro ⟨store, hmem⟩
    exact ⟨(storeId, store), hmem, decide_eq_true rfl⟩

/-- The stores a request may write to at an instant. -/
def takesEntries (settings : Settings) (db : Db) (ownerId : Uuid) (isOwner : Bool)
    (now : Timestamp) : Finset Uuid :=
  db.stores.ids.filter fun storeId =>
    checkStoreRequest settings db ownerId isOwner (db.subscriptions.find? ownerId) now storeId true
      = .ok ()

section

variable {settings : Settings} {db : Db} {ownerId : Uuid} {isOwner : Bool} {now : Timestamp}

/-- When a plan with a limit lets a write through. -/
theorem checkStoreRequest_write {subscription : Option SubscriptionRecord} {limit : ℤ}
    {storeId : Uuid}
    (hlimit : AnnouncedPause.storeLimit (standing settings subscription now) = some limit) :
    checkStoreRequest settings db ownerId isOwner subscription now storeId true = .ok () ↔
      ((isOwner = true ∨ (standing settings subscription now).allowsStaff = true) ∧
        (standing settings subscription now).canUpload = true) ∧
      isWithinFirst db ownerId storeId limit = true := by
  simp only [checkStoreRequest, hlimit]
  cases isOwner <;> cases (standing settings subscription now).allowsStaff <;>
    cases (standing settings subscription now).canUpload <;>
    cases isWithinFirst db ownerId storeId limit <;> simp

/-- Stores that take entries are the owner's, as many as the plan covers, and
older than every store of the owner that takes none. -/
theorem takesEntries_oldest {limit : ℤ}
    (hlimit : AnnouncedPause.storeLimit
      (standing settings (db.subscriptions.find? ownerId) now) = some limit) :
    (takesEntries settings db ownerId isOwner now).card ≤ limit.toNat ∧
      ∀ id ∈ takesEntries settings db ownerId isOwner now, ∃ store,
        db.stores.find? id = some store ∧ store.ownerId = ownerId ∧
          ∀ other younger, db.stores.find? other = some younger → younger.ownerId = ownerId →
            other ∉ takesEntries settings db ownerId isOwner now →
              age (id, store) < age (other, younger) := by
  have hfirst : ∀ id ∈ takesEntries settings db ownerId isOwner now,
      ∃ store, (id, store) ∈ (oldestFirst db ownerId).take limit.toNat := by
    intro id hid
    rw [takesEntries, Finset.mem_filter, checkStoreRequest_write hlimit] at hid
    exact isWithinFirst_iff.mp hid.2.2
  constructor
  · have hsub : takesEntries settings db ownerId isOwner now ⊆
        (((oldestFirst db ownerId).take limit.toNat).map Prod.fst).toFinset := by
      intro id hid
      obtain ⟨store, hmem⟩ := hfirst id hid
      exact List.mem_toFinset.mpr (List.mem_map_of_mem hmem)
    have hcard := (Finset.card_le_card hsub).trans (List.toFinset_card_le _)
    rw [List.length_map] at hcard
    exact hcard.trans (List.length_take_le _ _)
  · intro id hid
    obtain ⟨store, hmem⟩ := hfirst id hid
    obtain ⟨hfind, howner⟩ := mem_oldestFirst.mp (List.mem_of_mem_take hmem)
    refine ⟨store, hfind, howner, fun other younger hother hsame hnot => ?_⟩
    have hlisted : (other, younger) ∈ oldestFirst db ownerId := mem_oldestFirst.mpr ⟨hother, hsame⟩
    have hlate : (other, younger) ∉ (oldestFirst db ownerId).take limit.toNat := by
      intro hearly
      rw [takesEntries, Finset.mem_filter, checkStoreRequest_write hlimit] at hid hnot
      exact hnot ⟨Table.mem_ids_of_find? hother, hid.2.1, isWithinFirst_iff.mpr ⟨younger, hearly⟩⟩
    have hdrop : (other, younger) ∈ (oldestFirst db ownerId).drop limit.toNat := by
      rw [← List.take_append_drop limit.toNat (oldestFirst db ownerId)] at hlisted
      exact (List.mem_append.mp hlisted).resolve_left hlate
    have hsorted := oldestFirst_sorted db ownerId
    rw [← List.take_append_drop limit.toNat (oldestFirst db ownerId), List.pairwise_append]
      at hsorted
    refine lt_of_le_of_ne (hsorted.2.2 _ hmem _ hdrop) fun hsameAge => ?_
    obtain rfl : id = other := (Prod.mk.inj (toLex.injective hsameAge)).2
    exact hnot hid

end

/-- The plan covers at most `L` stores at an instant. -/
def Covers (settings : Settings) (db : Db) (ownerId : Uuid) (L : ℤ) (now : Timestamp) : Prop :=
  ∃ limit ≤ L,
    AnnouncedPause.storeLimit (standing settings (db.subscriptions.find? ownerId) now) = some limit

/-- A call about to insert a store counted every store there is. -/
def CountHolds (db : Db) (ownerId : Uuid) : Phase → Prop
  | .passed (some counted) => storeCount db ownerId ≤ counted
  | _ => True

/-- A request that inserts a store for the owner counted every store they hold. -/
def Safe (ownerId : Uuid) (s : State) : Action → Prop
  | .next i _ _ => ∀ c ∈ s.calls.find? i, c.ownerId = ownerId → CountHolds s.db ownerId c.phase
  | _ => True

/-- Every step of a run is safe. -/
def SafeRun (settings : Settings) (ownerId : Uuid) (s : State) : List Action → Prop
  | [] => True
  | a :: rest => Safe ownerId s a ∧ ∀ s' ∈ step settings s a, SafeRun settings ownerId s' rest

/-- The instants at which calls do something. -/
def Action.instant? : Action → Option Timestamp
  | .next _ now _ => some now
  | _ => none

/-- What a call that has come so far knows. -/
def Knows (before : Db) (ownerId : Uuid) (L : ℤ) : Phase → Prop
  | .resolved subscription => subscription = before.subscriptions.find? ownerId
  | .passed counted => ∃ n : ℕ, counted = some n ∧ n < L
  | _ => True

/-- While the owner's requests are answered. -/
structure Inv (before : Db) (ownerId : Uuid) (L : ℤ) (s : State) : Prop where
  /-- No plan changed. -/
  subscriptions : s.db.subscriptions = before.subscriptions
  /-- The plan covers the stores. -/
  within : (storeCount s.db ownerId : ℤ) ≤ L
  /-- Calls know what they found. -/
  knows : ∀ i c, s.calls.find? i = some c → c.ownerId = ownerId → Knows before ownerId L c.phase

section

variable {settings : Settings} {before : Db} {ownerId : Uuid} {L : ℤ} {s s' : State}

/-- A new store is one more for its owner, and none more for anyone else. -/
theorem storeCount_put {db : Db} {id : Uuid} {store : StoreRow}
    (hnew : db.stores.find? id = none) :
    storeCount { db with stores := db.stores.put id store } ownerId =
      storeCount db ownerId + if store.ownerId = ownerId then 1 else 0 := by
  have hfresh : id ∉ (db.stores.filter fun _ row => row.ownerId = ownerId).ids := by
    rw [Table.notMem_ids, Table.find?_filter, hnew]
    rfl
  have hids : ((db.stores.put id store).filter fun _ row => row.ownerId = ownerId).ids =
      if store.ownerId = ownerId then
        insert id (db.stores.filter fun _ row => row.ownerId = ownerId).ids
      else (db.stores.filter fun _ row => row.ownerId = ownerId).ids := by
    ext k
    by_cases hk : k = id
    · subst hk
      by_cases howner : store.ownerId = ownerId
      · simp [Table.mem_ids_filter, howner]
      · simp [Table.mem_ids_filter, howner, hnew]
    · by_cases howner : store.ownerId = ownerId <;>
        simp [Table.mem_ids_filter, howner, Table.find?_put_ne _ _ hk, hk]
  rw [storeCount, hids]
  split_ifs with howner
  · exact Finset.card_insert_of_notMem hfresh
  · rfl

/-- A call comes further. -/
theorem Inv.advance (h : Inv before ownerId L s) {i : ℕ} {c : Call} {phase : Phase}
    (hknows : c.ownerId = ownerId → Knows before ownerId L phase) :
    Inv before ownerId L (s.advance i c phase) := by
  refine ⟨h.subscriptions, h.within, fun j d hd hown => ?_⟩
  simp only [State.advance, Table.find?_put] at hd
  split_ifs at hd with hij
  · obtain rfl := Option.some.inj hd
    exact hknows hown
  · exact h.knows j d hd hown

/-- What a check that passes has counted. -/
theorem knows_of_checkNewStore {db : Db} {now : Timestamp} {counted : Option ℕ}
    (hplan : Covers settings before ownerId L now)
    (h : checkNewStore settings db ownerId (before.subscriptions.find? ownerId) now = .ok counted) :
    Knows before ownerId L (.passed counted) := by
  obtain ⟨limit, hlimit, hcovers⟩ := hplan
  simp only [checkNewStore, hcovers] at h
  split at h
  · contradiction
  · split at h
    · contradiction
    · rename_i _ hroom
      exact ⟨storeCount db ownerId, (Except.ok.inj h).symm, by omega⟩

/-- A store that fits is inserted. -/
theorem Inv.insert (h : Inv before ownerId L s) {i : ℕ} {c : Call} {id : Uuid} {store : StoreRow}
    (hnew : s.db.stores.find? id = none)
    (hroom : store.ownerId = ownerId → (storeCount s.db ownerId : ℤ) < L) :
    Inv before ownerId L ({ s with db := { s.db with stores := s.db.stores.put id store } }.advance
      i c (.returned (.ok id))) := by
  have hreturned : Knows before ownerId L (.returned (.ok id)) := trivial
  have hinserted : Inv before ownerId L
      { s with db := { s.db with stores := s.db.stores.put id store } } := by
    refine ⟨h.subscriptions, ?_, h.knows⟩
    rw [storeCount_put hnew]
    have hwithin := h.within
    split_ifs with howner
    · have hroom := hroom howner
      push_cast
      omega
    · simpa using hwithin
  exact hinserted.advance fun _ => hreturned

/-- What one step of the server keeps. -/
theorem Inv.step {a : Action} (h : Inv before ownerId L s)
    (hplan : ∀ now ∈ a.instant?, Covers settings before ownerId L now)
    (hsafe : Safe ownerId s a) (hstep : step settings s a = some s') : Inv before ownerId L s' := by
  cases a with
  | arrive i owner request =>
    simp only [StoreLimit.step] at hstep
    cases hc : s.calls.find? i with
    | some c => simp [hc] at hstep
    | none =>
      simp only [hc, Option.some.injEq] at hstep
      subst hstep
      have harrived : Inv before ownerId L (s.advance i ⟨owner, request, .begun⟩ .begun) :=
        h.advance fun _ => trivial
      exact harrived
  | fail i =>
    simp only [StoreLimit.step] at hstep
    cases hc : s.calls.find? i with
    | none => simp [hc] at hstep
    | some c =>
      simp only [hc] at hstep
      have hfailed : Knows before ownerId L (.returned (.error .failed)) := trivial
      split at hstep
      · contradiction
      · obtain rfl := Option.some.inj hstep
        exact h.advance fun _ => hfailed
  | next i now id =>
    have hcovers := hplan now rfl
    simp only [StoreLimit.step] at hstep
    cases hc : s.calls.find? i with
    | none => simp [hc] at hstep
    | some c =>
      simp only [hc, createStore] at hstep
      have hknows := h.knows i c hc
      cases hphase : c.phase with
      | begun =>
        simp only [hphase, Option.some.injEq] at hstep
        subst hstep
        exact h.advance fun hown => by rw [Knows, h.subscriptions, hown]
      | resolved subscription =>
        simp only [hphase] at hstep
        cases hcheck : checkNewStore settings s.db c.ownerId subscription now with
        | error refusal =>
          simp only [hcheck, Option.some.injEq] at hstep
          subst hstep
          exact h.advance fun _ => trivial
        | ok counted =>
          simp only [hcheck, Option.some.injEq] at hstep
          subst hstep
          refine h.advance fun hown => ?_
          have hsubscription : subscription = before.subscriptions.find? ownerId := by
            have hk := hknows hown
            rwa [hphase] at hk
          rw [hown, hsubscription] at hcheck
          exact knows_of_checkNewStore hcovers hcheck
      | passed counted =>
        simp only [hphase] at hstep
        split_ifs at hstep with htaken
        · obtain rfl := Option.some.inj hstep
          exact h.advance fun _ => trivial
        · obtain rfl := Option.some.inj hstep
          refine h.insert (Option.not_isSome_iff_eq_none.mp htaken) fun hown => ?_
          have hk := hknows hown
          rw [hphase] at hk
          obtain ⟨n, rfl, hn⟩ := hk
          have hcount := hsafe c hc hown
          rw [hphase] at hcount
          exact lt_of_le_of_lt (Int.ofNat_le.mpr hcount) hn
      | returned result => simp [hphase] at hstep

/-- What a run of the server keeps. -/
theorem Inv.run {actions : List Action} (h : Inv before ownerId L s)
    (hplan : ∀ a ∈ actions, ∀ now ∈ a.instant?, Covers settings before ownerId L now)
    (hsafe : SafeRun settings ownerId s actions) (hrun : run settings s actions = some s') :
    Inv before ownerId L s' := by
  induction actions generalizing s with
  | nil =>
    obtain rfl := Option.some.inj hrun
    exact h
  | cons a rest ih =>
    obtain ⟨s₁, hstep, hrest⟩ := Option.bind_eq_some_iff.mp hrun
    have hmore : ∀ b ∈ rest, ∀ now ∈ b.instant?, Covers settings before ownerId L now :=
      fun b hb => hplan b (List.mem_cons_of_mem _ hb)
    exact ih (h.step (hplan a List.mem_cons_self) hsafe.1 hstep) hmore (hsafe.2 s₁ hstep) hrest

end

/-- If every store of the owner was counted when one is inserted for them, a
plan that covers so many stores keeps covering them; and at every moment
entries are taken in the oldest stores, as many as the plan covers then. -/
theorem limit_kept_if_counted {settings : Settings} {before : Db} {ownerId : Uuid} {L : ℤ}
    {actions : List Action} {s : State} (hwithin : (storeCount before ownerId : ℤ) ≤ L)
    (hplan : ∀ a ∈ actions, ∀ now ∈ a.instant?, Covers settings before ownerId L now)
    (hsafe : SafeRun settings ownerId (State.initial before) actions)
    (hrun : run settings (State.initial before) actions = some s) :
    (storeCount s.db ownerId : ℤ) ≤ L ∧
      ∀ isOwner now limit,
        AnnouncedPause.storeLimit
          (standing settings (s.db.subscriptions.find? ownerId) now) = some limit →
        (takesEntries settings s.db ownerId isOwner now).card ≤ limit.toNat ∧
          ∀ id ∈ takesEntries settings s.db ownerId isOwner now, ∃ store,
            s.db.stores.find? id = some store ∧ store.ownerId = ownerId ∧
              ∀ other younger, s.db.stores.find? other = some younger → younger.ownerId = ownerId →
                other ∉ takesEntries settings s.db ownerId isOwner now →
                  age (id, store) < age (other, younger) := by
  have hstart : Inv before ownerId L (State.initial before) :=
    ⟨rfl, hwithin, fun i c hc => absurd hc (Option.some_ne_none c).symm⟩
  exact ⟨(hstart.run hplan hsafe hrun).within, fun _ _ _ hlimit => takesEntries_oldest hlimit⟩

instance (db : Db) (ownerId : Uuid) : (phase : Phase) → Decidable (CountHolds db ownerId phase)
  | .passed (some counted) => inferInstanceAs (Decidable (storeCount db ownerId ≤ counted))
  | .passed none => inferInstanceAs (Decidable True)
  | .begun => inferInstanceAs (Decidable True)
  | .resolved _ => inferInstanceAs (Decidable True)
  | .returned _ => inferInstanceAs (Decidable True)

instance (ownerId : Uuid) (s : State) : (a : Action) → Decidable (Safe ownerId s a)
  | .arrive _ _ _ => inferInstanceAs (Decidable True)
  | .next i _ _ => inferInstanceAs (Decidable
      (∀ c ∈ s.calls.find? i, c.ownerId = ownerId → CountHolds s.db ownerId c.phase))
  | .fail _ => inferInstanceAs (Decidable True)

instance decidableSafeRun (settings : Settings) (ownerId : Uuid) :
    (s : State) → (actions : List Action) → Decidable (SafeRun settings ownerId s actions)
  | _, [] => inferInstanceAs (Decidable True)
  | s, a :: rest =>
    have : ∀ s', Decidable (SafeRun settings ownerId s' rest) :=
      fun s' => decidableSafeRun settings ownerId s' rest
    inferInstanceAs (Decidable
      (Safe ownerId s a ∧ ∀ s' ∈ step settings s a, SafeRun settings ownerId s' rest))

/-- An owner on the larger plan. -/
def ana : Uuid := ⟨2⟩

/-- A store of Ana's. -/
def anasStore : StoreRow := ⟨ana, "Ana's", "sari_sari", 1⟩

/-- Ana pays for five stores and holds four. -/
def fourStores : Db :=
  ⟨Table.empty.putAll [(⟨3⟩, anasStore), (⟨5⟩, anasStore), (⟨7⟩, anasStore), (⟨9⟩, anasStore)],
    Table.empty.put ana ⟨"pro", none, some 1000⟩⟩

/-- Accounts have to be paid for. -/
def paying : Settings := ⟨0, true⟩

/-- One tap, then the other. -/
def tapTwice : List Action :=
  [.arrive 0 ana ⟨"Ana's", none⟩, .next 0 5 ⟨11⟩, .next 0 5 ⟨11⟩, .next 0 6 ⟨11⟩,
    .arrive 1 ana ⟨"Ana's", none⟩, .next 1 7 ⟨13⟩, .next 1 7 ⟨13⟩]

/-- The second tap counts before the first inserts. -/
def twoTaps : List Action :=
  [.arrive 0 ana ⟨"Ana's", none⟩, .arrive 1 ana ⟨"Ana's", none⟩, .next 0 5 ⟨11⟩, .next 1 5 ⟨11⟩,
    .next 0 5 ⟨11⟩, .next 1 6 ⟨11⟩, .next 0 7 ⟨11⟩, .next 1 8 ⟨13⟩]

theorem fourStores_covered {actions : List Action}
    (h : ∀ a ∈ actions, ∀ now ∈ a.instant?,
      AnnouncedPause.storeLimit (standing paying (fourStores.subscriptions.find? ana) now) = some 5) :
    ∀ a ∈ actions, ∀ now ∈ a.instant?, Covers paying fourStores ana 5 now :=
  fun a ha now hnow => ⟨5, le_rfl, h a ha now hnow⟩

/-- Taps one after the other open one store. -/
theorem limit_kept_if_counted_tapTwice :
    ∃ s, run paying (State.initial fourStores) tapTwice = some s ∧ (storeCount s.db ana : ℤ) ≤ 5 := by
  obtain ⟨s, hrun⟩ : ∃ s, run paying (State.initial fourStores) tapTwice = some s :=
    Option.isSome_iff_exists.mp (by decide)
  refine ⟨s, hrun, (limit_kept_if_counted (by decide) (fourStores_covered (by decide))
    (by decide) hrun).1⟩

/-- Both taps open a store, and Ana holds six. -/
theorem sixth_store_on_pro :
    (storeCount fourStores ana : ℤ) ≤ 5 ∧
      (∀ a ∈ twoTaps, ∀ now ∈ a.instant?, Covers paying fourStores ana 5 now) ∧
      ∃ s, run paying (State.initial fourStores) twoTaps = some s ∧
        ¬ (storeCount s.db ana : ℤ) ≤ 5 := by
  have hcount : (run paying (State.initial fourStores) twoTaps).map
      (fun s => storeCount s.db ana) = some 6 := by decide
  obtain ⟨s, hrun, hsix⟩ := Option.map_eq_some_iff.mp hcount
  refine ⟨by decide, fourStores_covered (by decide), s, hrun, ?_⟩
  rw [hsix]
  decide

end Kitaza.StoreLimit
