import Mathlib.Tactic.Linarith
import Kitaza.RealtimeDelivery

/-!
# Who a store's events reach

A socket sends the events of its own store and nothing else, and it was opened
for somebody the database has let into that store. A device that is signed out
hears from its sockets for as long as a look at its session may take and what
it found is trusted; the first keepalive after that ends them.
-/

namespace Kitaza.Realtime

open BroadcastChannel KeyedTable Primitives SessionDirectory Versions

section

variable {ι : Type} {s s' : State ι}

/-- The look an action completes. -/
def Action.completes : Action ι → Option ℕ
  | .remember n => some n
  | .upgrade _ _ _ (.lookup n) => some n
  | .tick _ (.lookup n) => some n
  | _ => none

/-- What the instances know after some of it was learnt: nothing has been
written, and what is remembered was remembered before or has just been read by
a look that is over. -/
structure Learns (n : Option ℕ) (s s' : State ι) : Prop where
  /-- The clock. -/
  now : s'.now = s.now
  /-- The database. -/
  data : s'.data = s.data
  /-- What is remembered of sessions. -/
  memory : ∀ host sessionId looked actor,
    (s'.memory host).find? sessionId = some (looked, actor) →
      (s.memory host).find? sessionId = some (looked, actor) ∨ looked = s.now ∧
        ∃ m look, n = some m ∧ s.lookups[m]? = some look ∧ look.sessionId = sessionId ∧
          look.actor = actor
  /-- The looks. -/
  lookups : ∀ look ∈ s'.lookups, look ∈ s.lookups
  /-- The confirmed owners. -/
  confirmed : ∀ host, ∀ pair ∈ s'.confirmed host, pair ∈ s.confirmed host ∨
    s.data.now.stores.find? pair.2 = some pair.1

theorem Learns.of_eq {n : Option ℕ} (hnow : s'.now = s.now) (hdata : s'.data = s.data)
    (hmemory : s'.memory = s.memory) (hlookups : s'.lookups = s.lookups)
    (hconfirmed : s'.confirmed = s.confirmed) : Learns n s s' where
  now := hnow
  data := hdata
  memory := fun _ _ _ _ h => .inl (hmemory ▸ h)
  lookups := fun _ h => hlookups ▸ h
  confirmed := fun _ _ h => .inl (hconfirmed ▸ h)

/-- What a socket or a channel does is not learnt from. -/
theorem Learns.sockets {n : Option ℕ} (h : Learns n s s') (sockets : List (Socket ι)) :
    Learns n s { s' with sockets := sockets } :=
  ⟨h.now, h.data, h.memory, h.lookups, h.confirmed⟩

/-- What is remembered was remembered before, or is what was just added. -/
theorem of_find?_remember {resolved : Remembered} {added sessionId : Uuid}
    {now looked : Timestamp} {actor found : Option SessionActor}
    (h : (remember resolved added now actor).find? sessionId = some (looked, found)) :
    resolved.find? sessionId = some (looked, found) ∨
      sessionId = added ∧ looked = now ∧ found = actor := by
  rw [remember, Table.find?_put] at h
  by_cases hid : sessionId = added
  · rw [if_pos hid, Option.some.injEq, Prod.mk.injEq] at h
    exact .inr ⟨hid, h.1.symm, h.2.symm⟩
  · rw [if_neg hid] at h
    by_cases hfull : MAX_REMEMBERED ≤ resolved.ids.card
    · rw [if_pos hfull] at h
      cases h
    · rw [if_neg hfull] at h
      exact .inl h

/-- The database has described the session as somebody of the store, and an
owner's store as theirs. -/
def LetIn (data : Versioned Db) (sessionId storeId : Uuid) : Prop :=
  ∃ actor : SessionActor, data.Since 0 (fun db => db.describe sessionId) (some actor) ∧
    (actor.storeId = some storeId ∨ actor.storeId = none ∧
      data.Since 0 (fun db => db.stores.find? storeId) (some actor.actor.ownerId))

/-- What the instances know the database has said, and every socket was opened
for somebody it let in. -/
structure Trusted (s : State ι) : Prop where
  /-- What is remembered. -/
  memory : ∀ host sessionId looked actor,
    (s.memory host).find? sessionId = some (looked, actor) →
      s.data.Since 0 (fun db => db.describe sessionId) actor
  /-- The looks. -/
  lookups : ∀ look ∈ s.lookups, s.data.Since 0 (fun db => db.describe look.sessionId) look.actor
  /-- The confirmed owners. -/
  confirmed : ∀ host, ∀ pair ∈ s.confirmed host,
    s.data.Since 0 (fun db => db.stores.find? pair.2) (some pair.1)
  /-- The sockets. -/
  sockets : ∀ (k : ℕ) a, s.sockets[k]? = some a → LetIn s.data a.sessionId a.storeId

theorem Trusted.initial (db : Db) (listening : ι → Bool) : Trusted (State.initial db listening) where
  memory := fun _ _ _ _ h => (by cases h)
  lookups := fun _ h => (by cases h)
  confirmed := fun _ _ h => absurd h (Finset.notMem_empty _)
  sockets := fun _ _ h => (by cases h)

/-- Every event on its way has a property, and lies in a channel of its own
store. -/
structure OnTheWay (P : RealtimeEvent → Prop) (s : State ι) : Prop where
  /-- The channels. -/
  channels : ∀ host storeId, ∀ e ∈ s.channels host storeId, e.storeId = storeId ∧ P e
  /-- The messages. -/
  redis : ∀ e ∈ s.redis, P e

/-- Nothing is known from later than now. -/
structure Dated (s : State ι) : Prop where
  /-- What is remembered. -/
  memory : ∀ host sessionId looked actor,
    (s.memory host).find? sessionId = some (looked, actor) → looked ≤ s.now
  /-- The looks. -/
  lookups : ∀ look ∈ s.lookups, look.readAt ≤ s.now

theorem Dated.initial (db : Db) (listening : ι → Bool) : Dated (State.initial db listening) :=
  ⟨fun _ _ _ _ h => (by cases h), fun _ h => (by cases h)⟩

/-- A session has been over since a time, and what still says otherwise was
read before it and remembered no later than `d` after it. -/
structure Fading (d : ℕ) (since : Timestamp) (sessionId : Uuid) (s : State ι) : Prop where
  /-- It is over. -/
  ended : s.data.now.describe sessionId = none
  /-- What is remembered. -/
  memory : ∀ host looked actor,
    (s.memory host).find? sessionId = some (looked, some actor) → looked ≤ since + d
  /-- The looks. -/
  lookups : ∀ look ∈ s.lookups, look.sessionId = sessionId → look.actor ≠ none →
    look.readAt ≤ since

theorem Dated.fading {sessionId : Uuid} (h : Dated s)
    (hover : s.data.now.describe sessionId = none) (d : ℕ) : Fading d s.now sessionId s where
  ended := hover
  memory := by
    intro host looked actor hfind
    have hle := h.memory host sessionId looked (some actor) hfind
    exact hle.trans (le_add_of_nonneg_right (Int.natCast_nonneg d))
  lookups := fun look hlook _ _ => h.lookups look hlook

variable [DecidableEq ι] (settings : StoreLimit.Settings)

theorem learns_remember (s : State ι) (n : ℕ) : Learns (some n) s (s.remember n) := by
  rw [State.remember]
  split
  · exact .of_eq rfl rfl rfl rfl rfl
  next look hlook =>
    refine ⟨rfl, rfl, ?_, fun _ h => List.mem_of_mem_eraseIdx h, fun _ _ h => .inl h⟩
    intro host sessionId looked actor h
    dsimp only at h
    by_cases hhost : host = look.host
    · rw [hhost, Function.update_self] at h
      obtain hbefore | ⟨hid, hlooked, hactor⟩ := of_find?_remember h
      · exact .inl (hhost ▸ hbefore)
      · exact .inr ⟨hlooked, n, look, rfl, hlook, hid.symm, hactor.symm⟩
    · rw [Function.update_of_ne hhost] at h
      exact .inl h

theorem Learns.confirm {n : Option ℕ} (h : Learns n s s') (host : ι) (ownerId storeId : Uuid) :
    Learns n s (s'.confirm host ownerId storeId) := by
  rw [State.confirm]
  split
  next hstore =>
    refine ⟨h.now, h.data, h.memory, h.lookups, fun host' pair hpair => ?_⟩
    dsimp only at hpair
    by_cases hhost : host' = host
    · rw [hhost, Function.update_self, Finset.mem_insert] at hpair
      obtain heq | hmem := hpair
      · rw [heq]
        exact .inr (h.data ▸ hstore)
      · exact hhost ▸ h.confirmed host pair hmem
    · rw [Function.update_of_ne hhost] at hpair
      exact h.confirmed host' pair hpair
  next => exact h

theorem learns_upgrade (s : State ι) (host : ι) (sessionId storeId : Uuid) (source : Source) :
    Learns (Action.upgrade host sessionId storeId source).completes s
      (s.upgrade settings host sessionId storeId source) := by
  have hlearn : Learns (Action.upgrade host sessionId storeId source).completes s
      (s.learn source) := by
    cases source with
    | lookup n => exact learns_remember s n
    | memory => exact .of_eq rfl rfl rfl rfl rfl
    | failure => exact .of_eq rfl rfl rfl rfl rfl
  rw [State.upgrade]
  split
  next actor _ =>
    split
    · dsimp only
      split
      · exact (hlearn.confirm host _ storeId).sockets _
      · exact hlearn.confirm host _ storeId
    · exact hlearn
  · exact hlearn

theorem learns_tick (s : State ι) (k : ℕ) (source : Source) :
    Learns (Action.tick (ι := ι) k source).completes s (s.tick k source) := by
  rw [State.tick]
  split
  · exact .of_eq rfl rfl rfl rfl rfl
  · split
    · exact .of_eq rfl rfl rfl rfl rfl
    · cases source with
      | lookup n => exact (learns_remember s n).sockets _
      | memory => exact .of_eq rfl rfl rfl rfl rfl
      | failure => exact .of_eq rfl rfl rfl rfl rfl

/-- What a step can do to what the instances know. -/
inductive KnowledgeStep (s : State ι) (action : Action ι) (s' : State ι) : Prop where
  | learns (h : Learns action.completes s s')
  | wait (micros : ℕ) (h : s' = { s with now := s.now + micros })
  | commit (db : Db) (haction : action = .commit db) (h : s' = { s with data := s.data.write db })
  | look (host : ι) (sessionId : Uuid) (h : s' = { s with
      lookups := s.lookups ++ [⟨host, sessionId, s.now, s.data.now.describe sessionId⟩] })
  | forget (host : ι) (h : s' = { s with memory := Function.update s.memory host Table.empty })

theorem knowledge_step (s : State ι) (action : Action ι) :
    KnowledgeStep s action (step settings s action) := by
  cases action with
  | wait micros => exact .wait micros rfl
  | commit db => exact .commit db rfl rfl
  | look host sessionId => exact .look host sessionId rfl
  | forget host => exact .forget host rfl
  | remember n => exact .learns (learns_remember s n)
  | confirm host ownerId storeId =>
    exact .learns ((Learns.of_eq rfl rfl rfl rfl rfl).confirm host ownerId storeId)
  | bridge host =>
    refine .learns ?_
    dsimp only [step]
    rw [State.bridge]
    split
    · exact .of_eq rfl rfl rfl rfl rfl
    · split
      · exact .of_eq rfl rfl rfl rfl rfl
      · exact .of_eq rfl rfl rfl rfl rfl
  | upgrade host sessionId storeId source =>
    exact .learns (learns_upgrade settings s host sessionId storeId source)
  | tick k source => exact .learns (learns_tick s k source)
  | publish | unbridge | subscribe | read | hangUp | lose =>
    exact .learns (.of_eq rfl rfl rfl rfl rfl)

/-- Whatever an instance answers about a session, the database has said. -/
theorem Trusted.resolve (h : Trusted s) {host : ι} {sessionId : Uuid} {source : Source}
    {actor : SessionActor} (hfound : s.resolve host sessionId source = some (some actor)) :
    s.data.Since 0 (fun db => db.describe sessionId) (some actor) := by
  cases source with
  | memory =>
    obtain ⟨⟨looked, found⟩, hfind, hmatch⟩ := Option.bind_eq_some_iff.mp hfound
    dsimp only at hmatch
    split at hmatch
    next =>
      rw [Option.some.injEq] at hmatch
      exact hmatch ▸ h.memory host sessionId looked found hfind
    next => cases hmatch
  | lookup n =>
    obtain ⟨look, hlook, hmatch⟩ := Option.bind_eq_some_iff.mp hfound
    split at hmatch
    next hsame =>
      rw [Option.some.injEq] at hmatch
      have hsince := h.lookups look (List.mem_of_getElem? hlook)
      rwa [hsame.2, hmatch] at hsince
    next => cases hmatch
  | failure => cases hfound

theorem Trusted.letIn (h : Trusted s) {host : ι} {sessionId storeId : Uuid}
    (hin : LetsIn s host sessionId storeId) : LetIn s.data sessionId storeId := by
  obtain ⟨source, actor, hfound, hauthorised⟩ := hin
  refine ⟨actor, h.resolve hfound, ?_⟩
  rw [State.authorise] at hauthorised
  split at hauthorised
  next granted hgranted => exact .inl (by rw [hgranted, eq_of_beq hauthorised])
  next howner =>
    refine .inr ⟨howner, ?_⟩
    obtain hknown | hstore := Bool.or_eq_true_iff.mp hauthorised
    · exact h.confirmed host _ (of_decide_eq_true hknown)
    · have hnow := Versioned.since_now (Nat.zero_le s.data.version)
        fun db : Db => db.stores.find? storeId
      rwa [eq_of_beq hstore] at hnow

theorem LetIn.mono {data data' : Versioned Db} {sessionId storeId : Uuid}
    (h : LetIn data sessionId storeId) (he : data.Extends data') : LetIn data' sessionId storeId := by
  obtain ⟨actor, hactor, hstore⟩ := h
  exact ⟨actor, hactor.mono he, hstore.imp id fun ⟨hnone, howner⟩ => ⟨hnone, howner.mono he⟩⟩

/-- The database only moves on. -/
theorem extends_step (s : State ι) (action : Action ι) :
    s.data.Extends (step settings s action).data := by
  obtain hlearns | ⟨micros, heq⟩ | ⟨db, _, heq⟩ | ⟨host, sessionId, heq⟩ | ⟨host, heq⟩ :=
    knowledge_step settings s action
  · rw [hlearns.data]
    exact .refl _
  · rw [heq]
    exact .refl _
  · rw [heq]
    exact Versioned.extends_write s.data db
  · rw [heq]
    exact .refl _
  · rw [heq]
    exact .refl _

theorem Trusted.step (h : Trusted s) (action : Action ι) : Trusted (step settings s action) := by
  have hextends := extends_step settings s action
  have hsockets : ∀ (k : ℕ) b, (Realtime.step settings s action).sockets[k]? = some b →
      LetIn (Realtime.step settings s action).data b.sessionId b.storeId := by
    intro k b hb
    obtain ⟨a, ha, hmoves⟩ | ⟨host, storeId, sessionId, hin, hopened⟩ :=
      (sockets_step settings s action).of_after hb
    · rw [hmoves.grows.sessionId, hmoves.grows.storeId]
      exact (h.sockets k a ha).mono hextends
    · rw [hopened]
      exact (h.letIn hin).mono hextends
  obtain hlearns | ⟨micros, heq⟩ | ⟨db, _, heq⟩ | ⟨host, sessionId, heq⟩ | ⟨host, heq⟩ :=
    knowledge_step settings s action
  · refine ⟨?_, ?_, ?_, hsockets⟩
    · intro host sessionId looked actor hfind
      rw [hlearns.data]
      obtain hbefore | ⟨_, n, look, _, hlook, hid, hactor⟩ :=
        hlearns.memory host sessionId looked actor hfind
      · exact h.memory host sessionId looked actor hbefore
      · rw [← hid, ← hactor]
        exact h.lookups look (List.mem_of_getElem? hlook)
    · intro look hlook
      rw [hlearns.data]
      exact h.lookups look (hlearns.lookups look hlook)
    · intro host pair hpair
      rw [hlearns.data]
      obtain hbefore | hstore := hlearns.confirmed host pair hpair
      · exact h.confirmed host pair hbefore
      · have hnow := Versioned.since_now (Nat.zero_le s.data.version)
          fun db : Db => db.stores.find? pair.2
        rwa [hstore] at hnow
  · rw [heq] at hsockets ⊢
    exact ⟨h.memory, h.lookups, h.confirmed, hsockets⟩
  · rw [heq] at hsockets hextends ⊢
    exact ⟨fun host sessionId looked actor hfind =>
      (h.memory host sessionId looked actor hfind).mono hextends,
      fun look hlook => (h.lookups look hlook).mono hextends,
      fun host pair hpair => (h.confirmed host pair hpair).mono hextends, hsockets⟩
  · rw [heq] at hsockets ⊢
    refine ⟨h.memory, fun look hlook => ?_, h.confirmed, hsockets⟩
    obtain hold | hnew := List.mem_append.mp hlook
    · exact h.lookups look hold
    · rw [List.mem_singleton.mp hnew]
      exact Versioned.since_now (Nat.zero_le s.data.version) fun db : Db => db.describe sessionId
  · rw [heq] at hsockets ⊢
    refine ⟨fun host' sessionId looked actor hfind => ?_, h.lookups, h.confirmed, hsockets⟩
    dsimp only at hfind
    by_cases hhost : host' = host
    · rw [hhost, Function.update_self] at hfind
      cases hfind
    · rw [Function.update_of_ne hhost] at hfind
      exact h.memory host' sessionId looked actor hfind

theorem Trusted.run (h : Trusted s) (actions : List (Action ι)) :
    Trusted (run settings s actions) := by
  induction actions generalizing s with
  | nil => exact h
  | cons action rest ih => exact ih (h.step settings action)

/-- What a step can do to the events on their way. -/
inductive Traffic (s : State ι) (action : Action ι) (s' : State ι) : Prop where
  | still (hchannels : s'.channels = s.channels) (hredis : s'.redis = s.redis)
  | published (host : ι) (e : RealtimeEvent) (carried : Bool)
      (haction : action = .publish host e carried)
      (hchannels : s'.channels = (s.publishLocally host e).channels)
      (hredis : s'.redis = s.redis ∨ s'.redis = s.redis ++ [e])
  | bridged (host : ι) (e : RealtimeEvent) (he : e ∈ s.redis)
      (hchannels : s'.channels = (s.publishLocally host e).channels) (hredis : s'.redis = s.redis)

theorem traffic_remember (s : State ι) (n : ℕ) :
    (s.remember n).channels = s.channels ∧ (s.remember n).redis = s.redis := by
  rw [State.remember]
  split
  · exact ⟨rfl, rfl⟩
  · exact ⟨rfl, rfl⟩

theorem traffic_learn (s : State ι) (source : Source) :
    (s.learn source).channels = s.channels ∧ (s.learn source).redis = s.redis := by
  cases source with
  | lookup n => exact traffic_remember s n
  | memory => exact ⟨rfl, rfl⟩
  | failure => exact ⟨rfl, rfl⟩

theorem traffic_confirm (s : State ι) (host : ι) (ownerId storeId : Uuid) :
    (s.confirm host ownerId storeId).channels = s.channels ∧
      (s.confirm host ownerId storeId).redis = s.redis := by
  rw [State.confirm]
  split
  · exact ⟨rfl, rfl⟩
  · exact ⟨rfl, rfl⟩

theorem traffic_step (s : State ι) (action : Action ι) :
    Traffic s action (step settings s action) := by
  cases action with
  | wait | commit | look | forget | unbridge | subscribe | read | hangUp | lose =>
    exact .still rfl rfl
  | remember n => exact .still (traffic_remember s n).1 (traffic_remember s n).2
  | confirm host ownerId storeId =>
    have hconfirm := traffic_confirm s host ownerId storeId
    exact .still hconfirm.1 hconfirm.2
  | publish host e carried =>
    refine .published host e carried rfl rfl ?_
    cases carried with
    | false => exact .inl rfl
    | true => exact .inr rfl
  | bridge host =>
    dsimp only [step]
    rw [State.bridge]
    split
    · exact .still rfl rfl
    · split
      · exact .still rfl rfl
      next e he => exact .bridged host e (List.mem_of_getElem? he) rfl rfl
  | upgrade host sessionId storeId source =>
    have hlearn := traffic_learn s source
    dsimp only [step]
    rw [State.upgrade]
    split
    next actor _ =>
      have hconfirm := traffic_confirm (s.learn source) host actor.actor.ownerId storeId
      split
      · dsimp only
        split
        · exact .still (hconfirm.1.trans hlearn.1) (hconfirm.2.trans hlearn.2)
        · exact .still (hconfirm.1.trans hlearn.1) (hconfirm.2.trans hlearn.2)
      · exact .still hlearn.1 hlearn.2
    · exact .still hlearn.1 hlearn.2
  | tick k source =>
    have hlearn := traffic_learn s source
    dsimp only [step]
    rw [State.tick]
    split
    · exact .still rfl rfl
    · split
      · exact .still rfl rfl
      · exact .still hlearn.1 hlearn.2

section

variable {P : RealtimeEvent → Prop}

theorem OnTheWay.publishLocally (h : OnTheWay P s) (host : ι) {e : RealtimeEvent} (he : P e) :
    ∀ host' storeId, ∀ e' ∈ (s.publishLocally host e).channels host' storeId,
      e'.storeId = storeId ∧ P e' := by
  intro host' storeId e' hmem
  rw [channels_publishLocally] at hmem
  split at hmem
  next hsame =>
    obtain hold | hnew := List.mem_append.mp hmem
    · rw [hsame.2]
      exact h.channels host e.storeId e' hold
    · rw [List.mem_singleton.mp hnew]
      exact ⟨hsame.2.symm, he⟩
  next => exact h.channels host' storeId e' hmem

theorem OnTheWay.step (h : OnTheWay P s) {action : Action ι}
    (haction : ∀ host e carried, action = .publish host e carried → P e) :
    OnTheWay P (step settings s action) := by
  obtain ⟨hchannels, hredis⟩ | ⟨host, e, carried, hpublish, hchannels, hredis⟩ |
    ⟨host, e, he, hchannels, hredis⟩ := traffic_step settings s action
  · exact ⟨hchannels ▸ h.channels, hredis ▸ h.redis⟩
  · have hP := haction host e carried hpublish
    refine ⟨hchannels ▸ h.publishLocally host hP, fun e' he' => ?_⟩
    obtain heq | heq := hredis
    · exact h.redis e' (heq ▸ he')
    · rw [heq] at he'
      obtain hold | hnew := List.mem_append.mp he'
      · exact h.redis e' hold
      · exact (List.mem_singleton.mp hnew) ▸ hP
  · exact ⟨hchannels ▸ h.publishLocally host (h.redis e he), hredis ▸ h.redis⟩

theorem OnTheWay.run (h : OnTheWay P s) {actions : List (Action ι)}
    (hactions : ∀ host e carried, .publish host e carried ∈ actions → P e) :
    OnTheWay P (run settings s actions) := by
  induction actions generalizing s with
  | nil => exact h
  | cons action rest ih =>
    have hfirst := h.step settings fun host e carried heq =>
      hactions host e carried (heq ▸ List.mem_cons_self)
    exact ih hfirst fun host e carried hmem =>
      hactions host e carried (List.mem_cons_of_mem _ hmem)

end

/-- In every run of any number of instances, a socket was opened for somebody
the database has let into its store, and every event sent on it is one of its
store that was published. -/
theorem hears_own_store (db : Db) (listening : ι → Bool) (actions : List (Action ι)) (k : ℕ)
    (a : Socket ι)
    (ha : (Realtime.run settings (.initial db listening) actions).sockets[k]? = some a) :
    LetIn (Realtime.run settings (.initial db listening) actions).data a.sessionId a.storeId ∧
      ∀ e, .event e ∈ a.frames → e.storeId = a.storeId ∧
        ∃ host carried, .publish host e carried ∈ actions := by
  have htrusted := (Trusted.initial db listening).run settings actions
  have hinv := (inv_initial db listening).run settings actions
  have hway : OnTheWay (fun e => ∃ host carried, .publish host e carried ∈ actions)
      (Realtime.run settings (.initial db listening) actions) := by
    apply OnTheWay.run settings ⟨fun _ _ _ h => (by cases h), fun _ h => (by cases h)⟩
    exact fun host e carried hmem => ⟨host, carried, hmem⟩
  refine ⟨htrusted.sockets k a ha, fun e he => ?_⟩
  have htold := hinv.told k a ha
  have htext : Frame.event e ∈ a.frames.filter Frame.isText := List.mem_filter.mpr ⟨he, rfl⟩
  obtain ⟨item, hitem, hframe⟩ := List.mem_map.mp (htold.carried.subset htext)
  cases item with
  | value e' =>
    cases hframe
    exact hway.channels a.host a.storeId e (htold.accounts.mem_sent hitem)
  | lagged => cases hframe

/-- A look that is completed has read no longer ago than `d`. -/
def Prompt (d : ℕ) (s : State ι) (action : Action ι) : Prop :=
  ∀ n ∈ action.completes, ∀ look ∈ s.lookups[n]?, s.now ≤ look.readAt + d

instance (d : ℕ) (s : State ι) (action : Action ι) : Decidable (Prompt d s action) :=
  inferInstanceAs (Decidable (∀ n ∈ action.completes, ∀ look ∈ s.lookups[n]?, _))

/-- Every step of a run meets a condition on the state it is taken in. -/
def Along (P : State ι → Action ι → Prop) : State ι → List (Action ι) → Prop
  | _, [] => True
  | s, action :: rest => P s action ∧ Along P (step settings s action) rest

instance decidableAlong (P : State ι → Action ι → Prop) [∀ s action, Decidable (P s action)] :
    (s : State ι) → (actions : List (Action ι)) → Decidable (Along settings P s actions)
  | _, [] => isTrue trivial
  | s, action :: rest =>
    have := decidableAlong P (step settings s action) rest
    inferInstanceAs (Decidable (P s action ∧ _))

theorem Dated.step (h : Dated s) (action : Action ι) : Dated (step settings s action) := by
  obtain hlearns | ⟨micros, heq⟩ | ⟨db, _, heq⟩ | ⟨host, sessionId, heq⟩ | ⟨host, heq⟩ :=
    knowledge_step settings s action
  · constructor
    · intro host sessionId looked actor hfind
      rw [hlearns.now]
      obtain hbefore | ⟨hlooked, _⟩ := hlearns.memory host sessionId looked actor hfind
      · exact h.memory host sessionId looked actor hbefore
      · exact hlooked.le
    · intro look hlook
      rw [hlearns.now]
      exact h.lookups look (hlearns.lookups look hlook)
  · have hnow : s.now ≤ s.now + micros := le_add_of_nonneg_right (Int.natCast_nonneg micros)
    rw [heq]
    exact ⟨fun host sessionId looked actor hfind =>
      (h.memory host sessionId looked actor hfind).trans hnow,
      fun look hlook => (h.lookups look hlook).trans hnow⟩
  · rw [heq]
    exact ⟨h.memory, h.lookups⟩
  · rw [heq]
    refine ⟨h.memory, fun look hlook => ?_⟩
    obtain hold | hnew := List.mem_append.mp hlook
    · exact h.lookups look hold
    · rw [List.mem_singleton.mp hnew]
  · rw [heq]
    refine ⟨fun host' sessionId looked actor hfind => ?_, h.lookups⟩
    dsimp only at hfind
    by_cases hhost : host' = host
    · rw [hhost, Function.update_self] at hfind
      cases hfind
    · rw [Function.update_of_ne hhost] at hfind
      exact h.memory host' sessionId looked actor hfind

theorem Dated.run (h : Dated s) (actions : List (Action ι)) : Dated (run settings s actions) := by
  induction actions generalizing s with
  | nil => exact h
  | cons action rest ih => exact ih (h.step settings action)

theorem Fading.step {d : ℕ} {since : Timestamp} {sessionId : Uuid} {action : Action ι}
    (h : Fading d since sessionId s) (hprompt : Prompt d s action)
    (hcommit : ∀ db, action = .commit db → db.describe sessionId = none) :
    Fading d since sessionId (step settings s action) := by
  obtain hlearns | ⟨micros, heq⟩ | ⟨db, haction, heq⟩ | ⟨host, looked, heq⟩ | ⟨host, heq⟩ :=
    knowledge_step settings s action
  · refine ⟨hlearns.data ▸ h.ended, ?_, fun look hlook => h.lookups look (hlearns.lookups look hlook)⟩
    intro host looked actor hfind
    obtain hbefore | ⟨hlooked, n, look, hn, hlook, hid, hactor⟩ :=
      hlearns.memory host sessionId looked (some actor) hfind
    · exact h.memory host looked actor hbefore
    · -- what was just remembered was read while the session was not over
      have hread := h.lookups look (List.mem_of_getElem? hlook) hid (by rw [hactor]; nofun)
      have hlate := hprompt n hn look hlook
      linarith
  · rw [heq]
    exact ⟨h.ended, h.memory, h.lookups⟩
  · rw [heq]
    exact ⟨hcommit db haction, h.memory, h.lookups⟩
  · rw [heq]
    refine ⟨h.ended, h.memory, fun look hlook hid hfound => ?_⟩
    obtain hold | hnew := List.mem_append.mp hlook
    · exact h.lookups look hold hid hfound
    · have hlook' := List.mem_singleton.mp hnew
      rw [hlook'] at hid hfound
      dsimp only at hid hfound
      rw [hid, h.ended] at hfound
      exact absurd rfl hfound
  · rw [heq]
    refine ⟨h.ended, fun host' looked actor hfind => ?_, h.lookups⟩
    dsimp only at hfind
    by_cases hhost : host' = host
    · rw [hhost, Function.update_self] at hfind
      cases hfind
    · rw [Function.update_of_ne hhost] at hfind
      exact h.memory host' looked actor hfind

theorem along_append {P : State ι → Action ι → Prop} {actions rest : List (Action ι)}
    (h : Along settings P s (actions ++ rest)) :
    Along settings P s actions ∧ Along settings P (Realtime.run settings s actions) rest := by
  induction actions generalizing s with
  | nil => exact ⟨trivial, h⟩
  | cons action actions ih =>
    obtain ⟨hfirst, hrest⟩ := ih h.2
    exact ⟨⟨h.1, hfirst⟩, hrest⟩

theorem Fading.run {d : ℕ} {since : Timestamp} {sessionId : Uuid} {actions : List (Action ι)}
    (h : Fading d since sessionId s) (hprompt : Along settings (Prompt d) s actions)
    (hcommit : ∀ db, .commit db ∈ actions → db.describe sessionId = none) :
    Fading d since sessionId (run settings s actions) := by
  induction actions generalizing s with
  | nil => exact h
  | cons action rest ih =>
    have hfirst := h.step settings hprompt.1
      fun db haction => hcommit db (haction ▸ List.mem_cons_self)
    exact ih hfirst hprompt.2 fun db hdb => hcommit db (List.mem_cons_of_mem _ hdb)

/-- Once looks and trust have run out, every answer about the session is that
it is over. -/
theorem Fading.resolve_eq {d : ℕ} {since : Timestamp} {sessionId : Uuid} {k : ℕ} {host : ι}
    {source : Source} {found : Option SessionActor} (h : Fading d since sessionId s)
    (hlate : since + d + TRUST_WINDOW ≤ s.now) (hprompt : Prompt d s (.tick k source))
    (hfound : s.resolve host sessionId source = some found) : found = none := by
  by_contra hne
  obtain ⟨actor, hactor⟩ := Option.ne_none_iff_exists'.mp hne
  rw [hactor] at hfound
  have hwindow : 0 < TRUST_WINDOW := by decide
  cases source with
  | memory =>
    obtain ⟨⟨looked, remembered⟩, hfind, hmatch⟩ := Option.bind_eq_some_iff.mp hfound
    dsimp only at hmatch
    split at hmatch
    next hfresh =>
      rw [Option.some.injEq] at hmatch
      rw [hmatch] at hfind
      have hle := h.memory host looked actor hfind
      linarith
    next => cases hmatch
  | lookup n =>
    obtain ⟨look, hlook, hmatch⟩ := Option.bind_eq_some_iff.mp hfound
    split at hmatch
    next hsame =>
      rw [Option.some.injEq] at hmatch
      have hread := h.lookups look (List.mem_of_getElem? hlook) hsame.2 (by rw [hmatch]; nofun)
      have hnow := hprompt n rfl look hlook
      linarith
    next => cases hmatch
  | failure => cases hfound

/-- A session that is over hears from its sockets no longer than a look may
take and what it found is trusted: the first keepalive after that closes the
socket, and nothing is sent on it again. -/
theorem hung_up_once_over {db : Db} {listening : ι → Bool} {before between after : List (Action ι)}
    {s t u : State ι} {d k : ℕ} {source : Source} {a b : Socket ι}
    (hs : Realtime.run settings (.initial db listening) before = s)
    (hover : s.data.now.describe a.sessionId = none)
    (ht : Realtime.run settings s between = t)
    (hcommit : ∀ db, .commit db ∈ between → db.describe a.sessionId = none)
    (hprompt : Along settings (Prompt d) s (between ++ [.tick k source]))
    (hlate : s.now + d + TRUST_WINDOW ≤ t.now)
    (ha : t.sockets[k]? = some a) (hphase : a.phase = .pumping)
    (hlooked : (t.resolve a.host a.sessionId source).isSome = true)
    (hu : Realtime.run settings (Realtime.step settings t (.tick k source)) after = u)
    (hb : u.sockets[k]? = some b) :
    b.phase = .closed ∧ b.frames = if a.broken then a.frames else a.frames ++ [.close] := by
  have hdated : Dated s := hs ▸ (Dated.initial db listening).run settings before
  obtain ⟨hbetween, hlast⟩ := along_append settings hprompt
  have hfading : Fading d s.now a.sessionId t :=
    ht ▸ (hdated.fading hover d).run settings hbetween hcommit
  rw [ht] at hlast
  obtain ⟨found, hfound⟩ := Option.isSome_iff_exists.mp hlooked
  have hnone : found = none := hfading.resolve_eq hlate hlast.1 hfound
  have hclosed : (Realtime.step settings t (.tick k source)).sockets[k]? =
      some (a.check none) := by
    dsimp only [Realtime.step]
    rw [State.tick, ha]
    dsimp only
    rw [hfound, hnone]
    dsimp only
    rw [State.withSocket, List.getElem?_modify_eq, sockets_learn, ha]
    rfl
  obtain ⟨b', hb', hgrows⟩ := grows_run settings after hclosed
  rw [hu, hb] at hb'
  have hcheck : a.check none =
      { a with
        phase := .closed
        frames := if a.broken then a.frames else a.frames ++ [.close] } := by
    rw [Socket.check, if_pos hphase]
    exact if_pos rfl
  rw [hcheck, ← Option.some.inj hb'] at hgrows
  exact hgrows.closed rfl

end

/-- The tablet's socket opens, and the sale reaches it. -/
def tabletListens : List (Action Bool) := tabletOpens ++ [.publish true saleRung true, .bridge false, .read 0]

/-- The sale is one of the tablet's store, whose owner uses it. -/
theorem hears_own_store_tablet :
    ∃ a, (run ⟨0, false⟩ (.initial tabletDb fun _ => true) tabletListens).sockets[0]? = some a ∧
      LetIn (run ⟨0, false⟩ (.initial tabletDb fun _ => true) tabletListens).data ⟨5⟩ ⟨0⟩ ∧
      ∀ e, .event e ∈ a.frames → e.storeId = ⟨0⟩ ∧
        ∃ host carried, .publish host e carried ∈ tabletListens :=
  ⟨tabletSocket true, by decide, hears_own_store ⟨0, false⟩ tabletDb (fun _ => true) tabletListens 0
    (tabletSocket true) (by decide)⟩

/-- The tablet is signed out. -/
def tabletLost : Db :=
  { tabletDb with sessions := Table.empty.put ⟨5⟩ ⟨⟨8⟩, none, "tablet", 0, some 0⟩ }

/-- The tablet is signed out, twenty seconds later a keepalive comes, and then a
sale is rung up. -/
def tabletSignedOut : List (Action Bool) :=
  tabletOpens ++ [.commit tabletLost] ++ [.wait 20000000, .look false ⟨5⟩] ++
    [.tick 0 (.lookup 0), .publish false saleRung true, .read 0]

/-- The keepalive closes the tablet's socket, and the sale is not sent to it. -/
theorem hung_up_once_over_tablet :
    ∃ b, (run ⟨0, false⟩ (.initial tabletDb fun _ => true) tabletSignedOut).sockets[0]? = some b ∧
      b.phase = .closed ∧ b.frames = [.close] :=
  ⟨{ tabletSocket false with phase := .closed, frames := [.close] }, by decide,
    @hung_up_once_over _ _ ⟨0, false⟩ tabletDb (fun _ => true) (tabletOpens ++ [.commit tabletLost])
      [.wait 20000000, .look false ⟨5⟩] [.publish false saleRung true, .read 0] _ _ _ 0 0
      (.lookup 0) (tabletSocket false) _ rfl (by decide) rfl (fun db h => by simp at h) (by decide)
      (by decide) (by decide) rfl (by decide) rfl (by decide)⟩

end Kitaza.Realtime
