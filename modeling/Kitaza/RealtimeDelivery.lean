import Kitaza.Realtime

/-!
# No event is missed in silence

A socket that has read its channel to the end, over a connection that held,
has sent every event that reached the channel since it subscribed, or a notice
that tells the phone to download again. That goes for the events of all
instances as long as Redis carried them and the bridge still listens.
-/

namespace Kitaza.Realtime

open BroadcastChannel KeyedTable Primitives SessionDirectory Versions

section

variable {ι : Type} {channel : List RealtimeEvent} {a b : Socket ι}

/-- What one step can do to a socket whose channel has sent so much. -/
inductive Socket.Moves (channel : List RealtimeEvent) (a : Socket ι) : Socket ι → Prop where
  | stay : Moves channel a a
  | subscribe : Moves channel a (a.subscribe channel)
  | read : Moves channel a (a.read channel)
  | check (found : Option SessionActor) : Moves channel a (a.check found)
  | hangUp : Moves channel a a.hangUp
  | lose : Moves channel a a.lose

/-- A socket stays the same socket, and what it was given and what it sent is
not undone. -/
structure Socket.Grows (a b : Socket ι) : Prop where
  /-- It stays where it is. -/
  host : b.host = a.host
  /-- It stays with its store. -/
  storeId : b.storeId = a.storeId
  /-- It stays somebody's. -/
  sessionId : b.sessionId = a.sessionId
  /-- What it was given. -/
  received : a.received <+: b.received
  /-- What it sent. -/
  frames : a.frames <+: b.frames
  /-- It subscribes once. -/
  start : a.phase ≠ .accepted → b.phase ≠ .accepted ∧ b.start = a.start
  /-- A connection that is gone stays gone. -/
  broken : b.broken = false → a.broken = false
  /-- A closed socket sends nothing. -/
  closed : a.phase = .closed → b.phase = .closed ∧ b.frames = a.frames

theorem Socket.Grows.refl (a : Socket ι) : a.Grows a :=
  ⟨rfl, rfl, rfl, List.prefix_rfl, List.prefix_rfl, fun h => ⟨h, rfl⟩, id, fun h => ⟨h, rfl⟩⟩

theorem Socket.Grows.trans {c : Socket ι} (h : a.Grows b) (h' : b.Grows c) : a.Grows c where
  host := h'.host.trans h.host
  storeId := h'.storeId.trans h.storeId
  sessionId := h'.sessionId.trans h.sessionId
  received := h.received.trans h'.received
  frames := h.frames.trans h'.frames
  start := by
    intro ha
    obtain ⟨hb, hstart⟩ := h.start ha
    exact ⟨(h'.start hb).1, (h'.start hb).2.trans hstart⟩
  broken := fun hc => h.broken (h'.broken hc)
  closed := by
    intro ha
    obtain ⟨hb, hframes⟩ := h.closed ha
    exact ⟨(h'.closed hb).1, (h'.closed hb).2.trans hframes⟩

/-- A socket that is not pumping stays as it is when its channel is read or
its session looked at. -/
theorem Socket.read_of_ne (h : a.phase ≠ .pumping) : a.read channel = a := if_neg h

theorem Socket.check_of_ne {found : Option SessionActor} (h : a.phase ≠ .pumping) :
    a.check found = a := if_neg h

theorem Socket.Moves.grows (h : a.Moves channel b) : a.Grows b := by
  cases h with
  | stay => exact .refl a
  | subscribe =>
    rw [Socket.subscribe]
    split
    next hphase =>
      exact ⟨rfl, rfl, rfl, List.prefix_rfl, List.prefix_rfl, fun h => absurd hphase h, id,
        fun h => absurd (hphase.symm.trans h) (by decide)⟩
    next => exact .refl a
  | read =>
    by_cases hphase : a.phase = .pumping
    · have hopen : a.phase ≠ .closed := by rw [hphase]; decide
      rw [Socket.read, if_pos hphase]
      split
      · exact .refl a
      · split
        · exact ⟨rfl, rfl, rfl, List.prefix_append _ _, List.prefix_rfl,
            fun _ => ⟨nofun, rfl⟩, id, fun h => absurd h hopen⟩
        · exact ⟨rfl, rfl, rfl, List.prefix_append _ _, List.prefix_append _ _,
            fun h => ⟨h, rfl⟩, id, fun h => absurd h hopen⟩
      · refine ⟨rfl, rfl, rfl, List.prefix_append _ _, ?_, fun h => ⟨h, rfl⟩, id,
          fun h => absurd h hopen⟩
        dsimp only
        split
        · exact List.prefix_rfl
        · exact List.prefix_append _ _
    · rw [Socket.read_of_ne hphase]
      exact .refl a
  | check found =>
    by_cases hphase : a.phase = .pumping
    · have hopen : a.phase ≠ .closed := by rw [hphase]; decide
      rw [Socket.check, if_pos hphase]
      split
      · refine ⟨rfl, rfl, rfl, List.prefix_rfl, ?_, fun _ => ⟨nofun, rfl⟩, id,
          fun h => absurd h hopen⟩
        dsimp only
        split
        · exact List.prefix_rfl
        · exact List.prefix_append _ _
      · split
        · exact ⟨rfl, rfl, rfl, List.prefix_rfl, List.prefix_rfl, fun _ => ⟨nofun, rfl⟩, id,
            fun h => absurd h hopen⟩
        · exact ⟨rfl, rfl, rfl, List.prefix_rfl, List.prefix_append _ _, fun h => ⟨h, rfl⟩, id,
            fun h => absurd h hopen⟩
    · rw [Socket.check_of_ne hphase]
      exact .refl a
  | hangUp =>
    exact ⟨rfl, rfl, rfl, List.prefix_rfl, List.prefix_rfl, fun _ => ⟨nofun, rfl⟩,
      id, fun _ => ⟨rfl, rfl⟩⟩
  | lose =>
    exact ⟨rfl, rfl, rfl, List.prefix_rfl, List.prefix_rfl, fun h => ⟨h, rfl⟩,
      nofun, fun h => ⟨h, rfl⟩⟩

/-- What a socket was given accounts for its channel, and what it sent tells
of it. -/
structure Socket.Told (channel : List RealtimeEvent) (a : Socket ι) : Prop where
  /-- What it was given reaches from where it subscribed to where it reads. -/
  accounts : Accounts channel a.start a.received a.next
  /-- It has not read past the end. -/
  next_le : a.next ≤ channel.length
  /-- Nothing happens before it subscribes. -/
  fresh : a.phase = .accepted → a.received = [] ∧ a.frames = []
  /-- What it sent of the channel it was given. -/
  carried : (a.frames.filter Frame.isText).Sublist (a.received.map frameOf)
  /-- Over a connection that holds it sent all of it. -/
  complete : a.phase ≠ .closed → a.broken = false →
    a.frames.filter Frame.isText = a.received.map frameOf

theorem Socket.told_opened (host : ι) (storeId sessionId : Uuid) :
    (Socket.opened host storeId sessionId).Told channel :=
  ⟨.nil 0, Nat.zero_le _, fun _ => ⟨rfl, rfl⟩, List.Sublist.refl _, fun _ _ => rfl⟩

theorem Socket.Told.extend {longer : List RealtimeEvent} (h : a.Told channel)
    (hp : channel <+: longer) : a.Told longer :=
  ⟨h.accounts.extend hp, h.next_le.trans hp.length_le, h.fresh, h.carried, h.complete⟩

/-- Reading keeps within what was sent. -/
theorem recv_le {next next' : ℕ} {item : Received RealtimeEvent}
    (h : recv CHANNEL_CAPACITY channel next = some (item, next')) : next' ≤ channel.length := by
  rw [recv] at h
  split at h
  · cases h
    exact Nat.sub_le _ _
  · obtain ⟨e, he, heq⟩ := Option.map_eq_some_iff.mp h
    cases heq
    obtain ⟨hlt, _⟩ := List.getElem?_eq_some_iff.mp he
    exact hlt

theorem Socket.Told.read (h : a.Told channel) : (a.read channel).Told channel := by
  by_cases hphase : a.phase = .pumping
  · have hopen : a.phase ≠ .closed := by rw [hphase]; decide
    rw [Socket.read, if_pos hphase]
    split
    · exact h
    next e next' hrecv =>
      have haccounts := h.accounts.recv hrecv
      have hle := recv_le hrecv
      split
      next =>
        refine ⟨haccounts, hle, nofun, ?_, fun h => absurd rfl h⟩
        rw [List.map_append]
        exact h.carried.trans (List.sublist_append_left _ _)
      next =>
        refine ⟨haccounts, hle, fun h => absurd (hphase.symm.trans h) (by decide), ?_, ?_⟩
        · rw [List.filter_append, List.map_append]
          exact h.carried.append (List.Sublist.refl _)
        · intro _ hheld
          rw [List.filter_append, List.map_append, h.complete hopen hheld]
          rfl
    next missed next' hrecv =>
      refine ⟨h.accounts.recv hrecv, recv_le hrecv,
        fun h => absurd (hphase.symm.trans h) (by decide), ?_, ?_⟩
      · dsimp only
        rw [List.map_append]
        split
        · exact h.carried.trans (List.sublist_append_left _ _)
        · rw [List.filter_append]
          exact h.carried.append (List.Sublist.refl _)
      · intro _ hheld
        change a.broken = false at hheld
        dsimp only
        rw [if_neg (by rw [hheld]; decide), List.filter_append, List.map_append,
          h.complete hopen hheld]
        rfl
  · rw [Socket.read_of_ne hphase]
    exact h

theorem Socket.Told.check (h : a.Told channel) (found : Option SessionActor) :
    (a.check found).Told channel := by
  by_cases hphase : a.phase = .pumping
  · have hopen : a.phase ≠ .closed := by rw [hphase]; decide
    rw [Socket.check, if_pos hphase]
    split
    · refine ⟨h.accounts, h.next_le, nofun, ?_, fun h => absurd rfl h⟩
      dsimp only
      split
      · exact h.carried
      · rw [List.filter_append]
        exact (List.append_nil _).symm ▸ h.carried
    · split
      · exact ⟨h.accounts, h.next_le, nofun, h.carried, fun h => absurd rfl h⟩
      · refine ⟨h.accounts, h.next_le, fun h => absurd (hphase.symm.trans h) (by decide), ?_, ?_⟩
        · rw [List.filter_append]
          exact (List.append_nil _).symm ▸ h.carried
        · intro _ hheld
          rw [List.filter_append, h.complete hopen hheld]
          exact List.append_nil _
  · rw [Socket.check_of_ne hphase]
    exact h

/-- Whatever happens to a socket, it has told what it was given. -/
theorem Socket.Told.moves (h : a.Told channel) (hm : a.Moves channel b) : b.Told channel := by
  cases hm with
  | stay => exact h
  | subscribe =>
    rw [Socket.subscribe]
    split
    next hphase =>
      obtain ⟨hreceived, hframes⟩ := h.fresh hphase
      refine ⟨?_, le_rfl, nofun, h.carried, ?_⟩
      · dsimp only
        rw [hreceived]
        exact .nil _
      · intro _ _
        dsimp only
        rw [hreceived, hframes]
        rfl
    next => exact h
  | read => exact h.read
  | check found => exact h.check found
  | hangUp => exact ⟨h.accounts, h.next_le, nofun, h.carried, fun h => absurd rfl h⟩
  | lose => exact ⟨h.accounts, h.next_le, h.fresh, h.carried, fun _ => nofun⟩

/-- An event that lies in a socket's channel past what the socket had read is
sent, or a notice instead of it, once the socket has read the channel. -/
theorem Socket.Told.sent_since {longer : List RealtimeEvent}
    (ha : a.Told channel) (hb : b.Told longer) (hp : channel <+: longer) (hgrows : a.Grows b)
    (hphase : a.phase = .pumping) (hopen : b.phase ≠ .closed) (hheld : b.broken = false)
    (hread : b.next = longer.length) {i : ℕ} {e : RealtimeEvent} (hi : channel.length ≤ i)
    (he : longer[i]? = some e) :
    .event e ∈ b.frames.drop a.frames.length ∨ .stale ∈ b.frames.drop a.frames.length := by
  have hopenBefore : a.phase ≠ .closed := fun h => hopen (hgrows.closed h).1
  have hstart : b.start = a.start := (hgrows.start (by rw [hphase]; decide)).2
  obtain ⟨received, hreceived⟩ := hgrows.received
  obtain ⟨frames, hframes⟩ := hgrows.frames
  have haccounts : Accounts longer a.next received b.next := by
    apply (ha.accounts.extend hp).drop
    rw [hreceived, ← hstart]
    exact hb.accounts
  have htext : frames.filter Frame.isText = received.map frameOf := by
    have hall := hb.complete hopen hheld
    rw [← hframes, ← hreceived, List.filter_append, List.map_append,
      ha.complete hopenBefore (hgrows.broken hheld)] at hall
    exact List.append_cancel_left hall
  have hsent : ∀ item ∈ received, frameOf item ∈ b.frames.drop a.frames.length := by
    intro item hitem
    have hmem : frameOf item ∈ frames.filter Frame.isText := by
      rw [htext]
      exact List.mem_map_of_mem hitem
    rw [← hframes, List.drop_left]
    exact (List.mem_filter.mp hmem).1
  obtain ⟨hlt, _⟩ := List.getElem?_eq_some_iff.mp he
  obtain hvalue | ⟨missed, hlagged⟩ := haccounts.told he (ha.next_le.trans hi) (by omega)
  · exact .inl (hsent _ hvalue)
  · exact .inr (hsent _ hlagged)

end

section

variable {ι : Type} {s s' : State ι}

/-- Nothing sent is taken back, and a bridge hands on every message it has
passed, to the channel of the store it is about. -/
structure Carries (s s' : State ι) : Prop where
  /-- The channels. -/
  channels : ∀ host storeId, s.channels host storeId <+: s'.channels host storeId
  /-- The messages. -/
  redis : s.redis <+: s'.redis
  /-- The bridges. -/
  bridges : ∀ host next', s'.bridges host = some next' → ∃ next, s.bridges host = some next ∧
    next ≤ next' ∧ ∀ m, next ≤ m → m < next' → ∃ e i, s'.redis[m]? = some e ∧
      (s.channels host e.storeId).length ≤ i ∧ (s'.channels host e.storeId)[i]? = some e

theorem Carries.refl (s : State ι) : Carries s s :=
  ⟨fun _ _ => List.prefix_rfl, List.prefix_rfl,
    fun _ next h => ⟨next, h, le_rfl, fun m hle hlt => absurd hle (by omega)⟩⟩

theorem Carries.trans {s'' : State ι} (h : Carries s s') (h' : Carries s' s'') :
    Carries s s'' where
  channels := fun host storeId => (h.channels host storeId).trans (h'.channels host storeId)
  redis := h.redis.trans h'.redis
  bridges := by
    intro host next'' hnext''
    obtain ⟨next', hnext', hle', hlater⟩ := h'.bridges host next'' hnext''
    obtain ⟨next, hnext, hle, hearlier⟩ := h.bridges host next' hnext'
    refine ⟨next, hnext, hle.trans hle', fun m hfrom hto => ?_⟩
    by_cases hm : m < next'
    · obtain ⟨e, i, hredis, hi, he⟩ := hearlier m hfrom hm
      exact ⟨e, i, getElem?_extend h'.redis hredis, hi,
        getElem?_extend (h'.channels host e.storeId) he⟩
    · obtain ⟨e, i, hredis, hi, he⟩ := hlater m (by omega) hto
      exact ⟨e, i, hredis, (h.channels host e.storeId).length_le.trans hi, he⟩

/-- A step that leaves the channels alone. -/
theorem Carries.of_eq (hchannels : s'.channels = s.channels) (hredis : s'.redis = s.redis)
    (hbridges : s'.bridges = s.bridges) : Carries s s' where
  channels := fun host storeId => by rw [hchannels]
  redis := by rw [hredis]
  bridges := by
    intro host next hnext
    rw [hbridges] at hnext
    exact ⟨next, hnext, le_rfl, fun m hle hlt => absurd hle (by omega)⟩

/-- What holds of the instances in every run. -/
structure Inv (s : State ι) : Prop where
  /-- Every socket has told what it was given. -/
  told : ∀ (k : ℕ) (a : Socket ι), s.sockets[k]? = some a → a.Told (s.channelOf a)
  /-- No bridge is past what Redis carried. -/
  bridges : ∀ host next, s.bridges host = some next → next ≤ s.redis.length

theorem inv_initial (db : Db) (listening : ι → Bool) : Inv (State.initial db listening) where
  told := fun _ _ h => (by cases h)
  bridges := by
    intro host next h
    simp only [State.initial, Option.ite_none_right_eq_some, Option.some.injEq] at h
    exact h.2 ▸ Nat.zero_le _

variable [DecidableEq ι]

/-- An instance lets a session listen to a store. -/
def LetsIn (s : State ι) (host : ι) (sessionId storeId : Uuid) : Prop :=
  ∃ source actor, s.resolve host sessionId source = some (some actor) ∧
    s.authorise host actor storeId = true

/-- One step moves one socket, or opens one, or leaves them. -/
inductive SocketsStep (s s' : State ι) : Prop where
  | move (k : ℕ) (f : Socket ι → Socket ι)
      (hmoves : ∀ a, s.sockets[k]? = some a → a.Moves (s.channelOf a) (f a))
      (hsockets : s'.sockets = s.sockets.modify k f)
  | opened (host : ι) (storeId sessionId : Uuid) (hin : LetsIn s host sessionId storeId)
      (hsockets : s'.sockets = s.sockets ++ [Socket.opened host storeId sessionId])
  | stay (hsockets : s'.sockets = s.sockets)

/-- A socket after a step is one before it that moved, or has just been
opened. -/
theorem SocketsStep.of_after (h : SocketsStep s s') {k : ℕ} {b : Socket ι}
    (hb : s'.sockets[k]? = some b) :
    (∃ a, s.sockets[k]? = some a ∧ a.Moves (s.channelOf a) b) ∨
      (∃ host storeId sessionId, LetsIn s host sessionId storeId ∧
        b = Socket.opened host storeId sessionId) := by
  cases h with
  | move j f hmoves hsockets =>
    rw [hsockets, List.getElem?_modify] at hb
    obtain ⟨a, ha, heq⟩ := Option.map_eq_some_iff.mp hb
    refine .inl ⟨a, ha, ?_⟩
    by_cases hjk : j = k
    · rw [if_pos hjk] at heq
      rw [← heq]
      exact hmoves a (hjk ▸ ha)
    · rw [if_neg hjk] at heq
      rw [← heq]
      exact .stay
  | opened host storeId sessionId hin hsockets =>
    rw [hsockets] at hb
    by_cases hk : k < s.sockets.length
    · rw [List.getElem?_append_left hk] at hb
      exact .inl ⟨b, hb, .stay⟩
    · have hlast : b = Socket.opened host storeId sessionId := by
        rw [List.getElem?_append_right (by omega)] at hb
        exact List.mem_singleton.mp (List.mem_of_getElem? hb)
      exact .inr ⟨host, storeId, sessionId, hin, hlast⟩
  | stay hsockets =>
    rw [hsockets] at hb
    exact .inl ⟨b, hb, .stay⟩

/-- A socket is still there after a step, and has moved. -/
theorem SocketsStep.of_before (h : SocketsStep s s') {k : ℕ} {a : Socket ι}
    (ha : s.sockets[k]? = some a) :
    ∃ b, s'.sockets[k]? = some b ∧ a.Moves (s.channelOf a) b := by
  cases h with
  | move j f hmoves hsockets =>
    by_cases hjk : j = k
    · refine ⟨f a, ?_, hmoves a (hjk ▸ ha)⟩
      rw [hsockets, hjk, List.getElem?_modify_eq, ha]
      rfl
    · exact ⟨a, by rw [hsockets, List.getElem?_modify_ne _ _ hjk, ha], .stay⟩
  | opened host storeId sessionId hin hsockets =>
    obtain ⟨hk, _⟩ := List.getElem?_eq_some_iff.mp ha
    exact ⟨a, by rw [hsockets, List.getElem?_append_left hk, ha], .stay⟩
  | stay hsockets => exact ⟨a, by rw [hsockets, ha], .stay⟩

variable (settings : StoreLimit.Settings)

theorem sockets_remember (s : State ι) (n : ℕ) : (s.remember n).sockets = s.sockets := by
  rw [State.remember]
  split <;> rfl

theorem sockets_learn (s : State ι) (source : Source) : (s.learn source).sockets = s.sockets := by
  cases source with
  | lookup n => exact sockets_remember s n
  | memory => rfl
  | failure => rfl

theorem sockets_confirm (s : State ι) (host : ι) (ownerId storeId : Uuid) :
    (s.confirm host ownerId storeId).sockets = s.sockets := by
  rw [State.confirm]
  split <;> rfl

theorem sockets_bridge (s : State ι) (host : ι) : (s.bridge host).sockets = s.sockets := by
  rw [State.bridge]
  split
  · rfl
  · split <;> rfl

theorem sockets_upgrade (s : State ι) (host : ι) (sessionId storeId : Uuid) (source : Source) :
    SocketsStep s (s.upgrade settings host sessionId storeId source) := by
  rw [State.upgrade]
  split
  next actor hactor =>
    split
    next hauthorised =>
      dsimp only
      split
      · apply SocketsStep.opened host storeId sessionId ⟨source, actor, hactor, hauthorised⟩
        dsimp only
        rw [sockets_confirm, sockets_learn]
      · apply SocketsStep.stay
        rw [sockets_confirm, sockets_learn]
    next => exact .stay (sockets_learn s source)
  · exact .stay (sockets_learn s source)

theorem sockets_tick (s : State ι) (k : ℕ) (source : Source) : SocketsStep s (s.tick k source) := by
  rw [State.tick]
  split
  · exact .stay rfl
  · split
    · exact .stay rfl
    next found _ =>
      refine .move k (Socket.check found) (fun a _ => .check found) ?_
      rw [State.withSocket, sockets_learn]

theorem sockets_step (s : State ι) (action : Action ι) : SocketsStep s (step settings s action) := by
  cases action with
  | wait | commit | look | forget | publish | unbridge => exact .stay rfl
  | remember n => exact .stay (sockets_remember s n)
  | confirm host ownerId storeId => exact .stay (sockets_confirm s host ownerId storeId)
  | bridge host => exact .stay (sockets_bridge s host)
  | upgrade host sessionId storeId source => exact sockets_upgrade settings s host sessionId storeId source
  | subscribe k => exact .move k _ (fun _ _ => .subscribe) rfl
  | read k => exact .move k _ (fun _ _ => .read) rfl
  | tick k source => exact sockets_tick s k source
  | hangUp k => exact .move k _ (fun _ _ => .hangUp) rfl
  | lose k => exact .move k _ (fun _ _ => .lose) rfl

theorem channels_publishLocally (s : State ι) (host : ι) (e : RealtimeEvent) (host' : ι)
    (storeId : Uuid) : (s.publishLocally host e).channels host' storeId =
      if host' = host ∧ storeId = e.storeId then s.channels host e.storeId ++ [e]
      else s.channels host' storeId := by
  rw [State.publishLocally]
  dsimp only
  by_cases hhost : host' = host
  · rw [hhost, Function.update_self]
    by_cases hstore : storeId = e.storeId
    · rw [hstore, Function.update_self, if_pos ⟨rfl, rfl⟩]
    · rw [Function.update_of_ne hstore, if_neg (fun h => hstore h.2)]
  · rw [Function.update_of_ne hhost, if_neg (fun h => hhost h.1)]

theorem prefix_publishLocally (s : State ι) (host : ι) (e : RealtimeEvent) (host' : ι)
    (storeId : Uuid) :
    s.channels host' storeId <+: (s.publishLocally host e).channels host' storeId := by
  rw [channels_publishLocally]
  split
  next h =>
    rw [h.1, h.2]
    exact List.prefix_append _ _
  next => exact List.prefix_rfl

/-- The event is the next of its channel. -/
theorem getElem?_publishLocally (s : State ι) (host : ι) (e : RealtimeEvent) :
    ((s.publishLocally host e).channels host e.storeId)[(s.channels host e.storeId).length]? =
      some e := by
  rw [channels_publishLocally, if_pos ⟨rfl, rfl⟩]
  exact List.getElem?_concat_length

theorem carries_publish (s : State ι) (host : ι) (e : RealtimeEvent) (carried : Bool) :
    Carries s (s.publish host e carried) where
  channels := prefix_publishLocally s host e
  redis := by
    rw [State.publish]
    dsimp only
    split
    · exact List.prefix_append _ _
    · exact List.prefix_rfl
  bridges := fun _ next h => ⟨next, h, le_rfl, fun m hle hlt => absurd hle (by omega)⟩

theorem carries_bridge (s : State ι) (host : ι) : Carries s (s.bridge host) := by
  rw [State.bridge]
  split
  · exact .refl s
  next next hnext =>
    split
    · exact .refl s
    next e he =>
      refine ⟨prefix_publishLocally s host e, List.prefix_rfl, fun host' next' hnext' => ?_⟩
      dsimp only at hnext' ⊢
      by_cases hhost : host' = host
      · rw [hhost, Function.update_self, Option.some.injEq] at hnext'
        refine ⟨next, hhost ▸ hnext, by omega, fun m hfrom hto => ?_⟩
        have hm : m = next := by omega
        refine ⟨e, (s.channels host e.storeId).length, hm ▸ he, by rw [hhost], ?_⟩
        rw [hhost]
        exact getElem?_publishLocally s host e
      · rw [Function.update_of_ne hhost] at hnext'
        exact ⟨next', hnext', le_rfl, fun m hle hlt => absurd hle (by omega)⟩

theorem carries_remember (s : State ι) (n : ℕ) : Carries s (s.remember n) := by
  rw [State.remember]
  split
  · exact .refl s
  · exact .of_eq rfl rfl rfl

theorem carries_learn (s : State ι) (source : Source) : Carries s (s.learn source) := by
  cases source with
  | lookup n => exact carries_remember s n
  | memory => exact .refl s
  | failure => exact .refl s

theorem carries_confirm (s : State ι) (host : ι) (ownerId storeId : Uuid) :
    Carries s (s.confirm host ownerId storeId) := by
  rw [State.confirm]
  split
  · exact .of_eq rfl rfl rfl
  · exact .refl s

theorem carries_upgrade (s : State ι) (host : ι) (sessionId storeId : Uuid) (source : Source) :
    Carries s (s.upgrade settings host sessionId storeId source) := by
  rw [State.upgrade]
  split
  next actor _ =>
    split
    · have hknown : Carries s ((s.learn source).confirm host actor.actor.ownerId storeId) :=
        (carries_learn s source).trans (carries_confirm _ _ _ _)
      dsimp only
      split
      · exact hknown.trans (.of_eq rfl rfl rfl)
      · exact hknown
    · exact carries_learn s source
  · exact carries_learn s source

theorem carries_tick (s : State ι) (k : ℕ) (source : Source) : Carries s (s.tick k source) := by
  rw [State.tick]
  split
  · exact .refl s
  · split
    · exact .refl s
    · exact (carries_learn s source).trans (.of_eq rfl rfl rfl)

theorem carries_step (s : State ι) (action : Action ι) : Carries s (step settings s action) := by
  cases action with
  | wait | commit | look | forget | subscribe | read | hangUp | lose => exact .of_eq rfl rfl rfl
  | remember n => exact carries_remember s n
  | confirm host ownerId storeId => exact carries_confirm s host ownerId storeId
  | publish host e carried => exact carries_publish s host e carried
  | bridge host => exact carries_bridge s host
  | unbridge host =>
    refine ⟨fun _ _ => List.prefix_rfl, List.prefix_rfl, fun host' next hnext => ?_⟩
    dsimp only [step] at hnext
    by_cases hhost : host' = host
    · rw [hhost, Function.update_self] at hnext
      cases hnext
    · rw [Function.update_of_ne hhost] at hnext
      exact ⟨next, hnext, le_rfl, fun m hle hlt => absurd hle (by omega)⟩
  | upgrade host sessionId storeId source => exact carries_upgrade settings s host sessionId storeId source
  | tick k source => exact carries_tick s k source

theorem Inv.step (h : Inv s) (action : Action ι) : Inv (step settings s action) := by
  have hcarries := carries_step settings s action
  constructor
  · intro k b hb
    obtain ⟨a, ha, hmoves⟩ | ⟨host, storeId, sessionId, _, hopened⟩ :=
      (sockets_step settings s action).of_after hb
    · have htold := (h.told k a ha).moves hmoves
      have hgrows := hmoves.grows
      rw [State.channelOf, hgrows.host, hgrows.storeId]
      exact htold.extend (hcarries.channels a.host a.storeId)
    · rw [hopened]
      exact Socket.told_opened host storeId sessionId
  · intro host next' hnext'
    obtain ⟨next, hnext, _, hpassed⟩ := hcarries.bridges host next' hnext'
    have hle := (h.bridges host next hnext).trans hcarries.redis.length_le
    by_cases hlt : next < next'
    · obtain ⟨e, i, he, _⟩ := hpassed (next' - 1) (by omega) (by omega)
      obtain ⟨hlast, _⟩ := List.getElem?_eq_some_iff.mp he
      omega
    · omega

theorem Inv.run (h : Inv s) (actions : List (Action ι)) : Inv (run settings s actions) := by
  induction actions generalizing s with
  | nil => exact h
  | cons action rest ih => exact ih (h.step settings action)

theorem carries_run (s : State ι) (actions : List (Action ι)) :
    Carries s (run settings s actions) := by
  induction actions generalizing s with
  | nil => exact .refl s
  | cons action rest ih => exact (carries_step settings s action).trans (ih (step settings s action))

/-- A socket is there for the rest of a run. -/
theorem grows_run {k : ℕ} {a : Socket ι} (actions : List (Action ι))
    (ha : s.sockets[k]? = some a) :
    ∃ b, (run settings s actions).sockets[k]? = some b ∧ a.Grows b := by
  induction actions generalizing s a with
  | nil => exact ⟨a, ha, .refl a⟩
  | cons action rest ih =>
    obtain ⟨c, hc, hmoves⟩ := (sockets_step settings s action).of_before ha
    obtain ⟨b, hb, hgrows⟩ := ih hc
    exact ⟨b, hb, hmoves.grows.trans hgrows⟩

/-- A socket that is pumping when an event of its store is published, on its
own instance or on another one whose message its bridge passes on, has sent the
event or a notice once it has read its channel. -/
theorem sent_after_publish {after : List (Action ι)} {s t : State ι} {host : ι}
    {e : RealtimeEvent} {carried : Bool} {k : ℕ} {a b : Socket ι} (hinv : Inv s)
    (ht : run settings (step settings s (.publish host e carried)) after = t)
    (ha : s.sockets[k]? = some a) (hphase : a.phase = .pumping) (hstore : a.storeId = e.storeId)
    (hb : t.sockets[k]? = some b) (hopen : b.phase ≠ .closed) (hheld : b.broken = false)
    (hread : b.next = (t.channelOf b).length)
    (hreach : host = a.host ∨ carried = true ∧ t.bridges a.host = some t.redis.length) :
    .event e ∈ b.frames.drop a.frames.length ∨ .stale ∈ b.frames.drop a.frames.length := by
  rw [← ht] at hb hread hreach
  change b.next = ((run settings (s.publish host e carried) after).channelOf b).length at hread
  have hinv' : Inv (s.publish host e carried) := hinv.step settings (.publish host e carried)
  have hpublished : Carries s (s.publish host e carried) := carries_publish s host e carried
  have hrest := carries_run settings (s.publish host e carried) after
  obtain ⟨b', hb', hgrows⟩ := @grows_run _ (s.publish host e carried) _ settings k a
    after ha
  have heq : b' = b := Option.some.inj (hb'.symm.trans hb)
  rw [heq] at hgrows
  have htold := (hinv'.run settings after).told k b hb
  rw [State.channelOf, hgrows.host, hgrows.storeId] at htold hread
  -- the event comes to lie in the socket's channel, past what was there
  obtain ⟨i, hi, he⟩ : ∃ i, (s.channels a.host a.storeId).length ≤ i ∧
      ((run settings (s.publish host e carried) after).channels a.host a.storeId)[i]? = some e := by
    rw [hstore]
    obtain hhost | ⟨hcarried, hbridge⟩ := hreach
    · rw [hhost] at hrest ⊢
      exact ⟨_, le_rfl, getElem?_extend (hrest.channels a.host e.storeId)
        (getElem?_publishLocally s a.host e)⟩
    · obtain ⟨next, hnext, _, hpassed⟩ := hrest.bridges a.host _ hbridge
      have hle : next ≤ s.redis.length := hinv.bridges a.host next hnext
      have hmessage : (s.publish host e carried).redis[s.redis.length]? = some e := by
        rw [State.publish, hcarried]
        exact List.getElem?_concat_length
      have hmessage' := getElem?_extend hrest.redis hmessage
      obtain ⟨hlt, _⟩ := List.getElem?_eq_some_iff.mp hmessage'
      obtain ⟨e', i, he', hi, hat⟩ := hpassed s.redis.length hle hlt
      have hsame : e' = e := Option.some.inj (he'.symm.trans hmessage')
      rw [hsame] at hi hat
      exact ⟨i, (hpublished.channels a.host e.storeId).length_le.trans hi, hat⟩
  exact (hinv.told k a ha).sent_since htold
    ((hpublished.channels a.host a.storeId).trans (hrest.channels a.host a.storeId)) hgrows hphase
    hopen hheld hread hi he

/-- In every run of any number of instances: a socket that was subscribed when
an event of its store was published on its own instance, or on another one and
carried to a bridge that still listens and has read everything, has sent the
event, or the notice that it fell behind, once it has read its channel over a
connection that held. -/
theorem no_event_missed_in_silence {db : Db} {listening : ι → Bool} {before after : List (Action ι)}
    {s t : State ι} {host : ι} {e : RealtimeEvent} {carried : Bool} {k : ℕ} {a b : Socket ι}
    (hs : run settings (.initial db listening) before = s)
    (ht : run settings (step settings s (.publish host e carried)) after = t)
    (ha : s.sockets[k]? = some a) (hphase : a.phase = .pumping) (hstore : a.storeId = e.storeId)
    (hb : t.sockets[k]? = some b) (hopen : b.phase ≠ .closed) (hheld : b.broken = false)
    (hread : b.next = (t.channelOf b).length)
    (hreach : host = a.host ∨ carried = true ∧ t.bridges a.host = some t.redis.length) :
    .event e ∈ b.frames.drop a.frames.length ∨ .stale ∈ b.frames.drop a.frames.length := by
  have hinv : Inv s := hs ▸ (inv_initial db listening).run settings before
  exact sent_after_publish settings hinv ht ha hphase hstore hb hopen hheld hread hreach

end

/-- An owner with a store and a signed-in tablet. -/
def tabletDb : Db where
  owners := Table.empty.put ⟨8⟩ "Nena"
  stores := Table.empty.put ⟨0⟩ ⟨8⟩
  staff := Table.empty
  sessions := Table.empty.put ⟨5⟩ ⟨⟨8⟩, none, "tablet", 0, none⟩
  tokens := Table.empty
  invites := Table.empty
  subscriptions := Table.empty

/-- A sale rung up at the counter. -/
def saleRung : RealtimeEvent := ⟨⟨0⟩, .saleRecorded, some ⟨7⟩, none, 0⟩

/-- The tablet's socket, and that it was told of the sale or not. -/
def tabletSocket (told : Bool) : Socket Bool where
  host := false
  storeId := ⟨0⟩
  sessionId := ⟨5⟩
  phase := .pumping
  broken := false
  start := 0
  next := if told then 1 else 0
  received := if told then [.value saleRung] else []
  frames := if told then [.event saleRung] else []

/-- The tablet's socket opens on one instance. -/
def tabletOpens : List (Action Bool) :=
  [.look false ⟨5⟩, .upgrade false ⟨5⟩ ⟨0⟩ (.lookup 0), .subscribe 0]

/-- What is published on the other comes over, and the socket reads it. -/
def tabletReads : List (Action Bool) := [.bridge true, .bridge false, .read 0]

/-- The two instances once the tablet's socket is open. -/
def attached : State Bool := run ⟨0, false⟩ (.initial tabletDb fun _ => true) tabletOpens

/-- A sale recorded on one instance reaches the tablet attached to the other. -/
theorem no_event_missed_in_silence_tablet :
    ∃ a b, attached.sockets[0]? = some a ∧
      (run ⟨0, false⟩ (step ⟨0, false⟩ attached (.publish true saleRung true)) tabletReads).sockets[0]? =
        some b ∧
      (.event saleRung ∈ b.frames.drop a.frames.length ∨ .stale ∈ b.frames.drop a.frames.length) :=
  ⟨tabletSocket false, tabletSocket true, by decide, by decide,
    @no_event_missed_in_silence _ _ ⟨0, false⟩ tabletDb (fun _ => true) tabletOpens tabletReads _ _
      true saleRung true 0 (tabletSocket false) (tabletSocket true) rfl rfl (by decide) rfl rfl
      (by decide) (by decide) rfl (by decide) (.inr ⟨rfl, by decide⟩)⟩

end Kitaza.Realtime
