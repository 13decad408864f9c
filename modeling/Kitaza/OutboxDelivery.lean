import Mathlib.Logic.Relation
import Kitaza.SyncQueue

/-!
# No edit is lost between the phone and the cloud

Local writes land at any point of the pushes in flight: between reading a
batch, the response, the counting of refusals and the clearing of accepted
rows. Nothing but the row identifier tells a version that was sent from an
edit made meanwhile; the sequence never reuses one, which is enough.

A version is current until a later write replaces it: a write of the same
kind and identifier, or a removal of its record.
-/

namespace Kitaza.OutboxDelivery

open KeyedTable Primitives SyncQueue

/-- One local write, in the order they were made. -/
structure LocalChange (α : Type*) where
  /-- The queue row it was given. -/
  rowId : ℕ
  /-- The store it was made in. -/
  storeId : Option Uuid
  /-- The kind of change. -/
  entity : QueuedEntity
  /-- The record changed. -/
  entityId : Uuid
  /-- What is to be sent. -/
  payload : Payload α
  /-- The kind whose unsent version a removal drops. -/
  discards : Option QueuedEntity
  deriving DecidableEq, Repr

/-- What the server answered to one request. -/
structure Answer where
  /-- Whether a row is named as applied. -/
  applied : QueuedEntity × Uuid → Bool
  /-- The reason a row is named as refused with. -/
  rejected : QueuedEntity × Uuid → Option String

/-- How a row of a request is keyed in the answer. -/
def key {α : Type*} (c : QueuedChange α) : QueuedEntity × Uuid := (c.row.entity, c.row.entityId)

/-- Whether the answer accepts a change: it names it as applied, and not as
refused. -/
def Answer.accepts {α : Type*} (a : Answer) (c : QueuedChange α) : Bool :=
  (a.rejected (key c)).isNone && a.applied (key c)

/-- A push in flight. -/
structure Push (α : Type*) where
  /-- Local writes made before its batch was read. -/
  readAt : ℕ
  /-- The answer, once there is one, to the request of the first store. -/
  answer : Option Answer
  /-- Changes of that request the answer has not been read for. -/
  todo : List (QueuedChange α)
  /-- Rows of that request to clear. -/
  accepted : List ℕ
  /-- The changes of the stores after it. -/
  later : List (List (QueuedChange α))

/-- The phone. -/
structure Phone (α : Type*) where
  /-- The outbox. -/
  queue : Queue α
  /-- The pushes in flight. -/
  pushes : List (Push α)
  /-- Every local write so far. -/
  history : List (LocalChange α)
  /-- The rows an answer has accepted, as they were sent. -/
  accepted : List (QueuedChange α)
  /-- The rows the owner has dropped. -/
  dropped : List ℕ

/-- A phone nothing was written on. -/
def Phone.fresh (α : Type*) : Phone α := ⟨Queue.empty α, [], [], [], []⟩

/-- What can happen on the phone. -/
inductive Action (α : Type*) where
  /-- A record is created or edited. -/
  | write (entity : QueuedEntity) (id : Uuid) (content : α) (storeId : Option Uuid)
  /-- A record is removed. -/
  | delete (deleted : DeletedEntity) (entity : QueuedEntity) (id : Uuid) (storeId : Option Uuid)
  /-- A push reads its batch. -/
  | read (limit : ℕ) (activeStoreId : Uuid)
  /-- The request in the air is answered. -/
  | respond (push : ℕ) (answer : Answer)
  /-- The answer is read for the next change. -/
  | count (push : ℕ)
  /-- The accepted rows are cleared and the next store's turn comes. -/
  | clear (push : ℕ)
  /-- A push ends early: a lost connection, an error. -/
  | abandon (push : ℕ)
  /-- The app restarts; the outbox and its sequence survive. -/
  | restart
  /-- The owner gives a parked row another chance. -/
  | retry (rowId : ℕ)
  /-- The owner drops a row. -/
  | drop (rowId : ℕ)

/-- The phone after one action; some actions need the push at that stage. -/
def step {α : Type*} (s : Phone α) : Action α → Option (Phone α)
  | .write entity id content storeId =>
    some { s with
      queue := enqueue entity id (.record content) storeId s.queue
      history := s.history ++
        [⟨s.queue.sequence + 1, storeId, entity, id, .record content, none⟩] }
  | .delete deleted entity id storeId =>
    some { s with
      queue := enqueueDeletion deleted entity id storeId s.queue
      history := s.history ++
        [⟨s.queue.sequence + 1, storeId, .deletions, id, .deletion deleted id, some entity⟩] }
  | .read limit activeStoreId =>
    match (byStore activeStoreId (pending limit s.queue)).map Prod.snd with
    | [] => none
    | changes :: later =>
      some { s with pushes := s.pushes ++ [⟨s.history.length, none, changes, [], later⟩] }
  | .respond i answer =>
    match s.pushes[i]? with
    | some p =>
      if p.answer.isNone then
        some { s with
          pushes := s.pushes.set i { p with answer := some answer }
          accepted := s.accepted ++ p.todo.filter answer.accepts }
      else none
    | none => none
  | .count i =>
    match s.pushes[i]? with
    | some p =>
      match p.answer, p.todo with
      | some answer, c :: todo =>
        match answer.rejected (key c) with
        | some reason =>
          some { s with
            queue := recordFailure c.rowId reason s.queue
            pushes := s.pushes.set i { p with todo := todo } }
        | none =>
          if answer.applied (key c) then
            some { s with
              pushes := s.pushes.set i { p with todo := todo, accepted := p.accepted ++ [c.rowId] } }
          else some { s with pushes := s.pushes.set i { p with todo := todo } }
      | _, _ => none
    | none => none
  | .clear i =>
    match s.pushes[i]? with
    | some p =>
      match p.answer, p.todo, p.later with
      | some _, [], [] =>
        some { s with
          queue := clearRows p.accepted s.queue
          pushes := s.pushes.eraseIdx i }
      | some _, [], changes :: later =>
        some { s with
          queue := clearRows p.accepted s.queue
          pushes := s.pushes.set i ⟨p.readAt, none, changes, [], later⟩ }
      | _, _, _ => none
    | none => none
  | .abandon i => some { s with pushes := s.pushes.eraseIdx i }
  | .restart => some { s with pushes := [] }
  | .retry rowId => some { s with queue := SyncQueue.retry rowId s.queue }
  | .drop rowId =>
    some { s with queue := SyncQueue.drop rowId s.queue, dropped := s.dropped ++ [rowId] }

/-- One action was taken. -/
def Step {α : Type*} (s t : Phone α) : Prop := ∃ action, step s action = some t

/-- A local write makes an earlier one obsolete: it is of the same kind and
record, or it removes that record. -/
def LocalChange.Replaces {α : Type*} (d c : LocalChange α) : Prop :=
  d.entityId = c.entityId ∧ (d.entity = c.entity ∨ d.discards = some c.entity)

/-- A local write that is its record's latest version. -/
def Current {α : Type*} (history : List (LocalChange α)) (c : LocalChange α) : Prop :=
  c ∈ history ∧ ∀ d ∈ history, c.rowId < d.rowId → ¬ d.Replaces c

instance {α : Type*} (d c : LocalChange α) : Decidable (d.Replaces c) :=
  inferInstanceAs (Decidable (_ ∧ (_ ∨ _)))

instance {α : Type*} [DecidableEq α] (history : List (LocalChange α)) (c : LocalChange α) :
    Decidable (Current history c) :=
  inferInstanceAs (Decidable (_ ∧ ∀ d ∈ history, _ → _))

/-- A queue row carries a local change. -/
def Carries {α : Type*} (r : QueueRow α) (c : LocalChange α) : Prop :=
  r.storeId = c.storeId ∧ r.entity = c.entity ∧ r.entityId = c.entityId ∧ r.payload = c.payload

/-- A local change is queued under the row it was given. -/
def Queued {α : Type*} (q : Queue α) (c : LocalChange α) : Prop :=
  ∃ r, q.rows.find? c.rowId = some r ∧ Carries r c

/-- The server has accepted a row that carries a local change. -/
def Accepted {α : Type*} (s : Phone α) (c : LocalChange α) : Prop :=
  ∃ r, ⟨c.rowId, r⟩ ∈ s.accepted ∧ Carries r c

/-- Two rows send the same version. -/
def SameContent {α : Type*} (r r' : QueueRow α) : Prop :=
  r'.storeId = r.storeId ∧ r'.entity = r.entity ∧ r'.entityId = r.entityId ∧
    r'.payload = r.payload

theorem SameContent.carries {α : Type*} {r r' : QueueRow α} {c : LocalChange α}
    (h : SameContent r r') (hc : Carries r c) : Carries r' c := by
  obtain ⟨h1, h2, h3, h4⟩ := h
  exact ⟨h1.trans hc.1, h2.trans hc.2.1, h3.trans hc.2.2.1, h4.trans hc.2.2.2⟩

/-- A change the push has yet to hear about or to send. -/
def Push.Holds {α : Type*} (p : Push α) (c : QueuedChange α) : Prop :=
  c ∈ p.todo ∨ ∃ changes ∈ p.later, c ∈ changes

/-- What a push in flight has read of the outbox. -/
structure Push.Inv {α : Type*} (p : Push α) (s : Phone α) : Prop where
  /-- Its batch was read in the past. -/
  readAt_le : p.readAt ≤ s.history.length
  /-- It holds versions written before that. -/
  held : ∀ c, p.Holds c → ∃ d ∈ s.history.take p.readAt, d.rowId = c.rowId ∧ Carries c.row d
  /-- So are the versions it is to clear, and the server has accepted them. -/
  cleared : ∀ k ∈ p.accepted, ∃ d ∈ s.history.take p.readAt, d.rowId = k ∧ Accepted s d
  /-- A change is counted as accepted once the server has accepted it. -/
  answered : ∀ a, p.answer = some a → ∀ c ∈ p.todo, a.accepts c → c ∈ s.accepted

/-- What holds of the phone between actions. -/
structure Inv {α : Type*} (s : Phone α) : Prop where
  /-- Later writes get higher rows. -/
  ascending : (s.history.map LocalChange.rowId).Pairwise (· < ·)
  /-- The sequence is past every row it has handed out. -/
  bounded : ∀ c ∈ s.history, c.rowId ≤ s.queue.sequence
  /-- A stored row carries the local change it was written for. -/
  stored : ∀ k r, s.queue.rows.find? k = some r → ∃ c ∈ s.history, c.rowId = k ∧ Carries r c
  /-- A current version is accepted, dropped or queued. -/
  covered : ∀ c, Current s.history c → Accepted s c ∨ c.rowId ∈ s.dropped ∨ Queued s.queue c
  /-- The pushes in flight hold what they have read. -/
  pushes : ∀ p ∈ s.pushes, p.Inv s

/-- No write was given the row of another. -/
theorem Inv.eq_of_rowId_eq {α : Type*} {s : Phone α} (hi : Inv s) {c d : LocalChange α}
    (hc : c ∈ s.history) (hd : d ∈ s.history) (h : c.rowId = d.rowId) : c = d :=
  List.inj_on_of_nodup_map (hi.ascending.imp Nat.ne_of_lt) hc hd h

/-- A write after a batch was read has a higher row than one before. -/
theorem Inv.rowId_lt {α : Type*} {s : Phone α} (hi : Inv s) {n : ℕ} {c d : LocalChange α}
    (hd : d ∈ s.history.take n) (hc : c ∈ s.history.drop n) : d.rowId < c.rowId := by
  have hp := hi.ascending
  rw [← List.take_append_drop n s.history, List.map_append, List.pairwise_append] at hp
  exact hp.2.2 _ (List.mem_map_of_mem hd) _ (List.mem_map_of_mem hc)

theorem Accepted.mono {α : Type*} {s t : Phone α} {c : LocalChange α} (h : Accepted s c)
    (ha : s.accepted ⊆ t.accepted) : Accepted t c := by
  obtain ⟨r, hr, hc⟩ := h
  exact ⟨r, ha hr, hc⟩

/-- A push in flight is untouched by what happens meanwhile. -/
theorem Push.Inv.mono {α : Type*} {p : Push α} {s t : Phone α} (hp : p.Inv s)
    (hh : s.history <+: t.history) (ha : s.accepted ⊆ t.accepted) : p.Inv t := by
  obtain ⟨rest, hr⟩ := hh
  have htake : t.history.take p.readAt = s.history.take p.readAt := by
    rw [← hr, List.take_append_of_le_length hp.readAt_le]
  constructor
  · rw [← hr, List.length_append]
    exact Nat.le_add_right_of_le hp.readAt_le
  · intro c hc
    rw [htake]
    exact hp.held c hc
  · intro k hk
    obtain ⟨d, hd, hdk, hda⟩ := hp.cleared k hk
    exact ⟨d, by rwa [htake], hdk, hda.mono ha⟩
  · intro a hans c hc hacc
    exact ha (hp.answered a hans c hc hacc)

/-- A local write: it takes the next row and drops the rows it replaces. -/
structure Writes {α : Type*} (s t : Phone α) (c : LocalChange α) : Prop where
  /-- The row handed out. -/
  rowId : c.rowId = s.queue.sequence + 1
  /-- The sequence moves past it. -/
  sequence : t.queue.sequence = s.queue.sequence + 1
  /-- The write is remembered. -/
  history : t.history = s.history ++ [c]
  /-- The pushes in flight do not notice. -/
  pushes : t.pushes = s.pushes
  /-- Nothing is accepted by it. -/
  accepted : t.accepted = s.accepted
  /-- Nothing is dropped by it. -/
  dropped : t.dropped = s.dropped
  /-- The write is queued. -/
  queued : Queued t.queue c
  /-- Of the other rows those it replaces are gone. -/
  others : ∀ k, k ≠ c.rowId → ∀ r, t.queue.rows.find? k = some r ↔
    s.queue.rows.find? k = some r ∧
      ¬(c.entityId = r.entityId ∧ (c.entity = r.entity ∨ c.discards = some r.entity))

theorem write_writes {α : Type*} (s : Phone α) (entity : QueuedEntity) (id : Uuid) (content : α)
    (storeId : Option Uuid) {t : Phone α} (h : step s (.write entity id content storeId) = some t) :
    Writes s t ⟨s.queue.sequence + 1, storeId, entity, id, .record content, none⟩ := by
  cases h
  constructor
  case queued => exact ⟨_, Table.find?_put_self _ _ _, rfl, rfl, rfl, rfl⟩
  case others =>
    intro k hk r
    rw [find?_enqueue_ne hk, find?_discard]
    simp [and_comm]
  all_goals rfl

theorem delete_writes {α : Type*} (s : Phone α) (deleted : DeletedEntity) (entity : QueuedEntity)
    (id : Uuid) (storeId : Option Uuid) {t : Phone α}
    (h : step s (.delete deleted entity id storeId) = some t) :
    Writes s t
      ⟨s.queue.sequence + 1, storeId, .deletions, id, .deletion deleted id, some entity⟩ := by
  cases h
  constructor
  case queued => exact ⟨_, Table.find?_put_self _ _ _, rfl, rfl, rfl, rfl⟩
  case others =>
    intro k hk r
    have hq : k ≠ (SyncQueue.discard entity id s.queue).sequence + 1 := hk
    rw [enqueueDeletion, find?_enqueue_ne hq, find?_discard, find?_discard]
    simp only [Option.some.injEq]
    tauto
  all_goals rfl

/-- A local write keeps what holds of the phone. -/
theorem Writes.inv {α : Type*} {s t : Phone α} {c : LocalChange α} (h : Writes s t c)
    (hi : Inv s) : Inv t := by
  have hlt : ∀ d ∈ s.history, d.rowId < c.rowId := by
    intro d hd
    rw [h.rowId]
    exact Nat.lt_succ_of_le (hi.bounded d hd)
  have hacc : s.accepted ⊆ t.accepted := by rw [h.accepted]; exact List.Subset.refl _
  constructor
  case ascending =>
    rw [h.history, List.map_append, List.pairwise_append]
    refine ⟨hi.ascending, List.pairwise_singleton _ _, ?_⟩
    simpa using hlt
  case bounded =>
    intro d hd
    rw [h.history, List.mem_append, List.mem_singleton] at hd
    rw [h.sequence, ← h.rowId]
    rcases hd with hd | rfl
    · exact (hlt d hd).le
    · exact le_rfl
  case stored =>
    intro k r hr
    rw [h.history]
    by_cases hk : k = c.rowId
    · obtain ⟨r', hr', hc⟩ := h.queued
      rw [hk, hr'] at hr
      cases hr
      exact ⟨c, by simp, hk.symm, hc⟩
    · obtain ⟨d, hd, hdk, hdc⟩ := hi.stored k r ((h.others k hk r).mp hr).1
      exact ⟨d, List.mem_append_left _ hd, hdk, hdc⟩
  case covered =>
    intro d hd
    have hmem := hd.1
    rw [h.history, List.mem_append, List.mem_singleton] at hmem
    rcases hmem with hmem | rfl
    · have hcur : Current s.history d := by
        refine ⟨hmem, fun e he => hd.2 e ?_⟩
        rw [h.history]
        exact List.mem_append_left _ he
      rcases hi.covered d hcur with ha | hdr | ⟨r, hr, hc⟩
      · exact Or.inl (ha.mono hacc)
      · right; left
        rwa [h.dropped]
      · -- nothing replaces a current version, so its row stays
        have hkeep : ¬c.Replaces d := hd.2 c (by rw [h.history]; simp) (hlt d hmem)
        refine Or.inr (Or.inr ⟨r, ?_, hc⟩)
        rw [h.others d.rowId (hlt d hmem).ne, hc.2.1, hc.2.2.1]
        exact ⟨hr, hkeep⟩
    · exact Or.inr (Or.inr h.queued)
  case pushes =>
    intro p hp
    rw [h.pushes] at hp
    exact (hi.pushes p hp).mono (by rw [h.history]; exact List.prefix_append _ _) hacc

/-- Anything but a local write: rows keep their version, and one that goes
was accepted or dropped. -/
structure Keeps {α : Type*} (s t : Phone α) : Prop where
  /-- No write is made. -/
  history : t.history = s.history
  /-- No row is handed out. -/
  sequence : t.queue.sequence = s.queue.sequence
  /-- What was accepted stays so. -/
  accepted : s.accepted ⊆ t.accepted
  /-- What was dropped stays so. -/
  dropped : s.dropped ⊆ t.dropped
  /-- Rows keep their version. -/
  rows : ∀ k r', t.queue.rows.find? k = some r' →
    ∃ r, s.queue.rows.find? k = some r ∧ SameContent r r'
  /-- A row that goes was accepted or dropped. -/
  gone : ∀ c ∈ s.history, t.queue.rows.find? c.rowId = none →
    s.queue.rows.find? c.rowId = none ∨ Accepted t c ∨ c.rowId ∈ t.dropped

/-- A step that leaves the queue alone keeps its rows. -/
theorem Keeps.of_queue {α : Type*} {s t : Phone α} (hh : t.history = s.history)
    (hq : t.queue = s.queue) (ha : s.accepted ⊆ t.accepted) (hd : t.dropped = s.dropped) :
    Keeps s t where
  history := hh
  sequence := by rw [hq]
  accepted := ha
  dropped := by rw [hd]; exact List.Subset.refl _
  rows k r' hr := ⟨r', by rwa [← hq], rfl, rfl, rfl, rfl⟩
  gone c _ hn := Or.inl (by rwa [← hq])

/-- Such a step keeps what holds of the phone, if its pushes hold what they
have read. -/
theorem Keeps.inv {α : Type*} {s t : Phone α} (h : Keeps s t) (hi : Inv s)
    (hp : ∀ p ∈ t.pushes, p.Inv t) : Inv t := by
  constructor
  case ascending => rw [h.history]; exact hi.ascending
  case bounded => rw [h.history, h.sequence]; exact hi.bounded
  case stored =>
    intro k r' hr'
    obtain ⟨r, hr, hsame⟩ := h.rows k r' hr'
    obtain ⟨c, hc, hk, hcar⟩ := hi.stored k r hr
    exact ⟨c, by rwa [h.history], hk, hsame.carries hcar⟩
  case covered =>
    intro c hc
    rw [h.history] at hc
    rcases hi.covered c hc with ha | hd | ⟨r, hr, hcar⟩
    · exact Or.inl (ha.mono h.accepted)
    · exact Or.inr (Or.inl (h.dropped hd))
    · cases ht : t.queue.rows.find? c.rowId with
      | none =>
        rcases h.gone c hc.1 ht with hn | ha | hd
        · rw [hr] at hn
          cases hn
        · exact Or.inl ha
        · exact Or.inr (Or.inl hd)
      | some r' =>
        obtain ⟨r₀, hr₀, hsame⟩ := h.rows _ _ ht
        rw [hr] at hr₀
        cases hr₀
        exact Or.inr (Or.inr ⟨r', ht, hsame.carries hcar⟩)
  case pushes => exact hp

/-- The pushes a step does not touch still hold what they have read. -/
theorem Keeps.push_inv {α : Type*} {s t : Phone α} (h : Keeps s t) (hi : Inv s) {p : Push α}
    (hp : p ∈ s.pushes) : p.Inv t :=
  (hi.pushes p hp).mono (by rw [h.history]) h.accepted

/-- The same where the step changes one push. -/
theorem Keeps.inv_of_set {α : Type*} {s t : Phone α} (h : Keeps s t) (hi : Inv s) {i : ℕ}
    {p : Push α} (hset : t.pushes = s.pushes.set i p) (hp : p.Inv t) : Inv t := by
  apply h.inv hi
  intro q hq
  rw [hset] at hq
  rcases List.mem_or_eq_of_mem_set hq with hq | rfl
  · exact h.push_inv hi hq
  · exact hp

/-- Counting a refusal or forgiving one keeps the rows. -/
theorem Keeps.of_mapRows {α : Type*} {s t : Phone α} (f : ℕ → QueueRow α → QueueRow α)
    (hf : ∀ k r, SameContent r (f k r)) (hh : t.history = s.history)
    (hq : t.queue = { s.queue with rows := s.queue.rows.mapRows f })
    (ha : t.accepted = s.accepted) (hd : t.dropped = s.dropped) : Keeps s t where
  history := hh
  sequence := by rw [hq]
  accepted := by rw [ha]; exact List.Subset.refl _
  dropped := by rw [hd]; exact List.Subset.refl _
  rows k r' hr' := by
    rw [hq, Table.find?_mapRows, Option.map_eq_some_iff] at hr'
    obtain ⟨r, hr, rfl⟩ := hr'
    exact ⟨r, hr, hf k r⟩
  gone c _ hn := by
    rw [hq, Table.find?_mapRows, Option.map_eq_none_iff] at hn
    exact Or.inl hn

/-- Removing rows keeps the others. -/
theorem Keeps.of_filter {α : Type*} {s t : Phone α} (stays : ℕ → Bool)
    (hh : t.history = s.history)
    (hq : t.queue = { s.queue with rows := s.queue.rows.filter fun k _ => stays k })
    (ha : s.accepted ⊆ t.accepted) (hd : s.dropped ⊆ t.dropped)
    (gone : ∀ c ∈ s.history, stays c.rowId = false → Accepted t c ∨ c.rowId ∈ t.dropped) :
    Keeps s t where
  history := hh
  sequence := by rw [hq]
  accepted := ha
  dropped := hd
  rows k r' hr' := by
    rw [hq, Table.find?_filter_eq_some] at hr'
    exact ⟨r', hr'.1, rfl, rfl, rfl, rfl⟩
  gone c hc hn := by
    cases hs : stays c.rowId with
    | false => exact Or.inr (gone c hc hs)
    | true =>
      left
      by_contra hne
      obtain ⟨r, hr⟩ := Option.ne_none_iff_exists'.mp hne
      have hkeep : t.queue.rows.find? c.rowId = some r := by
        rw [hq, Table.find?_filter_eq_some]
        exact ⟨hr, hs⟩
      rw [hn] at hkeep
      cases hkeep

/-- A refusal leaves the version of every row. -/
theorem sameContent_recordFailure {α : Type*} (rowId : ℕ) (reason : String) (k : ℕ)
    (r : QueueRow α) : SameContent r
      (if k = rowId then { r with attempts := r.attempts + 1, lastError := some reason } else r) := by
  split_ifs <;> exact ⟨rfl, rfl, rfl, rfl⟩

/-- So does another chance. -/
theorem sameContent_retry {α : Type*} (rowId k : ℕ) (r : QueueRow α) : SameContent r
    (if k = rowId then { r with attempts := 0, lastError := none } else r) := by
  split_ifs <;> exact ⟨rfl, rfl, rfl, rfl⟩

/-- What reading the answer for one change can do. -/
theorem step_count {α : Type*} {s t : Phone α} {i : ℕ} {p : Push α} (hp : s.pushes[i]? = some p)
    (h : step s (.count i) = some t) :
    ∃ answer c todo, p.answer = some answer ∧ p.todo = c :: todo ∧
      ((∃ reason, answer.rejected (key c) = some reason ∧
          t = { s with
            queue := recordFailure c.rowId reason s.queue
            pushes := s.pushes.set i { p with todo := todo } }) ∨
        (answer.accepts c ∧ t = { s with
            pushes := s.pushes.set i
              { p with todo := todo, accepted := p.accepted ++ [c.rowId] } }) ∨
        t = { s with pushes := s.pushes.set i { p with todo := todo } }) := by
  simp only [step, hp] at h
  split at h
  · next answer c todo hans htodo =>
    refine ⟨answer, c, todo, hans, htodo, ?_⟩
    cases hr : answer.rejected (key c) with
    | some reason =>
      simp only [hr, Option.some.injEq] at h
      exact Or.inl ⟨reason, rfl, h.symm⟩
    | none =>
      simp only [hr] at h
      split_ifs at h with happ
      · cases h
        exact Or.inr (Or.inl ⟨by simp [Answer.accepts, hr, happ], rfl⟩)
      · cases h
        exact Or.inr (Or.inr rfl)
  · cases h

/-- What clearing the accepted rows can do. -/
theorem step_clear {α : Type*} {s t : Phone α} {i : ℕ} {p : Push α} (hp : s.pushes[i]? = some p)
    (h : step s (.clear i) = some t) :
    t.queue = clearRows p.accepted s.queue ∧ t.history = s.history ∧ t.accepted = s.accepted ∧
      t.dropped = s.dropped ∧
      (t.pushes = s.pushes.eraseIdx i ∨ ∃ changes later, p.later = changes :: later ∧
        t.pushes = s.pushes.set i ⟨p.readAt, none, changes, [], later⟩) := by
  simp only [step, hp] at h
  split at h
  · cases h
    exact ⟨rfl, rfl, rfl, rfl, Or.inl rfl⟩
  · next changes later _ _ hl =>
    cases h
    exact ⟨rfl, rfl, rfl, rfl, Or.inr ⟨changes, later, hl, rfl⟩⟩
  · cases h

/-- Reading a batch: the push holds stored rows only. -/
theorem read_inv {α : Type*} {s t : Phone α} {limit : ℕ} {activeStoreId : Uuid}
    (h : step s (.read limit activeStoreId) = some t) (hi : Inv s) : Inv t := by
  simp only [step] at h
  split at h
  · cases h
  · next changes later hb =>
    cases h
    have hkeep : Keeps s { s with pushes := s.pushes ++ [⟨s.history.length, none, changes, [], later⟩] } :=
      Keeps.of_queue rfl rfl (List.Subset.refl _) rfl
    apply hkeep.inv hi
    intro p hp
    rcases List.mem_append.mp hp with hp | hp
    · exact hkeep.push_inv hi hp
    · rw [List.mem_singleton] at hp
      subst hp
      have hread : ∀ g ∈ changes :: later, ∀ c ∈ g,
          ∃ d ∈ s.history, d.rowId = c.rowId ∧ Carries c.row d := by
        intro g hg c hc
        rw [← hb] at hg
        obtain ⟨e, he, rfl⟩ := List.mem_map.mp hg
        exact hi.stored c.rowId c.row (mem_pending (mem_byStore he hc)).1
      constructor
      · exact le_rfl
      · intro c hc
        rw [List.take_length]
        rcases hc with hc | ⟨g, hg, hc⟩
        · exact hread changes List.mem_cons_self c hc
        · exact hread g (List.mem_cons_of_mem _ hg) c hc
      · intro k hk
        cases hk
      · intro a ha
        cases ha

/-- An answer to the request in the air. -/
theorem respond_inv {α : Type*} {s t : Phone α} {i : ℕ} {answer : Answer}
    (h : step s (.respond i answer) = some t) (hi : Inv s) : Inv t := by
  simp only [step] at h
  split at h
  · next p hp =>
    split_ifs at h with hn
    cases h
    set t : Phone α := { s with
      pushes := s.pushes.set i { p with answer := some answer }
      accepted := s.accepted ++ p.todo.filter answer.accepts } with ht
    have hkeep : Keeps s t := Keeps.of_queue rfl rfl (List.subset_append_left _ _) rfl
    have hpi := hkeep.push_inv hi (List.mem_of_getElem? hp)
    apply hkeep.inv_of_set hi rfl
    refine ⟨hpi.readAt_le, hpi.held, hpi.cleared, ?_⟩
    rintro a ⟨⟩ c hc hacc
    exact List.mem_append_right _ (List.mem_filter.mpr ⟨hc, hacc⟩)
  · cases h

/-- The changes left after one was looked at are held like before. -/
theorem Push.Inv.tail {α : Type*} {p : Push α} {s : Phone α} {c : QueuedChange α}
    {todo : List (QueuedChange α)} (hp : p.Inv s) (h : p.todo = c :: todo) :
    Push.Inv { p with todo := todo } s where
  readAt_le := hp.readAt_le
  held d hd := by
    apply hp.held d
    rcases hd with hd | hd
    · left
      rw [h]
      exact List.mem_cons_of_mem _ hd
    · exact Or.inr hd
  cleared := hp.cleared
  answered a ha d hd := by
    apply hp.answered a ha d
    rw [h]
    exact List.mem_cons_of_mem _ hd

/-- Reading the answer for one change. -/
theorem count_inv {α : Type*} {s t : Phone α} {i : ℕ} (h : step s (.count i) = some t)
    (hi : Inv s) : Inv t := by
  cases hp : s.pushes[i]? with
  | none => simp [step, hp] at h
  | some p =>
    obtain ⟨answer, c, todo, hans, htodo, hcase⟩ := step_count hp h
    have hmem := List.mem_of_getElem? hp
    rcases hcase with ⟨reason, _, rfl⟩ | ⟨hacc, rfl⟩ | rfl
    · have hkeep : Keeps s { s with
          queue := recordFailure c.rowId reason s.queue
          pushes := s.pushes.set i { p with todo := todo } } :=
        Keeps.of_mapRows _ (sameContent_recordFailure c.rowId reason) rfl rfl rfl rfl
      exact hkeep.inv_of_set hi rfl ((hkeep.push_inv hi hmem).tail htodo)
    · have hkeep : Keeps s { s with
          pushes := s.pushes.set i
            { p with todo := todo, accepted := p.accepted ++ [c.rowId] } } :=
        Keeps.of_queue rfl rfl (List.Subset.refl _) rfl
      have hpi := hkeep.push_inv hi hmem
      have htail := hpi.tail htodo
      apply hkeep.inv_of_set hi rfl
      refine ⟨htail.readAt_le, htail.held, ?_, htail.answered⟩
      intro k hk
      rcases List.mem_append.mp hk with hk | hk
      · exact hpi.cleared k hk
      · -- the change just found accepted
        rw [List.mem_singleton] at hk
        subst hk
        have hc : c ∈ p.todo := by rw [htodo]; exact List.mem_cons_self
        obtain ⟨d, hd, hdk, hcar⟩ := hpi.held c (Or.inl hc)
        refine ⟨d, hd, hdk, c.row, ?_, hcar⟩
        rw [hdk]
        exact hpi.answered answer hans c hc hacc
    · have hkeep : Keeps s { s with pushes := s.pushes.set i { p with todo := todo } } :=
        Keeps.of_queue rfl rfl (List.Subset.refl _) rfl
      exact hkeep.inv_of_set hi rfl ((hkeep.push_inv hi hmem).tail htodo)

/-- Clearing the accepted rows. -/
theorem clear_inv {α : Type*} {s t : Phone α} {i : ℕ} (h : step s (.clear i) = some t)
    (hi : Inv s) : Inv t := by
  cases hp : s.pushes[i]? with
  | none => simp [step, hp] at h
  | some p =>
    obtain ⟨hq, hh, ha, hd, hcase⟩ := step_clear hp h
    have hmem := List.mem_of_getElem? hp
    have hpi := hi.pushes p hmem
    have hkeep : Keeps s t := by
      apply Keeps.of_filter (fun k => !(p.accepted.contains k)) hh hq
        (by rw [ha]; exact List.Subset.refl _) (by rw [hd]; exact List.Subset.refl _)
      intro c hc hgone
      -- a cleared row was accepted, and its version is the one written for it
      obtain ⟨d, hd', hdk, hacc⟩ := hpi.cleared c.rowId (by simpa using hgone)
      have heq : d = c := hi.eq_of_rowId_eq (List.mem_of_mem_take hd') hc hdk
      subst heq
      exact Or.inl (hacc.mono (by rw [ha]; exact List.Subset.refl _))
    rcases hcase with hpush | ⟨changes, later, hl, hpush⟩
    · apply hkeep.inv hi
      intro q hq
      rw [hpush] at hq
      exact hkeep.push_inv hi (List.mem_of_mem_eraseIdx hq)
    · have hpt := hkeep.push_inv hi hmem
      apply hkeep.inv_of_set hi hpush
      refine ⟨hpt.readAt_le, ?_, by rintro k ⟨⟩, by rintro a ⟨⟩⟩
      intro c hc
      apply hpt.held c
      right
      rw [hl]
      rcases hc with hc | ⟨g, hg, hc⟩
      · exact ⟨changes, List.mem_cons_self, hc⟩
      · exact ⟨g, List.mem_cons_of_mem _ hg, hc⟩

/-- Every action keeps what holds of the phone. -/
theorem step_inv {α : Type*} {s t : Phone α} (h : Step s t) (hi : Inv s) : Inv t := by
  obtain ⟨action, h⟩ := h
  cases action with
  | write entity id content storeId => exact (write_writes s entity id content storeId h).inv hi
  | delete deleted entity id storeId => exact (delete_writes s deleted entity id storeId h).inv hi
  | read limit activeStoreId => exact read_inv h hi
  | respond i answer => exact respond_inv h hi
  | count i => exact count_inv h hi
  | clear i => exact clear_inv h hi
  | abandon i =>
    cases h
    have hkeep : Keeps s { s with pushes := s.pushes.eraseIdx i } :=
      Keeps.of_queue rfl rfl (List.Subset.refl _) rfl
    exact hkeep.inv hi fun q hq => hkeep.push_inv hi (List.mem_of_mem_eraseIdx hq)
  | restart =>
    cases h
    have hkeep : Keeps s { s with pushes := [] } :=
      Keeps.of_queue rfl rfl (List.Subset.refl _) rfl
    exact hkeep.inv hi fun q hq => absurd hq List.not_mem_nil
  | retry rowId =>
    cases h
    have hkeep : Keeps s { s with queue := SyncQueue.retry rowId s.queue } :=
      Keeps.of_mapRows _ (sameContent_retry rowId) rfl rfl rfl rfl
    exact hkeep.inv hi fun q hq => hkeep.push_inv hi hq
  | drop rowId =>
    cases h
    have hkeep : Keeps s { s with
        queue := SyncQueue.drop rowId s.queue, dropped := s.dropped ++ [rowId] } := by
      refine Keeps.of_filter (fun k => !(k == rowId)) rfl rfl (List.Subset.refl _)
        (List.subset_append_left _ _) ?_
      intro c _ hgone
      right
      apply List.mem_append_right
      simpa using hgone
    exact hkeep.inv hi fun q hq => hkeep.push_inv hi hq

/-- A fresh phone satisfies the invariant. -/
theorem fresh_inv (α : Type*) : Inv (Phone.fresh α) where
  ascending := List.Pairwise.nil
  bounded _ hc := absurd hc List.not_mem_nil
  stored _ _ hr := by cases hr
  covered _ hc := absurd hc.1 List.not_mem_nil
  pushes _ hp := absurd hp List.not_mem_nil

/-- So does every phone that is reached from one. -/
theorem run_inv {α : Type*} {s : Phone α}
    (h : Relation.ReflTransGen Step (Phone.fresh α) s) : Inv s := by
  induction h with
  | refl => exact fresh_inv α
  | tail _ hstep ih => exact step_inv hstep ih

/-- Reading the answers of a push and clearing its rows leaves alone the
rows of everything written after its batch was read. -/
theorem newer_rows_untouched {α : Type*} {s t : Phone α} {i : ℕ} {p : Push α} (hi : Inv s)
    (hp : s.pushes[i]? = some p) (h : step s (.count i) = some t ∨ step s (.clear i) = some t)
    {c : LocalChange α} (hc : c ∈ s.history.drop p.readAt) :
    t.queue.rows.find? c.rowId = s.queue.rows.find? c.rowId := by
  have hpi := hi.pushes p (List.mem_of_getElem? hp)
  rcases h with h | h
  · obtain ⟨answer, d, todo, -, htodo, hcase⟩ := step_count hp h
    rcases hcase with ⟨reason, -, rfl⟩ | ⟨-, rfl⟩ | rfl
    · obtain ⟨e, he, hek, -⟩ := hpi.held d (Or.inl (by rw [htodo]; exact List.mem_cons_self))
      have hne : c.rowId ≠ d.rowId := by
        rw [← hek]
        exact (hi.rowId_lt he hc).ne'
      simp [recordFailure, hne]
    · rfl
    · rfl
  · obtain ⟨hq, -⟩ := step_clear hp h
    have hnot : ¬c.rowId ∈ p.accepted := by
      intro hmem
      obtain ⟨e, he, hek, -⟩ := hpi.cleared _ hmem
      exact (hi.rowId_lt he hc).ne hek
    rw [hq, clearRows, Table.find?_filter]
    cases s.queue.rows.find? c.rowId with
    | none => rfl
    | some r => simp [hnot]

/-- No edit is lost. Whatever the order of writes, pushes and restarts, a
current version is accepted, dropped by the owner or still queued under its
row; and no push clears, or counts a refusal against, a version written
after its batch was read. -/
theorem no_edit_is_lost {α : Type*} (s : Phone α)
    (h : Relation.ReflTransGen Step (Phone.fresh α) s) :
    (∀ c, Current s.history c → Accepted s c ∨ c.rowId ∈ s.dropped ∨ Queued s.queue c) ∧
      ∀ i p t, s.pushes[i]? = some p →
        (step s (.count i) = some t ∨ step s (.clear i) = some t) →
        ∀ c ∈ s.history.drop p.readAt,
          t.queue.rows.find? c.rowId = s.queue.rows.find? c.rowId := by
  have hi := run_inv h
  exact ⟨hi.covered, fun i p t hp hstep c hc => newer_rows_untouched hi hp hstep hc⟩

/-- A product is edited while its first version is in the air; the server
accepts the version it got, and its row is cleared. -/
def editDuringUpload : List (Action String) :=
  [.write .products ⟨1⟩ "rice" none, .read 200 ⟨0⟩, .write .products ⟨1⟩ "brown rice" none,
    .respond 0 ⟨fun _ => true, fun _ => none⟩, .count 0, .clear 0]

/-- The phone after a list of actions. -/
def run {α : Type*} (s : Phone α) (actions : List (Action α)) : Option (Phone α) :=
  actions.foldlM step s

theorem run_reaches {α : Type*} {actions : List (Action α)} {s t : Phone α}
    (h : run s actions = some t) : Relation.ReflTransGen Step s t := by
  induction actions generalizing s with
  | nil =>
    cases h
    exact Relation.ReflTransGen.refl
  | cons action rest ih =>
    rw [run, List.foldlM_cons, Option.bind_eq_bind, Option.bind_eq_some_iff] at h
    obtain ⟨u, hu, h⟩ := h
    exact (Relation.ReflTransGen.single ⟨action, hu⟩).trans (ih h)

theorem no_edit_is_lost_editDuringUpload :
    ∃ s, run (Phone.fresh String) editDuringUpload = some s ∧
      Queued s.queue ⟨2, none, .products, ⟨1⟩, .record "brown rice", none⟩ := by
  refine ⟨_, rfl, ?_⟩
  rcases (no_edit_is_lost _ (@run_reaches _ editDuringUpload _ _ rfl)).1
    ⟨2, none, .products, ⟨1⟩, .record "brown rice", none⟩ (by decide) with ha | hd | hq
  · obtain ⟨r, hr, -⟩ := ha
    have hk : 2 ∈ List.map QueuedChange.rowId _ := List.mem_map_of_mem hr
    exact absurd hk (by decide)
  · cases hd
  · exact hq

end Kitaza.OutboxDelivery
