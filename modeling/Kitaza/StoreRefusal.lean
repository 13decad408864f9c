import Kitaza.SyncCoordinator

/-!
# When a refused push brings the outbox to rest

The requests of a cycle stand in the order of their oldest rows. If the first
one is refused, the outbox stays as it is; if it is answered row by row,
every row of it is cleared or has a refusal counted. So repeated cycles come
to rest exactly when nothing is left to send or the request with the oldest
row is refused.
-/

namespace Kitaza.StoreRefusal

open KeyedTable Primitives SyncQueue OutboxDelivery SyncCoordinator

variable {α : Type*}

/-- The store a queued row is sent to. -/
def storeOf (activeStoreId : Uuid) (r : QueueRow α) : Uuid := r.storeId.getD activeStoreId

/-- A push that is not refused as a whole is answered row by row. -/
def RowByRow (server : Server α) : Prop :=
  ∀ storeId changes answer, server.push storeId changes = .ok answer →
    ∀ c ∈ changes, answer.applied (key c) = true ∨ (answer.rejected (key c)).isSome = true

/-- No call changes the outbox. -/
def Settled (server : Server α) (s : Coordinator α) : Prop :=
  ∀ call, (syncNow server call s).outbox = s.outbox

/-- The request the oldest waiting row goes in is refused. -/
def FirstRefused (server : Server α) (activeStoreId : Uuid) (q : Queue α) : Prop :=
  ∃ c cs error, pending pushBatchSize q = c :: cs ∧
    server.push (storeOf activeStoreId c.row)
      ((c :: cs).filter fun d => storeOf activeStoreId d.row = storeOf activeStoreId c.row) =
        .error error

/-- The refusals it takes until every row is parked. -/
def work (q : Queue α) : ℕ := q.rows.sum fun _ r => maxAttempts - r.attempts

/-- The rows left are the same ones with no refusal forgotten. -/
def Aged (q q' : Queue α) : Prop :=
  ∀ k r', q'.rows.find? k = some r' → ∃ r, q.rows.find? k = some r ∧
    r.storeId = r'.storeId ∧ r.attempts ≤ r'.attempts

/-- A row that was cleared or had a refusal counted. -/
def Answered (k : ℕ) (q q' : Queue α) : Prop :=
  ∀ r r', q.rows.find? k = some r → q'.rows.find? k = some r' → r.attempts < r'.attempts

theorem Aged.refl (q : Queue α) : Aged q q := fun _ r h => ⟨r, h, rfl, le_rfl⟩

theorem Aged.trans {a b c : Queue α} (hab : Aged a b) (hbc : Aged b c) : Aged a c := by
  intro k r hr
  obtain ⟨s, hs, hstore, hle⟩ := hbc k r hr
  obtain ⟨t, ht, hstore', hle'⟩ := hab k s hs
  exact ⟨t, ht, hstore'.trans hstore, hle'.trans hle⟩

theorem aged_recordFailure (rowId : ℕ) (reason : String) (q : Queue α) :
    Aged q (recordFailure rowId reason q) := by
  intro k r' h
  rw [recordFailure, Table.find?_mapRows, Option.map_eq_some_iff] at h
  obtain ⟨r, hr, rfl⟩ := h
  refine ⟨r, hr, ?_⟩
  split_ifs
  · exact ⟨rfl, Nat.le_succ _⟩
  · exact ⟨rfl, le_rfl⟩

theorem aged_clearRows (rowIds : List ℕ) (q : Queue α) : Aged q (clearRows rowIds q) := by
  intro k r' h
  rw [clearRows, Table.find?_filter_eq_some] at h
  exact ⟨r', h.1, rfl, le_rfl⟩

theorem aged_readAnswer (answer : Answer) (changes : List (QueuedChange α)) (q : Queue α) :
    Aged q (readAnswer answer changes q).1 := by
  induction changes generalizing q with
  | nil => exact Aged.refl q
  | cons change changes ih =>
    rw [readAnswer]
    split
    · exact (aged_recordFailure _ _ _).trans (ih _)
    · dsimp only
      split_ifs <;> exact ih q

/-- A change that the answer names is cleared or has a refusal counted. -/
theorem answered_of_named {answer : Answer} {changes : List (QueuedChange α)} {q : Queue α}
    {c : QueuedChange α} (hc : c ∈ changes)
    (hn : answer.applied (key c) = true ∨ (answer.rejected (key c)).isSome = true) :
    c.rowId ∈ (readAnswer answer changes q).2 ∨
      Answered c.rowId q (readAnswer answer changes q).1 := by
  induction changes generalizing q with
  | nil => cases hc
  | cons change changes ih =>
    rw [readAnswer]
    rcases List.mem_cons.mp hc with rfl | hc
    · cases hr : answer.rejected (key c) with
      | some reason =>
        right
        intro r r' h h'
        obtain ⟨s, hs, _, hle⟩ := aged_readAnswer answer changes _ c.rowId r' h'
        rw [recordFailure, Table.find?_mapRows, h, Option.map_some, if_pos rfl] at hs
        cases hs
        exact Nat.lt_of_succ_le hle
      | none =>
        left
        rw [hr] at hn
        have ha : answer.applied (key c) = true := hn.resolve_right (by simp)
        simp only [ha, if_true]
        exact List.mem_cons_self
    · split
      next reason _ =>
        refine (ih hc).imp id ?_
        intro h r r' hr hr'
        obtain ⟨s, hs, _⟩ := aged_readAnswer answer changes _ c.rowId r' hr'
        obtain ⟨t, ht, _, hle⟩ := aged_recordFailure _ _ _ c.rowId s hs
        rw [hr] at ht
        cases ht
        exact hle.trans_lt (h s r' hs hr')
      next =>
        dsimp only
        split_ifs
        · exact (ih hc).imp (List.mem_cons_of_mem _) id
        · exact ih hc

theorem aged_pushStore {server : Server α} {storeId : Uuid} {changes : List (QueuedChange α)}
    {q q' : Queue α} {accepted : Bool}
    (h : pushStore server storeId changes q = .ok (q', accepted)) : Aged q q' := by
  rw [pushStore] at h
  split at h
  · cases h
  · cases h
    exact (aged_readAnswer _ _ _).trans (aged_clearRows _ _)

theorem aged_pushStores (server : Server α) (groups : List (Uuid × List (QueuedChange α)))
    (acceptedAny : Bool) (q : Queue α) : Aged q (pushStores server groups acceptedAny q).1 := by
  induction groups generalizing acceptedAny q with
  | nil => exact Aged.refl q
  | cons group rest ih =>
    rw [pushStores]
    split
    · exact Aged.refl q
    next q' accepted h => exact (aged_pushStore h).trans (ih _ _)

theorem aged_pushBatches (server : Server α) (activeStoreId : Uuid) (batches : ℕ) (q : Queue α) :
    Aged q (pushBatches server activeStoreId batches q).1 := by
  induction batches generalizing q with
  | zero => exact Aged.refl q
  | succ batches ih =>
    rw [pushBatches]
    split
    · exact Aged.refl q
    next change changes _ =>
      have h := aged_pushStores server (byStore activeStoreId (change :: changes)) false q
      split
      next q' failure he =>
        rw [he] at h
        exact h
      next q' he =>
        rw [he] at h
        exact h
      next q' he =>
        rw [he] at h
        exact h.trans (ih q')

/-- The first store met leads, with its changes in their order, and the others
follow as they would without it. -/
theorem byStore_cons (activeStoreId : Uuid) (c : QueuedChange α) (cs : List (QueuedChange α)) :
    byStore activeStoreId (c :: cs) = (storeOf activeStoreId c.row,
      (c :: cs).filter fun d => storeOf activeStoreId d.row = storeOf activeStoreId c.row) ::
        byStore activeStoreId
          (cs.filter fun d => storeOf activeStoreId d.row ≠ storeOf activeStoreId c.row) := by
  induction cs using List.reverseRecOn with
  | nil => simp [byStore, addToStore, storeOf]
  | append_singleton cs last ih =>
    have hstep : ∀ changes : List (QueuedChange α), byStore activeStoreId (changes ++ [last]) =
        addToStore (storeOf activeStoreId last.row) last (byStore activeStoreId changes) := by
      intro changes
      rw [byStore, List.foldl_append]
      rfl
    rw [← List.cons_append, hstep, ih, List.filter_append, List.filter_append, addToStore]
    by_cases hs : storeOf activeStoreId c.row = storeOf activeStoreId last.row
    · rw [if_pos hs]
      simp [hs]
    · rw [if_neg hs]
      simp [Ne.symm hs, hstep]

/-- A refused first request leaves the outbox as it is. -/
theorem pushOutbox_of_refused {server : Server α} {activeStoreId : Uuid} {q : Queue α}
    (h : FirstRefused server activeStoreId q) :
    ∃ failure, pushOutbox server activeStoreId q = (q, .error failure) := by
  obtain ⟨c, cs, error, hp, he⟩ := h
  refine ⟨translate false error, ?_⟩
  rw [pushOutbox, maxPushBatches, pushBatches, hp]
  dsimp only
  rw [byStore_cons, pushStores, pushStore, he]

/-- With nothing to send there is nothing to do. -/
theorem pushOutbox_of_empty {server : Server α} {activeStoreId : Uuid} {q : Queue α}
    (h : pending pushBatchSize q = []) : pushOutbox server activeStoreId q = (q, .ok ()) := by
  rw [pushOutbox, maxPushBatches, pushBatches, h]

/-- An answered first request clears the oldest row or counts a refusal. -/
theorem answered_of_taken {server : Server α} (hrows : RowByRow server) {activeStoreId : Uuid}
    {q : Queue α} {c : QueuedChange α} {cs : List (QueuedChange α)} {answer : Answer}
    (hp : pending pushBatchSize q = c :: cs)
    (ha : server.push (storeOf activeStoreId c.row)
      ((c :: cs).filter fun d => storeOf activeStoreId d.row = storeOf activeStoreId c.row) =
        .ok answer) :
    Answered c.rowId q (pushOutbox server activeStoreId q).1 := by
  have hmem : c ∈ (c :: cs).filter fun d =>
      storeOf activeStoreId d.row = storeOf activeStoreId c.row := by
    simp
  rw [pushOutbox, maxPushBatches, pushBatches, hp]
  dsimp only
  rw [byStore_cons, pushStores, pushStore, ha]
  dsimp only
  generalize byStore activeStoreId _ = rest
  generalize hread : readAnswer answer _ q = read
  -- what the first request does to the row
  have hfirst : Answered c.rowId q (clearRows read.2 read.1) := by
    intro r r' hr hr'
    rw [clearRows, Table.find?_filter_eq_some] at hr'
    rcases answered_of_named (q := q) hmem (hrows _ _ _ ha c hmem) with hcl | hcount
    · rw [hread] at hcl
      simp [hcl] at hr'
    · rw [hread] at hcount
      exact hcount r r' hr hr'.1
  -- and the rest of the cycle does not undo it
  have hkeep : ∀ q' : Queue α, Aged (clearRows read.2 read.1) q' → Answered c.rowId q q' := by
    intro q' haged r r' hr hr'
    obtain ⟨s, hs, _, hle⟩ := haged c.rowId r' hr'
    exact (hfirst r s hr hs).trans_le hle
  have hstores := aged_pushStores server rest (false || !read.2.isEmpty) (clearRows read.2 read.1)
  split
  next q' failure he =>
    rw [he] at hstores
    exact hkeep q' hstores
  next q' he =>
    rw [he] at hstores
    exact hkeep q' hstores
  next q' he =>
    rw [he] at hstores
    exact hkeep _ (hstores.trans (aged_pushBatches server activeStoreId 49 q'))

theorem work_le_of_aged {q q' : Queue α} (h : Aged q q') : work q' ≤ work q := by
  refine (Table.sum_lt_of_rows ?_).1
  intro k r' hr'
  obtain ⟨r, hr, _, hle⟩ := h k r' hr'
  exact ⟨r, hr, Nat.sub_le_sub_left hle _⟩

theorem work_lt_of_answered {q q' : Queue α} (h : Aged q q') {k : ℕ} {r : QueueRow α}
    (hr : q.rows.find? k = some r) (hwait : r.attempts < maxAttempts) (ha : Answered k q q') :
    work q' < work q := by
  refine (Table.sum_lt_of_rows ?_).2 k r hr (Nat.sub_pos_of_lt hwait) ?_
  · intro j s' hs'
    obtain ⟨s, hs, _, hle⟩ := h j s' hs'
    exact ⟨s, hs, Nat.sub_le_sub_left hle _⟩
  · intro r' hr'
    exact Nat.sub_lt_sub_left hwait (ha r r' hr hr')

theorem fail_outbox (failure : AppFailure) (now : ℤ) (s : Coordinator α) :
    (fail failure now s).outbox = s.outbox := by
  rw [fail]
  split <;> rfl

theorem finish_outbox (server : Server α) (storeId : Uuid) (uploadsPaused : Bool) (now : ℤ)
    (s : Coordinator α) : (finish server storeId uploadsPaused now s).outbox = s.outbox := by
  rw [finish]
  split
  · exact fail_outbox _ _ _
  · rfl

/-- A call does nothing to the outbox or uploads once. -/
theorem syncNow_outbox (server : Server α) (call : Call) (s : Coordinator α) :
    (syncNow server call s).outbox = s.outbox ∨ ∃ storeId, s.activeStoreId = some storeId ∧
      (syncNow server call s).outbox = (pushOutbox server storeId s.outbox).1 := by
  rw [syncNow]
  split
  next storeId _ hstore =>
    split_ifs
    · exact Or.inl rfl
    · refine Or.inr ⟨storeId, hstore, ?_⟩
      split
      next outbox he => rw [finish_outbox, he]
      next outbox failure he =>
        split_ifs
        · rw [finish_outbox, he]
        · rw [fail_outbox, he]
  · exact Or.inl rfl

/-- A call of the owner uploads. -/
theorem syncNow_forced {server : Server α} {call : Call} {s : Coordinator α} {storeId : Uuid}
    (he : s.enabled = true) (hs : s.activeStoreId = some storeId) (hf : call.force = true) :
    (syncNow server call s).outbox = (pushOutbox server storeId s.outbox).1 := by
  rw [syncNow, he, hs]
  simp only [hf, Bool.not_true, Bool.false_and, Bool.false_eq_true, if_false]
  split
  next outbox he => rw [finish_outbox, he]
  next outbox failure he =>
    split_ifs
    · rw [finish_outbox, he]
    · rw [fail_outbox, he]

theorem aged_syncNow (server : Server α) (call : Call) (s : Coordinator α) :
    Aged s.outbox (syncNow server call s).outbox := by
  rcases syncNow_outbox server call s with h | ⟨storeId, _, h⟩
  · rw [h]
    exact Aged.refl _
  · rw [h]
    exact aged_pushBatches server storeId maxPushBatches s.outbox

theorem aged_run (server : Server α) (calls : List Call) (s : Coordinator α) :
    Aged s.outbox (run server calls s).outbox := by
  induction calls generalizing s with
  | nil => exact Aged.refl _
  | cons call calls ih => exact (aged_syncNow server call s).trans (ih _)

theorem syncNow_activeStoreId (server : Server α) (call : Call) (s : Coordinator α) :
    (syncNow server call s).activeStoreId = s.activeStoreId := by
  have hfail : ∀ (failure : AppFailure) (t : Coordinator α),
      (fail failure call.now t).activeStoreId = t.activeStoreId := by
    intro failure t
    rw [fail]
    split <;> rfl
  have hfinish : ∀ (storeId : Uuid) (paused : Bool) (t : Coordinator α),
      (finish server storeId paused call.now t).activeStoreId = t.activeStoreId := by
    intro storeId paused t
    rw [finish]
    split
    · exact hfail _ _
    · rfl
  rw [syncNow]
  split
  · split_ifs
    · rfl
    · split
      · exact hfinish _ _ _
      · split_ifs
        · exact hfinish _ _ _
        · exact hfail _ _
  · rfl

/-- Without a session nothing runs. -/
theorem syncNow_of_disabled (server : Server α) (call : Call) {s : Coordinator α}
    (h : s.enabled = false) : syncNow server call s = s := by
  rw [syncNow, h]

/-- Nothing waits, or the request with the oldest row is refused. -/
def Stuck (server : Server α) (s : Coordinator α) : Prop :=
  ∀ storeId, s.activeStoreId = some storeId →
    pending pushBatchSize s.outbox = [] ∨ FirstRefused server storeId s.outbox

theorem Stuck.settled {server : Server α} {s : Coordinator α} (h : Stuck server s) :
    Settled server s := by
  intro call
  rcases syncNow_outbox server call s with hc | ⟨storeId, hs, hc⟩
  · exact hc
  · rw [hc]
    rcases h storeId hs with hp | hr
    · rw [pushOutbox_of_empty hp]
    · obtain ⟨failure, hq⟩ := pushOutbox_of_refused hr
      rw [hq]

theorem Stuck.run {server : Server α} {s : Coordinator α} (h : Stuck server s)
    (calls : List Call) : Stuck server (run server calls s) := by
  induction calls generalizing s with
  | nil => exact h
  | cons call calls ih =>
    apply ih
    intro storeId hs
    rw [syncNow_activeStoreId] at hs
    rw [h.settled call]
    exact h storeId hs

/-- An outbox that is not stuck has less to hear after a call of the owner. -/
theorem stuck_or_work_lt {server : Server α} (hrows : RowByRow server) {s : Coordinator α}
    (he : s.enabled = true) : Stuck server s ∨
      ∀ call : Call, call.force = true → work (syncNow server call s).outbox < work s.outbox := by
  have hsome : s.activeStoreId.isSome = true := (Bool.and_eq_true_iff.mp he).2
  obtain ⟨storeId, hs⟩ := Option.isSome_iff_exists.mp hsome
  have hstuck : (pending pushBatchSize s.outbox = [] ∨ FirstRefused server storeId s.outbox) →
      Stuck server s := by
    intro h storeId' hs'
    rw [hs] at hs'
    cases hs'
    exact h
  cases hp : pending pushBatchSize s.outbox with
  | nil => exact Or.inl (hstuck (Or.inl hp))
  | cons c cs =>
    cases ha : server.push (storeOf storeId c.row)
        ((c :: cs).filter fun d => storeOf storeId d.row = storeOf storeId c.row) with
    | error error => exact Or.inl (hstuck (Or.inr ⟨c, cs, error, hp, ha⟩))
    | ok answer =>
      right
      intro call hf
      have hc : c ∈ pending pushBatchSize s.outbox := by rw [hp]; exact List.mem_cons_self
      obtain ⟨hfind, hwait⟩ := mem_pending hc
      refine work_lt_of_answered (aged_syncNow server call s) hfind hwait ?_
      rw [syncNow_forced he hs hf]
      exact answered_of_taken hrows hp ha

/-- A running coordinator is settled exactly when it is stuck. -/
theorem settled_iff_stuck {server : Server α} (hrows : RowByRow server) {s : Coordinator α}
    (he : s.enabled = true) : Settled server s ↔ Stuck server s := by
  refine ⟨fun h => ?_, Stuck.settled⟩
  rcases stuck_or_work_lt hrows he with hs | hw
  · exact hs
  · have hlt := hw ⟨true, 0⟩ rfl
    rw [h] at hlt
    exact absurd hlt (lt_irrefl _)

/-- As many calls of the owner as there is work settle the outbox, whatever
the timer does between them. -/
theorem settled_run {server : Server α} (hrows : RowByRow server) (calls : List Call)
    (s : Coordinator α) (h : work s.outbox ≤ calls.countP Call.force) :
    Settled server (run server calls s) := by
  induction calls generalizing s with
  | nil =>
    cases he : s.enabled with
    | false =>
      intro call
      change (syncNow server call s).outbox = s.outbox
      rw [syncNow_of_disabled server call he]
    | true =>
      rcases stuck_or_work_lt hrows he with hs | hw
      · exact hs.settled
      · have hlt := hw ⟨true, 0⟩ rfl
        rw [List.countP_nil] at h
        omega
  | cons call calls ih =>
    change Settled server (run server calls (syncNow server call s))
    rw [List.countP_cons] at h
    have hle := work_le_of_aged (aged_syncNow server call s)
    cases he : s.enabled with
    | false =>
      have hoff : ∀ calls, run server calls s = s := by
        intro calls
        induction calls with
        | nil => rfl
        | cons c cs ih' =>
          change run server cs (syncNow server c s) = s
          rw [syncNow_of_disabled server c he]
          exact ih'
      rw [syncNow_of_disabled server call he, hoff]
      intro call'
      rw [syncNow_of_disabled server call' he]
    | true =>
      rcases stuck_or_work_lt hrows he with hs | hw
      · exact (hs.run (call :: calls)).settled
      · apply ih
        by_cases hf : call.force = true
        · have hlt := hw call hf
          rw [if_pos hf] at h
          omega
        · rw [if_neg hf] at h
          omega

/-- With nothing ready to send no row waits. -/
theorem not_waiting_of_empty {q : Queue α} (h : pending pushBatchSize q = []) {k : ℕ}
    {r : QueueRow α} (hr : q.rows.find? k = some r) : ¬ r.attempts < maxAttempts := by
  intro hwait
  rw [pending, List.map_eq_nil_iff, List.take_eq_nil_iff] at h
  have hmem : (k, r) ∈ q.rows.entries.filter fun e => decide (e.2.attempts < maxAttempts) :=
    List.mem_filter.mpr ⟨Table.mem_entries.mpr hr, by simpa using hwait⟩
  rw [h.resolve_left (by decide)] at hmem
  cases hmem

/-- The first row ready to send is the oldest one waiting. -/
theorem oldest_le {q : Queue α} {c : QueuedChange α} {cs : List (QueuedChange α)}
    (h : pending pushBatchSize q = c :: cs) {k : ℕ} {r : QueueRow α}
    (hr : q.rows.find? k = some r) (hwait : r.attempts < maxAttempts) : c.rowId ≤ k := by
  have hmem : (k, r) ∈ q.rows.entries.filter fun e => decide (e.2.attempts < maxAttempts) :=
    List.mem_filter.mpr ⟨Table.mem_entries.mpr hr, by simpa using hwait⟩
  have hord := (Table.entries_ascending q.rows).filter
    fun e => decide (e.2.attempts < maxAttempts)
  rw [pending] at h
  cases hw : q.rows.entries.filter fun e => decide (e.2.attempts < maxAttempts) with
  | nil =>
    rw [hw] at hmem
    cases hmem
  | cons e rest =>
    rw [hw] at h hmem hord
    cases h
    rcases List.mem_cons.mp hmem with rfl | hrest
    · exact le_rfl
    · exact (List.rel_of_pairwise_cons hord hrest).le

theorem run_activeStoreId (server : Server α) (calls : List Call) (s : Coordinator α) :
    (run server calls s).activeStoreId = s.activeStoreId := by
  induction calls generalizing s with
  | nil => rfl
  | cons call calls ih => exact (ih _).trans (syncNow_activeStoreId server call s)

end Kitaza.StoreRefusal
