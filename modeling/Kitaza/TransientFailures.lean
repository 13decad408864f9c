import Kitaza.OutboxDrain
import Kitaza.SyncPush

/-!
# Rows the server could not save right now

The server reports a failure of its own among the refusals, with the promise
that the row will be retried. The phone counts it like any other refusal, so
the fifth one parks a row the server has nothing against. Requests that fail as
a whole count for nothing.
-/

namespace Kitaza.TransientFailures

open KeyedTable Primitives SyncQueue OutboxDelivery OutboxDrain

/-- What the phone is told of a failure inside the server. -/
def retriedLater : String := SyncPush.reasonOf (.internal "")

variable {α : Type*}

/-- The row an action counts a refusal against, and the reason. -/
def refusal (s : Phone α) : Action α → Option (ℕ × String)
  | .count i =>
    match s.pushes[i]? with
    | some p =>
      match p.answer, p.todo with
      | some answer, c :: _ => (answer.rejected (key c)).map fun reason => (c.rowId, reason)
      | _, _ => none
    | none => none
  | _ => none

/-- Note a refusal, if it is of the row and for a reason that counts. -/
def noted (counts : String → Bool) (k : ℕ) (refused : Option (ℕ × String)) (n : ℕ) : ℕ :=
  if refused.any (fun r => r.1 == k && counts r.2) then n + 1 else n

/-- The refusals of a row so far, of those with certain reasons. The owner
starts the count over. -/
def counted (counts : String → Bool) (k : ℕ) (s : Phone α) (action : Action α) (n : ℕ) : ℕ :=
  match action with
  | .retry rowId => if k = rowId then 0 else n
  | action => noted counts k (refusal s action) n

/-- The refusals of a row in a run. -/
def tally (counts : String → Bool) (k : ℕ) : Phone α → List (Action α) → ℕ → ℕ
  | _, [], n => n
  | s, action :: rest, n =>
    match step s action with
    | some t => tally counts k t rest (counted counts k s action n)
    | none => n

/-- How often a row was answered to have failed inside the server. -/
def internalFailures (k : ℕ) (actions : List (Action α)) : ℕ :=
  tally (fun reason => reason = retriedLater) k (Phone.fresh α) actions 0

/-- How often a row was refused on its merits. -/
def meritRefusals (k : ℕ) (actions : List (Action α)) : ℕ :=
  tally (fun reason => !decide (reason = retriedLater)) k (Phone.fresh α) actions 0

/-- A version is among the rows ready to send. -/
def Pending (q : Queue α) (c : LocalChange α) : Prop :=
  ∃ limit, ∃ change ∈ pending limit q, change.rowId = c.rowId ∧ Carries change.row c

theorem pending_iff {q : Queue α} {c : LocalChange α} :
    Pending q c ↔
      ∃ r, q.rows.find? c.rowId = some r ∧ Carries r c ∧ r.attempts < maxAttempts := by
  constructor
  · rintro ⟨limit, change, hmem, hrow, hcarries⟩
    obtain ⟨hfind, hlt⟩ := mem_pending hmem
    exact ⟨change.row, hrow ▸ hfind, hcarries, hlt⟩
  · rintro ⟨r, hfind, hcarries, hlt⟩
    have hwaits : ⟨c.rowId, r⟩ ∈ waiting q := mem_waiting.mpr ⟨hfind, hlt⟩
    refine ⟨(waiting q).length, ⟨c.rowId, r⟩, ?_, rfl, hcarries⟩
    rwa [pending_eq, List.take_length]

/-- A stored row shows the refusals counted for it, and there are none for a
row that is yet to be handed out. -/
structure Shows (k n : ℕ) (s : Phone α) : Prop where
  /-- The row's own count. -/
  stored : ∀ r, s.queue.rows.find? k = some r → r.attempts = n
  /-- Rows to come. -/
  unborn : s.queue.sequence < k → n = 0

section

variable {s t : Phone α} {k n : ℕ}

/-- A row whose table entry, if it is kept, is kept as it was. -/
theorem Shows.of_kept (h : Shows k n s) (hseq : t.queue.sequence = s.queue.sequence)
    (hrow : ∀ r, t.queue.rows.find? k = some r → s.queue.rows.find? k = some r) :
    Shows k n t where
  stored r hr := h.stored r (hrow r hr)
  unborn hlt := h.unborn (hseq ▸ hlt)

/-- A new version starts without refusals. -/
theorem Shows.write (h : Shows k n s) {c : LocalChange α} (hw : Writes s t c)
    (hnew : ∀ r, t.queue.rows.find? c.rowId = some r → r.attempts = 0) : Shows k n t where
  stored r hr := by
    by_cases hk : k = c.rowId
    · subst hk
      have hzero : n = 0 := h.unborn (by rw [hw.rowId]; exact Nat.lt_succ_self _)
      rw [hzero]
      exact hnew r hr
    · exact h.stored r ((hw.others k hk r).mp hr).1
  unborn hlt := by
    apply h.unborn
    rw [hw.sequence] at hlt
    omega

/-- A refusal is counted against a row that was handed out. -/
theorem le_sequence_of_held (hi : Inv s) {i : ℕ} {p : Push α} (hp : s.pushes[i]? = some p)
    {c : QueuedChange α} {todo : List (QueuedChange α)} (htodo : p.todo = c :: todo) :
    c.rowId ≤ s.queue.sequence := by
  obtain ⟨d, hd, hdk, -⟩ := (hi.pushes p (List.mem_of_getElem? hp)).held c
    (Or.inl (htodo ▸ List.mem_cons_self))
  exact hdk ▸ hi.bounded d (List.mem_of_mem_take hd)

/-- An action without a refusal leaves the count. -/
theorem counted_of_refusal_none {counts : String → Bool} {action : Action α}
    (hretry : ∀ rowId, action ≠ .retry rowId) (h : refusal s action = none) :
    counted counts k s action n = n := by
  cases action with
  | retry rowId => exact absurd rfl (hretry rowId)
  | _ => simp only [counted, noted, h, Option.any_none, Bool.false_eq_true, if_false]

/-- Reading the answer for one change counts a refusal if there is one. -/
theorem Shows.count (h : Shows k n s) (hi : Inv s) {i : ℕ} (hs : step s (.count i) = some t) :
    Shows k (counted (fun _ => true) k s (.count i) n) t := by
  cases hp : s.pushes[i]? with
  | none => simp [step, hp] at hs
  | some p =>
    obtain ⟨answer, c, todo, hans, htodo, -⟩ := step_count hp hs
    have hrefusal : refusal s (.count i) =
        (answer.rejected (key c)).map fun reason => (c.rowId, reason) := by
      simp only [refusal, hp, hans, htodo]
    cases hr : answer.rejected (key c) with
    | none =>
      have hnone : refusal s (.count i) = none := by
        rw [hrefusal, hr]
        rfl
      have hqueue : t.queue = s.queue := by
        simp only [step, hp, hans, htodo, hr] at hs
        split_ifs at hs <;> cases hs <;> rfl
      rw [counted_of_refusal_none (by simp) hnone]
      exact h.of_kept (by rw [hqueue]) fun r hr => hqueue ▸ hr
    | some reason =>
      simp only [step, hp, hans, htodo, hr, Option.some.injEq] at hs
      subst hs
      by_cases hk : c.rowId = k
      · have hcount : counted (fun _ => true) k s (.count i) n = n + 1 := by
          simp only [counted, noted, hrefusal, hr, Option.map_some, Option.any_some, hk, beq_self_eq_true,
            Bool.true_and, if_true]
        rw [hcount]
        constructor
        · intro r hr
          simp only [recordFailure, Table.find?_mapRows, Option.map_eq_some_iff] at hr
          obtain ⟨r', hr', rfl⟩ := hr
          rw [if_pos hk.symm]
          exact congrArg (· + 1) (h.stored r' hr')
        · intro hlt
          have hborn := le_sequence_of_held hi hp htodo
          exact absurd (hk ▸ hborn) (not_le.mpr hlt)
      · have hcount : counted (fun _ => true) k s (.count i) n = n := by
          have hne : (c.rowId == k) = false := beq_false_of_ne hk
          simp only [counted, noted, hrefusal, hr, Option.map_some, Option.any_some, hne, Bool.false_and,
            Bool.false_eq_true, if_false]
        rw [hcount]
        refine h.of_kept rfl fun r hr => ?_
        simp only [recordFailure, Table.find?_mapRows, Option.map_eq_some_iff] at hr
        obtain ⟨r', hr', rfl⟩ := hr
        rwa [if_neg (Ne.symm hk)]

/-- Removing rows keeps the counts of the others. -/
theorem Shows.filter (h : Shows k n s) (keep : ℕ → Bool)
    (hq : t.queue = { s.queue with rows := s.queue.rows.filter fun k _ => keep k }) :
    Shows k n t := by
  refine h.of_kept (by rw [hq]) fun r hr => ?_
  rw [hq, Table.find?_filter_eq_some] at hr
  exact hr.1

/-- Every action keeps count. -/
theorem Shows.step (h : Shows k n s) (hi : Inv s) {action : Action α}
    (hs : OutboxDelivery.step s action = some t) :
    Shows k (counted (fun _ => true) k s action n) t := by
  cases action with
  | write entity id content storeId =>
    refine h.write (write_writes s entity id content storeId hs) fun r hr => ?_
    cases hs
    rw [enqueue, Table.find?_put_self] at hr
    cases hr
    rfl
  | delete deleted entity id storeId =>
    refine h.write (delete_writes s deleted entity id storeId hs) fun r hr => ?_
    cases hs
    rw [enqueueDeletion, enqueue] at hr
    have hput := Table.find?_put_self
      (SyncQueue.discard .deletions id (SyncQueue.discard entity id s.queue)).rows
      (s.queue.sequence + 1) ⟨storeId, .deletions, id, .deletion deleted id, 0, none⟩
    cases hput.symm.trans hr
    rfl
  | read limit activeStoreId =>
    simp only [OutboxDelivery.step] at hs
    split at hs
    · cases hs
    · cases hs
      exact h.of_kept rfl fun r hr => hr
  | respond i answer =>
    simp only [OutboxDelivery.step] at hs
    split at hs
    · split_ifs at hs
      cases hs
      exact h.of_kept rfl fun r hr => hr
    · cases hs
  | count i => exact h.count hi hs
  | clear i =>
    cases hp : s.pushes[i]? with
    | none => simp [OutboxDelivery.step, hp] at hs
    | some p =>
      obtain ⟨hq, -⟩ := step_clear hp hs
      exact h.filter (fun j => !(p.accepted.contains j)) hq
  | abandon i =>
    cases hs
    exact h.of_kept rfl fun r hr => hr
  | restart =>
    cases hs
    exact h.of_kept rfl fun r hr => hr
  | retry rowId =>
    cases hs
    by_cases hk : k = rowId
    · have hcount : counted (fun _ => true) k s (.retry rowId) n = 0 := if_pos hk
      rw [hcount]
      constructor
      · intro r hr
        simp only [SyncQueue.retry, Table.find?_mapRows, Option.map_eq_some_iff] at hr
        obtain ⟨r', -, rfl⟩ := hr
        rw [if_pos hk]
      · intro _
        rfl
    · have hcount : counted (fun _ => true) k s (.retry rowId) n = n := if_neg hk
      rw [hcount]
      refine h.of_kept rfl fun r hr => ?_
      simp only [SyncQueue.retry, Table.find?_mapRows, Option.map_eq_some_iff] at hr
      obtain ⟨r', hr', rfl⟩ := hr
      rwa [if_neg hk]
  | drop rowId =>
    cases hs
    exact h.filter (fun j => !(j == rowId)) rfl

/-- So does every run. -/
theorem Shows.run {actions : List (Action α)} (h : Shows k n s) (hi : Inv s)
    (hs : OutboxDelivery.run s actions = some t) :
    Shows k (tally (fun _ => true) k s actions n) t := by
  induction actions generalizing s n with
  | nil =>
    cases hs
    exact h
  | cons action rest ih =>
    rw [OutboxDelivery.run, List.foldlM_cons, Option.bind_eq_bind, Option.bind_eq_some_iff] at hs
    obtain ⟨u, hu, hs⟩ := hs
    simp only [tally, hu]
    exact ih (h.step hi hu) (step_inv ⟨action, hu⟩ hi) hs

/-- A refusal is of the one kind or the other. -/
theorem noted_split (counts : String → Bool) (refused : Option (ℕ × String)) (m : ℕ) :
    noted (fun _ => true) k refused (n + m) =
      noted counts k refused n + noted (fun reason => !counts reason) k refused m := by
  unfold noted
  cases refused with
  | none => rfl
  | some r =>
    cases hk : r.1 == k with
    | false => simp [hk]
    | true =>
      cases hc : counts r.2 with
      | false =>
        simp only [Option.any_some, hk, hc, Bool.true_and, Bool.not_false, if_true,
          Bool.false_eq_true, if_false]
        omega
      | true =>
        simp only [Option.any_some, hk, hc, Bool.true_and, Bool.not_true, if_true,
          Bool.false_eq_true, if_false]
        omega

theorem counted_split (counts : String → Bool) (action : Action α) (m : ℕ) :
    counted (fun _ => true) k s action (n + m) =
      counted counts k s action n + counted (fun reason => !counts reason) k s action m := by
  cases action with
  | retry rowId =>
    rw [counted, counted, counted]
    split_ifs <;> rfl
  | _ => exact noted_split counts _ m

/-- So are the refusals of a run. -/
theorem tally_split (counts : String → Bool) (actions : List (Action α)) (m : ℕ) :
    tally (fun _ => true) k s actions (n + m) =
      tally counts k s actions n + tally (fun reason => !counts reason) k s actions m := by
  induction actions generalizing s n m with
  | nil => rfl
  | cons action rest ih =>
    cases hs : OutboxDelivery.step s action with
    | none => simp only [tally, hs]
    | some u =>
      simp only [tally, hs]
      rw [counted_split counts, ih]

end

section

variable {actions : List (Action α)} {t : Phone α}

/-- A row's count takes in the failures inside the server. -/
theorem attempts_eq (h : run (Phone.fresh α) actions = some t) {k : ℕ} {r : QueueRow α}
    (hr : t.queue.rows.find? k = some r) :
    r.attempts = meritRefusals k actions + internalFailures k actions := by
  have hfresh : Shows k 0 (Phone.fresh α) := ⟨fun r hr => (by cases hr), fun _ => rfl⟩
  have hsplit := @tally_split α (Phone.fresh α) k 0 (fun reason => reason = retriedLater) actions 0
  rw [Nat.add_comm, internalFailures, meritRefusals, ← hsplit]
  exact (hfresh.run (fresh_inv α) h).stored r hr

/-- A version the server never refuses on its merits is sent until it is
accepted exactly as long as fewer than five answers report a failure inside the
server; and its refusals on the merits are all that counts exactly when none
does. -/
theorem sent_until_accepted_iff (h : run (Phone.fresh α) actions = some t) {c : LocalChange α}
    (hc : Current t.history c) (hdropped : c.rowId ∉ t.dropped)
    (hmerits : meritRefusals c.rowId actions = 0) :
    ((Accepted t c ∨ Pending t.queue c) ↔
      (Accepted t c ∨ internalFailures c.rowId actions < maxAttempts)) ∧
    ∀ r, t.queue.rows.find? c.rowId = some r →
      (r.attempts = meritRefusals c.rowId actions ↔ internalFailures c.rowId actions = 0) := by
  have hcovered := (run_inv (run_reaches h)).covered c hc
  refine ⟨or_congr_right' fun hacc => ?_, fun r hr => ?_⟩
  · obtain ⟨r, hr, hcarries⟩ := (hcovered.resolve_left hacc).resolve_left hdropped
    have hattempts := attempts_eq h hr
    rw [hmerits, Nat.zero_add] at hattempts
    rw [pending_iff]
    constructor
    · rintro ⟨r', hr', -, hlt⟩
      cases hr.symm.trans hr'
      exact hattempts ▸ hlt
    · intro hlt
      exact ⟨r, hr, hcarries, hattempts.symm ▸ hlt⟩
  · have hattempts := attempts_eq h hr
    omega

/-- A product is edited, and so many syncs report a failure inside the server. -/
def failing (n : ℕ) : List (Action String) :=
  .write .products ⟨1⟩ "rice" none ::
    (List.replicate n [.read 200 ⟨0⟩, .respond 0 ⟨fun _ => false, fun _ => some retriedLater⟩,
      .count 0, .clear 0]).flatten

/-- The edit. -/
def rice : LocalChange String := ⟨1, none, .products, ⟨1⟩, .record "rice", none⟩

theorem sent_until_accepted_iff_failing : ∃ t, run (Phone.fresh String) (failing 4) = some t ∧
    (Accepted t rice ∨ Pending t.queue rice) := by
  refine ⟨_, rfl, ?_⟩
  refine (@sent_until_accepted_iff String (failing 4) _ rfl rice (by decide) (by decide)
    (by decide)).1.mpr (Or.inr (by decide))

/-- Five failures inside the server park a row it has nothing against. -/
theorem fifth_failure_parks : ∃ t, run (Phone.fresh String) (failing 5) = some t ∧
    meritRefusals rice.rowId (failing 5) = 0 ∧ Current t.history rice ∧ rice.rowId ∉ t.dropped ∧
    ¬ (Accepted t rice ∨ Pending t.queue rice) := by
  obtain ⟨t, ht⟩ : ∃ t, run (Phone.fresh String) (failing 5) = some t := ⟨_, rfl⟩
  have hhistory : some t.history = some [rice] := (congrArg (Option.map Phone.history) ht).symm
  have hdropped : some t.dropped = some [] := (congrArg (Option.map Phone.dropped) ht).symm
  have haccepted : some t.accepted = some [] := (congrArg (Option.map Phone.accepted) ht).symm
  refine ⟨t, ht, by decide, ?_, ?_, ?_⟩
  · rw [Option.some.inj hhistory]
    decide
  · rw [Option.some.inj hdropped]
    decide
  · rintro (⟨r, hr, -⟩ | hp)
    · rw [Option.some.inj haccepted] at hr
      cases hr
    · obtain ⟨r, hr, -, hlt⟩ := pending_iff.mp hp
      rw [attempts_eq ht hr] at hlt
      exact absurd hlt (by decide)

end

end Kitaza.TransientFailures
