import Kitaza.SyncCoordinator

/-!
# How long a phone waits after failures

The pause is doubled before it is capped. A phone that has been offline for
some ten hours reaches the fortieth doubling, which no longer fits in a
64-bit number of microseconds: the pause comes out negative, later zero, and
every call after that goes out at once.
-/

namespace Kitaza.SyncBackoff

open KeyedTable Primitives SyncQueue OutboxDelivery SyncCoordinator

/-- A pause within its bounds and no shorter than the one before it. -/
structure Bounded (failures : ℕ) : Prop where
  /-- Thirty seconds or more. -/
  long_enough : firstBackoff ≤ backoffFor failures
  /-- Fifteen minutes or less. -/
  short_enough : backoffFor failures ≤ maxBackoff
  /-- Not shorter than after one failure less. -/
  not_shorter : backoffFor (failures - 1) ≤ backoffFor failures

theorem bounded_iff_le (failures : ℕ) :
    Bounded failures ↔ firstBackoff ≤ backoffFor failures ∧ backoffFor failures ≤ maxBackoff ∧
      backoffFor (failures - 1) ≤ backoffFor failures :=
  ⟨fun h => ⟨h.1, h.2, h.3⟩, fun h => ⟨h.1, h.2.1, h.2.2⟩⟩

instance (failures : ℕ) : Decidable (Bounded failures) :=
  decidable_of_iff' _ (bounded_iff_le failures)

/-- The doubling has not run out of its 64 bits, or what is left of it reads
as a long time. -/
def Readable (failures : ℕ) : Prop :=
  failures ≤ 39 ∨ failures ∈ [43, 44, 46, 47, 51, 52, 53, 54]

instance (failures : ℕ) : Decidable (Readable failures) :=
  inferInstanceAs (Decidable (_ ∨ _))

/-- Thirty seconds are 2 ^ 7 times an odd number of microseconds, so nothing
of them is left after 57 doublings. -/
theorem backoffFor_of_le {failures : ℕ} (h : 58 ≤ failures) : backoffFor failures = 0 := by
  obtain ⟨n, rfl⟩ := Nat.exists_eq_add_of_le h
  have hpower : powToInt ((58 + n : ℕ) - 1) = Int.bmod (2 ^ (57 + n)) (2 ^ 64) := by
    have hcast : ((58 + n : ℕ) : ℤ) - 1 = ((57 + n : ℕ) : ℤ) := by omega
    rw [hcast]
    rfl
  have hdoubled : Int.bmod (firstBackoff * powToInt ((58 + n : ℕ) - 1)) (2 ^ 64) = 0 := by
    rw [hpower, Int.mul_bmod_bmod]
    have hfactor : firstBackoff * 2 ^ (57 + n) = ((2 ^ 64 : ℕ) : ℤ) * (234375 * 2 ^ n) := by
      rw [firstBackoff, pow_add]
      norm_num
      ring
    rw [hfactor, Int.bmod_eq_zero_of_dvd (Dvd.intro _ rfl)]
  have hcap : ¬ maxBackoff < 0 := by decide
  rw [backoffFor, hdoubled, if_neg hcap]

theorem bounded_iff_of_lt :
    ∀ failures < 58, 1 ≤ failures → (Bounded failures ↔ Readable failures) := by
  decide +kernel

/-- A pause is within its bounds for the failures of the first hours and a
few later ones, and for no others. -/
theorem bounded_iff (failures : ℕ) (h : 1 ≤ failures) :
    Bounded failures ↔ Readable failures := by
  rcases Nat.lt_or_ge failures 58 with hlt | hge
  · exact bounded_iff_of_lt failures hlt h
  · have hzero : ¬ firstBackoff ≤ 0 := by decide
    have hnot : ¬ Readable failures := by
      rw [Readable]
      simp only [List.mem_cons, List.not_mem_nil, or_false]
      omega
    refine ⟨fun hb => absurd hb.long_enough ?_, fun hr => absurd hr hnot⟩
    rw [backoffFor_of_le hge]
    exact hzero

theorem bounded_iff_twelve : 1 ≤ 12 ∧ (Bounded 12 ↔ Readable 12) :=
  ⟨by decide, bounded_iff 12 (by decide)⟩

/-- The fortieth pause ends before it begins. -/
theorem fortieth_pause_negative :
    ¬ (∀ failures, 1 ≤ failures → Bounded failures) ∧ backoffFor 40 < 0 := by
  refine ⟨fun h => ?_, by decide +kernel⟩
  exact absurd (h 40 (by decide)).long_enough (by decide +kernel)

variable {α : Type*}

/-- A server that cannot be reached. -/
def unreachable : Server α where
  push := fun _ _ => .error ⟨.connectionError, none, none, none⟩
  pull := fun _ => .error ⟨.connectionError, none, none, none⟩

theorem pushStores_unreachable (groups : List (Uuid × List (QueuedChange α))) (acceptedAny : Bool)
    (q : Queue α) : pushStores unreachable groups acceptedAny q = (q, .ok acceptedAny) ∨
      pushStores unreachable groups acceptedAny q = (q, .error .offline) := by
  cases groups with
  | nil => exact .inl rfl
  | cons group groups => exact .inr rfl

theorem pushBatches_unreachable (activeStoreId : Uuid) (batches : ℕ) (q : Queue α) :
    pushBatches unreachable activeStoreId batches q = (q, .ok ()) ∨
      pushBatches unreachable activeStoreId batches q = (q, .error .offline) := by
  induction batches with
  | zero => exact .inl rfl
  | succ batches ih =>
    rw [pushBatches]
    split
    · exact .inl rfl
    · rename_i change changes _
      rcases pushStores_unreachable (byStore activeStoreId (change :: changes)) false q with h | h
      · rw [h]
        exact .inl rfl
      · rw [h]
        exact .inr rfl

/-- A cycle without a network fails as one that is offline. -/
theorem syncNow_unreachable {s : Coordinator α} {call : Call} (henabled : s.enabled = true)
    (hforce : call.force = true) : syncNow unreachable call s = fail .offline call.now s := by
  obtain ⟨storeId, hstore⟩ : ∃ storeId, s.activeStoreId = some storeId := by
    rw [Coordinator.enabled, Bool.and_eq_true] at henabled
    exact Option.isSome_iff_exists.1 henabled.2
  cases s
  obtain rfl : _ = some storeId := hstore
  rw [syncNow, henabled]
  simp only [hforce, Bool.not_true, Bool.false_and, Bool.false_eq_true, if_false]
  rcases pushBatches_unreachable storeId maxPushBatches _ with h | h
  · rw [pushOutbox, h]
    rfl
  · rw [pushOutbox, h]
    rfl

theorem enabled_offline (now : ℤ) (s : Coordinator α) :
    (fail .offline now s).enabled = s.enabled := by
  have hkind : (FailureKind.offline == FailureKind.unauthorized) = false := rfl
  simp only [Coordinator.enabled, fail, AppFailure.offline, hkind, Bool.or_false]

/-- A phone that stays offline keeps trying and counts every failure. -/
theorem counts_run {calls : List Call} {s : Coordinator α} (henabled : s.enabled = true)
    (hforce : ∀ call ∈ calls, call.force = true) :
    (run unreachable calls s).enabled = true ∧
      (run unreachable calls s).consecutiveFailures = s.consecutiveFailures + calls.length := by
  induction calls generalizing s with
  | nil => exact ⟨henabled, rfl⟩
  | cons call calls ih =>
    have hstep := syncNow_unreachable henabled (hforce call List.mem_cons_self)
    have hrest := ih (s := fail .offline call.now s) ((enabled_offline _ _).trans henabled)
      fun c hc => hforce c (List.mem_cons_of_mem _ hc)
    have hcount : (fail .offline call.now s).consecutiveFailures = s.consecutiveFailures + 1 := rfl
    rw [SyncCoordinator.run, List.foldl_cons, hstep]
    refine ⟨hrest.1, hrest.2.trans ?_⟩
    rw [hcount, List.length_cons]
    omega

/-- Every number of failures is reached, and the pause after the last one is
the one the count says. -/
theorem waits_run {calls : List Call} {call : Call} {s : Coordinator α}
    (henabled : s.enabled = true) (hforce : ∀ c ∈ calls ++ [call], c.force = true) :
    (run unreachable (calls ++ [call]) s).retryAfter =
      some (call.now + backoffFor (s.consecutiveFailures + calls.length + 1)) := by
  have hcounts := counts_run henabled fun c hc => hforce c (List.mem_append_left _ hc)
  have hstep := syncNow_unreachable hcounts.1 (hforce call (by simp))
  have hrun : run unreachable (calls ++ [call]) s =
      syncNow unreachable call (run unreachable calls s) := List.foldl_concat ..
  rw [hrun, hstep, ← hcounts.2]
  rfl

end Kitaza.SyncBackoff
