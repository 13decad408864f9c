import Mathlib.Data.List.Perm.Basic
import Mathlib.Order.Basic
import Kitaza.CounterStore

/-!
# The sign-in limiter

A check counts its bucket, and the one that counted first gives the counter
its window; a reset deletes it. The two commands of a check may be answered,
lost or never carried out, and those of other checks and resets come between.
A counter is left without an expiry only where the one command that sets it
is lost, and then its bucket stays shut.
-/

namespace Kitaza.RateLimiting

open CounterStore

/-- What a check is told. -/
inductive RateLimitVerdict where
  | allowed
  | exceeded
  deriving DecidableEq, Repr

/-- The limiter's settings. -/
structure RateLimiter where
  /-- Checks allowed in a window. -/
  limit : ℕ
  /-- The window. -/
  windowSeconds : ℕ
  deriving DecidableEq, Repr

/-- A `u64` as an `i64`. -/
def asI64 (n : ℕ) : ℤ := if n < 0x8000000000000000 then n else n - 0x10000000000000000

/-- A reply as a `u32`, if it is one. -/
def asU32 (n : ℕ) : Option ℕ := if n < 0x100000000 then some n else none

/-- What a check does once it has counted. -/
inductive Next where
  /-- It sets the expiry, and is then allowed. -/
  | expire
  /-- It is told. -/
  | answer (verdict : RateLimitVerdict)
  deriving DecidableEq, Repr

/-- `RateLimiter::check` after the reply to `INCR`, an error being none. -/
def afterIncr (limit : ℕ) : Option ℕ → Next
  | some 1 => .expire
  | some count => if count > limit then .answer .exceeded else .answer .allowed
  | none => .answer .allowed

/-- A check that is to set the expiry. -/
structure Waiting (β : Type) where
  /-- Its bucket. -/
  bucket : β
  /-- The life of the counter it counted first. -/
  life : ℕ
  deriving DecidableEq, Repr

/-- The store and the checks under way. -/
structure State (β : Type) where
  /-- The counters. -/
  store : Store β
  /-- The checks that are to set an expiry. -/
  waiting : List (Waiting β)
  /-- What the checks that reached the store were told, with the life they
  counted in. -/
  answers : List (ℕ × RateLimitVerdict)

/-- Nobody has signed in. -/
def State.empty {β : Type} : State β := ⟨Store.empty, [], []⟩

/-- What becomes of an `INCR`. -/
inductive Fate where
  /-- It is not carried out. -/
  | refused
  /-- It is carried out, and the reply is lost. -/
  | unheard
  /-- It is carried out and answered. -/
  | heard
  deriving DecidableEq, Repr

/-- What happens next. -/
inductive Action (β : Type) where
  /-- Time passes. -/
  | wait (seconds : ℕ)
  /-- A check begins. -/
  | check (bucket : β) (fate : Fate)
  /-- A check that is to set the expiry does so, or its command is lost. -/
  | expire (index : ℕ) (carried : Bool)
  /-- A reset, whose command may be lost. -/
  | reset (bucket : β) (carried : Bool)
  deriving DecidableEq, Repr

variable {β : Type}

/-- The reply a check reads. -/
def reply (store : Store β) (bucket : β) : Fate → Option ℕ
  | .heard => asU32 (store.count bucket + 1)
  | _ => none

section

variable [DecidableEq β]

/-- The count of a check, and what it is told unless it is to set the expiry.
A check that does not reach the store is allowed and leaves no trace. -/
def count (limiter : RateLimiter) (s : State β) (bucket : β) (fate : Fate) : State β :=
  if fate = .refused then s
  else
    match afterIncr limiter.limit (reply s.store bucket fate) with
    | .expire =>
      { s with
        store := s.store.incr bucket
        waiting := s.waiting ++ [⟨bucket, s.store.life bucket⟩] }
    | .answer verdict =>
      { s with
        store := s.store.incr bucket
        answers := s.answers ++ [(s.store.life bucket, verdict)] }

/-- One step. -/
def step (limiter : RateLimiter) (s : State β) : Action β → State β
  | .wait seconds => { s with store := s.store.wait seconds }
  | .check bucket fate => count limiter s bucket fate
  | .expire index carried =>
    match s.waiting[index]? with
    | none => s
    | some check =>
      { store := if carried then s.store.expire check.bucket (asI64 limiter.windowSeconds)
          else s.store
        waiting := s.waiting.eraseIdx index
        answers := s.answers ++ [(check.life, .allowed)] }
  | .reset bucket carried => { s with store := if carried then s.store.del bucket else s.store }

/-- A run. -/
def run (limiter : RateLimiter) (s : State β) (actions : List (Action β)) : State β :=
  actions.foldl (step limiter) s

/-- Every step of a run meets a condition on the state it is taken in. -/
def Along (limiter : RateLimiter) (P : State β → Action β → Prop) :
    State β → List (Action β) → Prop
  | _, [] => True
  | s, action :: rest => P s action ∧ Along limiter P (step limiter s action) rest

end

/-- The bucket's counter, if there is one, goes within a window. -/
def Opens (limiter : RateLimiter) (s : State β) (bucket : β) : Prop :=
  ∀ counter, s.store.keys bucket = some counter →
    ∃ at_, counter.expiresAt = some at_ ∧ at_ ≤ s.store.now + limiter.windowSeconds

/-- In one life of a counter, no more checks than the limit are allowed. -/
def Limits (limiter : RateLimiter) (s : State β) : Prop :=
  ∀ life, s.answers.count (life, .allowed) ≤ limiter.limit

/-- The expiry is not lost: a count whose reply is lost finds the counter
there, and an `EXPIRE` that is lost is not needed, since the counter is gone
or has an expiry, or another check is still to set it. -/
def ExpiryKept (s : State β) : Action β → Prop
  | .check bucket .unheard => s.store.keys bucket ≠ none
  | .expire index false => ∀ check, s.waiting[index]? = some check →
      (∀ counter, s.store.keys check.bucket = some counter → counter.expiresAt ≠ none) ∨
        ∃ other ∈ s.waiting.eraseIdx index, other.bucket = check.bucket
  | _ => True

/-- The count is not lost: a check that cannot read its count is within the
limit. -/
def CountKept (limiter : RateLimiter) (s : State β) : Action β → Prop
  | .check bucket .unheard => s.store.count bucket < limiter.limit
  | .check bucket .heard =>
      s.store.count bucket + 1 < 0x100000000 ∨ s.store.count bucket < limiter.limit
  | _ => True

theorem asI64_le (n : ℕ) : asI64 n ≤ n := by
  rw [asI64]
  split <;> omega

/-- A check to come sets the expiry of every counter that has none, and no
expiry is further than a window. -/
structure Windowed (limiter : RateLimiter) (s : State β) : Prop where
  /-- A counter without expiry is about to get one. -/
  soon : ∀ bucket counter, s.store.keys bucket = some counter → counter.expiresAt = none →
    ∃ check ∈ s.waiting, check.bucket = bucket
  /-- An expiry is at most a window away. -/
  near : ∀ bucket counter at_, s.store.keys bucket = some counter →
    counter.expiresAt = some at_ → at_ ≤ s.store.now + limiter.windowSeconds

theorem Windowed.empty {limiter : RateLimiter} : Windowed limiter (State.empty : State β) :=
  ⟨fun _ _ h => (by cases h), fun _ _ _ h => (by cases h)⟩

/-- A bucket no check is about to set the expiry of opens within a window. -/
theorem Windowed.opens {limiter : RateLimiter} {s : State β} (h : Windowed limiter s)
    {bucket : β} (hidle : ∀ check ∈ s.waiting, check.bucket ≠ bucket) : Opens limiter s bucket := by
  intro counter hkey
  cases hat : counter.expiresAt with
  | none =>
    obtain ⟨check, hcheck, hbucket⟩ := h.soon bucket counter hkey hat
    exact absurd hbucket (hidle check hcheck)
  | some at_ => exact ⟨at_, rfl, h.near bucket counter at_ hkey hat⟩

section

variable [DecidableEq β]

/-- A counter after a count: the one that was counted, or another as it was. -/
theorem of_keys_incr {store : Store β} {bucket other : β} {counter : Counter}
    (h : (store.incr bucket).keys other = some counter) :
    (other = bucket ∧ counter =
      ⟨store.count bucket + 1, (store.keys bucket).bind Counter.expiresAt, store.life bucket⟩) ∨
    (other ≠ bucket ∧ store.keys other = some counter) := by
  by_cases heq : other = bucket
  · rw [heq, store.keys_incr_self, Option.some.injEq] at h
    exact Or.inl ⟨heq, h.symm⟩
  · rw [store.keys_incr_ne heq] at h
    exact Or.inr ⟨heq, h⟩

/-- A check that is answered counts and is told, or is to set the expiry; the
latter only if it counted first. -/
theorem count_cases (limiter : RateLimiter) (s : State β) (bucket : β) {fate : Fate}
    (hfate : fate ≠ .refused) :
    (count limiter s bucket fate =
        ⟨s.store.incr bucket, s.waiting ++ [⟨bucket, s.store.life bucket⟩], s.answers⟩ ∧
      fate = .heard ∧ s.store.count bucket = 0) ∨
    ∃ verdict, count limiter s bucket fate =
        ⟨s.store.incr bucket, s.waiting, s.answers ++ [(s.store.life bucket, verdict)]⟩ ∧
      afterIncr limiter.limit (reply s.store bucket fate) = .answer verdict := by
  cases hnext : afterIncr limiter.limit (reply s.store bucket fate) with
  | expire =>
    left
    refine ⟨by rw [count, if_neg hfate, hnext], ?_⟩
    cases fate with
    | refused => exact absurd rfl hfate
    | unheard => cases hnext
    | heard =>
      refine ⟨rfl, ?_⟩
      rw [reply, asU32] at hnext
      split at hnext
      · rw [afterIncr.eq_def] at hnext
        split at hnext
        next hone => exact Nat.succ.inj (Option.some.inj hone)
        next => split at hnext <;> cases hnext
        next => cases hnext
      · cases hnext
  | answer verdict => exact Or.inr ⟨verdict, by rw [count, if_neg hfate, hnext], rfl⟩

section

variable {limiter : RateLimiter} {s : State β}

/-- A count with its reply, or of a counter that is there. -/
theorem Windowed.count (h : Windowed limiter s) {bucket : β} {fate : Fate}
    (hkept : ExpiryKept s (.check bucket fate)) :
    Windowed limiter (count limiter s bucket fate) := by
  by_cases hfate : fate = .refused
  · rw [RateLimiting.count, if_pos hfate]
    exact h
  have hnear : ∀ other counter at_, (s.store.incr bucket).keys other = some counter →
      counter.expiresAt = some at_ →
        at_ ≤ (s.store.incr bucket).now + limiter.windowSeconds := by
    intro other counter at_ hkey hat
    rw [Store.now_incr]
    cases of_keys_incr hkey with
    | inl hself =>
      rw [hself.2] at hat
      obtain ⟨old, hold, hexpiry⟩ := Option.bind_eq_some_iff.mp hat
      exact h.near bucket old at_ hold hexpiry
    | inr hother => exact h.near other counter at_ hother.2 hat
  -- a counter that was there and has no expiry had a check waiting already
  have hsoon : ∀ other counter, (s.store.incr bucket).keys other = some counter →
      counter.expiresAt = none → (other = bucket → s.store.keys bucket ≠ none) →
        ∃ check ∈ s.waiting, check.bucket = other := by
    intro other counter hkey hnone hthere
    cases of_keys_incr hkey with
    | inl hself =>
      obtain ⟨old, hold⟩ := Option.ne_none_iff_exists'.mp (hthere hself.1)
      rw [hself.2] at hnone
      have hexpiry : old.expiresAt = none := by
        rw [hold] at hnone
        exact hnone
      rw [hself.1]
      exact h.soon bucket old hold hexpiry
    | inr hother => exact h.soon other counter hother.2 hnone
  cases count_cases limiter s bucket hfate with
  | inl hfirst =>
    rw [hfirst.1]
    refine ⟨fun other counter hkey hnone => ?_, hnear⟩
    by_cases hother : other = bucket
    · exact ⟨⟨bucket, s.store.life bucket⟩, by simp, hother.symm⟩
    · obtain ⟨check, hcheck, hbucket⟩ :=
        hsoon other counter hkey hnone (fun heq => absurd heq hother)
      exact ⟨check, List.mem_append_left _ hcheck, hbucket⟩
  | inr htold =>
    obtain ⟨verdict, hcount, hnext⟩ := htold
    rw [hcount]
    refine ⟨fun other counter hkey hnone => hsoon other counter hkey hnone fun _ => ?_, hnear⟩
    cases fate with
    | refused => exact absurd rfl hfate
    | unheard => exact hkept
    | heard =>
      intro habsent
      -- the first to count is not told at once
      have hzero : s.store.count bucket = 0 := by
        rw [Store.count, habsent]
        rfl
      rw [reply, hzero] at hnext
      cases hnext

/-- Setting an expiry, or losing the command for one that is not needed. -/
theorem Windowed.expire (h : Windowed limiter s) {index : ℕ} {carried : Bool}
    (hkept : ExpiryKept s (.expire index carried)) :
    Windowed limiter (step limiter s (.expire index carried)) := by
  rw [step]
  cases hcheck : s.waiting[index]? with
  | none => exact h
  | some check =>
    have hleft : ∀ other ∈ s.waiting, other.bucket ≠ check.bucket →
        other ∈ s.waiting.eraseIdx index := by
      intro other hother hne
      obtain ⟨i, hi⟩ := List.getElem?_of_mem hother
      refine List.mem_eraseIdx_iff_getElem?.mpr ⟨i, ?_, hi⟩
      intro heq
      rw [heq, hcheck, Option.some.injEq] at hi
      exact hne (by rw [hi])
    cases carried with
    | true =>
      constructor
      · intro bucket counter hkey hnone
        obtain ⟨old, hold, _, _, hother, hself⟩ := s.store.of_keys_expire hkey
        by_cases hbucket : bucket = check.bucket
        · rw [(hself hbucket).2] at hnone
          cases hnone
        · rw [hother hbucket] at hnone
          obtain ⟨w, hw, hwb⟩ := h.soon bucket old hold hnone
          exact ⟨w, hleft w hw (by rw [hwb]; exact hbucket), hwb⟩
      · intro bucket counter at_ hkey hat
        obtain ⟨old, hold, _, _, hother, hself⟩ := s.store.of_keys_expire hkey
        have hnow : (s.store.expire check.bucket (asI64 limiter.windowSeconds)).now =
            s.store.now := s.store.now_expire _
        by_cases hbucket : bucket = check.bucket
        · have hle := asI64_le limiter.windowSeconds
          rw [(hself hbucket).2, Option.some.injEq] at hat
          simp only [if_true, hnow]
          omega
        · rw [hother hbucket] at hat
          simp only [if_true, hnow]
          exact h.near bucket old at_ hold hat
    | false =>
      refine ⟨fun bucket counter hkey hnone => ?_, h.near⟩
      obtain ⟨w, hw, hwb⟩ := h.soon bucket counter hkey hnone
      by_cases hbucket : bucket = check.bucket
      · cases hkept check hcheck with
        | inl hthere =>
          rw [hbucket] at hkey
          exact absurd hnone (hthere counter hkey)
        | inr hwaits =>
          obtain ⟨other, hother, hsame⟩ := hwaits
          exact ⟨other, hother, hsame.trans hbucket.symm⟩
      · exact ⟨w, hleft w hw (by rw [hwb]; exact hbucket), hwb⟩

/-- A step that does not lose an expiry. -/
theorem Windowed.step (h : Windowed limiter s) {action : Action β} (hkept : ExpiryKept s action) :
    Windowed limiter (step limiter s action) := by
  cases action with
  | wait seconds =>
    refine ⟨fun bucket counter hkey hnone => ?_, fun bucket counter at_ hkey hat => ?_⟩
    · exact h.soon bucket counter (s.store.of_keys_wait hkey).1 hnone
    · have hle := h.near bucket counter at_ (s.store.of_keys_wait hkey).1 hat
      change at_ ≤ s.store.now + seconds + limiter.windowSeconds
      omega
  | check bucket fate => exact h.count hkept
  | expire index carried => exact h.expire hkept
  | reset bucket carried =>
    cases carried with
    | true =>
      refine ⟨fun other counter hkey hnone => ?_, fun other counter at_ hkey hat => ?_⟩
      · exact h.soon other counter (s.store.of_keys_del hkey).2 hnone
      · exact h.near other counter at_ (s.store.of_keys_del hkey).2 hat
    | false => exact ⟨h.soon, h.near⟩

/-- And a run of them. -/
theorem Windowed.run (h : Windowed limiter s) {actions : List (Action β)}
    (hkept : Along limiter ExpiryKept s actions) : Windowed limiter (run limiter s actions) := by
  induction actions generalizing s with
  | nil => exact h
  | cons action rest ih => exact ih (h.step hkept.1) hkept.2

end

end

/-- How many checks of a life are allowed, those still to set an expiry
included. -/
def tally (s : State β) (life : ℕ) : ℕ :=
  s.answers.count (life, .allowed) + s.waiting.countP fun check => check.life == life

/-- Within one life no more checks are allowed than were counted, nor than the
limit. -/
structure Tallied (limiter : RateLimiter) (s : State β) : Prop where
  /-- The counters are of different lives. -/
  distinct : Distinct s.store
  /-- In a life to come nobody has been allowed. -/
  fresh : ∀ life, s.store.lives ≤ life → tally s life = 0
  /-- No life has more than the limit. -/
  within : ∀ life, tally s life ≤ limiter.limit
  /-- The life of a counter has no more than it was counted. -/
  counted : ∀ bucket counter, s.store.keys bucket = some counter →
    tally s counter.life ≤ counter.count

section

variable {limiter : RateLimiter} {s s' : State β}

theorem Tallied.empty : Tallied limiter (State.empty : State β) :=
  ⟨Distinct.empty, fun _ _ => rfl, fun _ => Nat.zero_le _, fun _ _ h => (by cases h)⟩

/-- The limit holds where the tally does. -/
theorem Tallied.limits (h : Tallied limiter s) : Limits limiter s :=
  fun life => (Nat.le_add_right _ _).trans (h.within life)

/-- The life a count belongs to has no more allowed than were counted. -/
theorem Tallied.life_le (h : Tallied limiter s) (bucket : β) :
    tally s (s.store.life bucket) ≤ s.store.count bucket := by
  cases hkey : s.store.keys bucket with
  | none =>
    rw [Store.life, Store.count, hkey]
    exact (h.fresh s.store.lives le_rfl).le
  | some counter =>
    rw [Store.life, Store.count, hkey]
    exact h.counted bucket counter hkey

/-- A step that counts nobody. -/
theorem Tallied.of_kept (h : Tallied limiter s) (hdistinct : Distinct s'.store)
    (hlives : s'.store.lives = s.store.lives) (htally : ∀ life, tally s' life = tally s life)
    (hkept : ∀ bucket counter, s'.store.keys bucket = some counter →
      ∃ old, s.store.keys bucket = some old ∧ counter.count = old.count ∧
        counter.life = old.life) : Tallied limiter s' := by
  refine ⟨hdistinct, fun life hlife => ?_, fun life => ?_, fun bucket counter hkey => ?_⟩
  · rw [htally]
    exact h.fresh life (hlives ▸ hlife)
  · rw [htally]
    exact h.within life
  · obtain ⟨old, hold, hcount, hlife⟩ := hkept bucket counter hkey
    rw [htally, hcount, hlife]
    exact h.counted bucket old hold

/-- Time passes. -/
theorem Tallied.wait (h : Tallied limiter s) (seconds : ℕ) :
    Tallied limiter { s with store := s.store.wait seconds } :=
  h.of_kept (h.distinct.wait seconds) rfl (fun _ => rfl) fun _ counter hkey =>
    ⟨counter, (s.store.of_keys_wait hkey).1, rfl, rfl⟩

variable [DecidableEq β]

/-- A step that counts a bucket, and allows the one who counted or does not. -/
theorem Tallied.incr (h : Tallied limiter s) {bucket : β} (admitted : ℕ)
    (hstore : s'.store = s.store.incr bucket)
    (htally : ∀ life, tally s' life =
      tally s life + if life = s.store.life bucket then admitted else 0)
    (hone : admitted ≤ 1) (hlimit : admitted = 0 ∨ s.store.count bucket < limiter.limit) :
    Tallied limiter s' := by
  have hlife := h.life_le bucket
  have hlives := h.distinct.lives_incr (k := bucket)
  refine ⟨hstore ▸ h.distinct.incr, fun life hnew => ?_, fun life => ?_,
    fun other counter hkey => ?_⟩
  · rw [hstore] at hnew
    rw [htally, h.fresh life (hlives.1.trans hnew), if_neg (by omega)]
  · rw [htally]
    have hwithin := h.within life
    split
    next heq =>
      rw [heq] at hwithin ⊢
      omega
    next => exact hwithin
  · rw [hstore] at hkey
    rw [htally]
    cases of_keys_incr hkey with
    | inl hself =>
      rw [hself.2, if_pos rfl]
      exact Nat.add_le_add hlife hone
    | inr hother =>
      rw [if_neg (h.distinct.life_ne hother.2 hother.1)]
      exact h.counted other counter hother.2

/-- A check that keeps the count. -/
theorem Tallied.count (h : Tallied limiter s) (hlimit : 1 ≤ limiter.limit) {bucket : β}
    {fate : Fate} (hkept : CountKept limiter s (.check bucket fate)) :
    Tallied limiter (count limiter s bucket fate) := by
  by_cases hfate : fate = .refused
  · rw [RateLimiting.count, if_pos hfate]
    exact h
  cases count_cases limiter s bucket hfate with
  | inl hfirst =>
    obtain ⟨hcount, _, hzero⟩ := hfirst
    rw [hcount]
    apply h.incr 1 rfl _ le_rfl (Or.inr (by omega))
    intro life
    rw [tally, tally, List.countP_append, List.countP_singleton, Nat.add_assoc]
    by_cases hlife : life = s.store.life bucket
    · simp [hlife]
    · simp [hlife, Ne.symm hlife]
  | inr htold =>
    obtain ⟨verdict, hcount, hnext⟩ := htold
    rw [hcount]
    cases verdict with
    | exceeded =>
      apply h.incr 0 rfl _ (Nat.zero_le 1) (Or.inl rfl)
      intro life
      rw [tally, tally, List.count_append]
      simp
    | allowed =>
      have hbelow : s.store.count bucket < limiter.limit := by
        cases fate with
        | refused => exact absurd rfl hfate
        | unheard => exact hkept
        | heard =>
          rw [reply, asU32] at hnext
          split at hnext
          next hread =>
            rw [afterIncr.eq_def] at hnext
            split at hnext
            next => cases hnext
            next heq =>
              rw [Option.some.injEq] at heq
              split at hnext
              · cases hnext
              · omega
            next heq => cases heq
          next hlarge => exact hkept.resolve_left hlarge
      apply h.incr 1 rfl _ le_rfl (Or.inr hbelow)
      intro life
      rw [tally, tally, List.count_append, List.count_singleton, Nat.add_right_comm]
      by_cases hlife : life = s.store.life bucket
      · simp [hlife]
      · simp [hlife, Ne.symm hlife]

/-- Setting an expiry: the check that waited is told. -/
theorem Tallied.expire (h : Tallied limiter s) (index : ℕ) (carried : Bool) :
    Tallied limiter (step limiter s (.expire index carried)) := by
  rw [step]
  cases hcheck : s.waiting[index]? with
  | none => exact h
  | some check =>
    obtain ⟨hindex, hget⟩ := List.getElem?_eq_some_iff.mp hcheck
    have hperm := List.getElem_cons_eraseIdx_perm hindex
    have htally : ∀ life, (s.answers ++ [(check.life, RateLimitVerdict.allowed)]).count
        (life, .allowed) + (s.waiting.eraseIdx index).countP (fun c => c.life == life) =
        tally s life := by
      intro life
      rw [tally, ← hperm.countP_eq, hget, List.countP_cons, List.count_append,
        List.count_singleton]
      simp only [beq_iff_eq, Prod.mk.injEq, and_true]
      omega
    have htold : ∀ store : Store β, Distinct store → store.lives = s.store.lives →
        (∀ bucket counter, store.keys bucket = some counter →
          ∃ old, s.store.keys bucket = some old ∧ counter.count = old.count ∧
            counter.life = old.life) →
        Tallied limiter
          ⟨store, s.waiting.eraseIdx index, s.answers ++ [(check.life, .allowed)]⟩ :=
      fun store hdistinct hlives hkept => h.of_kept hdistinct hlives htally hkept
    cases carried with
    | true =>
      apply htold _ (h.distinct.expire _) (s.store.lives_expire _)
      intro bucket counter hkey
      obtain ⟨old, hold, hcount, hlife, _⟩ := s.store.of_keys_expire hkey
      exact ⟨old, hold, hcount, hlife⟩
    | false => exact htold _ h.distinct rfl fun _ counter hkey => ⟨counter, hkey, rfl, rfl⟩

/-- A step that does not lose the count. -/
theorem Tallied.step (h : Tallied limiter s) (hlimit : 1 ≤ limiter.limit) {action : Action β}
    (hkept : CountKept limiter s action) : Tallied limiter (step limiter s action) := by
  cases action with
  | wait seconds => exact h.wait seconds
  | check bucket fate => exact h.count hlimit hkept
  | expire index carried => exact h.expire index carried
  | reset bucket carried =>
    cases carried with
    | true =>
      have hdel : Tallied limiter { s with store := s.store.del bucket } :=
        h.of_kept h.distinct.del rfl (fun _ => rfl) fun _ counter hkey =>
          ⟨counter, (s.store.of_keys_del hkey).2, rfl, rfl⟩
      exact hdel
    | false => exact h

/-- And a run of them. -/
theorem Tallied.run (h : Tallied limiter s) (hlimit : 1 ≤ limiter.limit)
    {actions : List (Action β)} (hkept : Along limiter (CountKept limiter) s actions) :
    Tallied limiter (run limiter s actions) := by
  induction actions generalizing s with
  | nil => exact h
  | cons action rest ih => exact ih (h.step hlimit hkept.1) hkept.2

end

/-- In every run in which no expiry that is needed is lost, every bucket with
no check between its two commands opens within a window; and in every run in
which no count is lost, no more checks than the limit are allowed in one life
of a counter. -/
theorem buckets_open_and_limit [DecidableEq β] (limiter : RateLimiter)
    (hlimit : 1 ≤ limiter.limit) (actions : List (Action β)) :
    (Along limiter ExpiryKept State.empty actions →
      ∀ bucket, (∀ check ∈ (run limiter State.empty actions).waiting, check.bucket ≠ bucket) →
        Opens limiter (run limiter State.empty actions) bucket) ∧
    (Along limiter (CountKept limiter) State.empty actions →
      Limits limiter (run limiter State.empty actions)) :=
  ⟨fun hkept _ hidle => (Windowed.empty.run hkept).opens hidle,
    fun hkept => (Tallied.empty.run hlimit hkept).limits⟩

/-- A window of three minutes for ten checks, all heard. -/
theorem buckets_open_and_limit_heard :
    Opens ⟨10, 180⟩ (run ⟨10, 180⟩ State.empty
      [.check "ana" .heard, .expire 0 true, .wait 60, .check "ana" .heard]) "ana" := by
  have h := (buckets_open_and_limit ⟨10, 180⟩ (by decide)
    [.check "ana" .heard, .expire 0 true, .wait 60, .check "ana" .heard]).1
  exact h ⟨trivial, trivial, trivial, trivial, trivial⟩ "ana" (by decide)

section

variable [DecidableEq β] {limiter : RateLimiter} {s : State β} {bucket : β}

/-- The bucket's counter has reached the limit, has no expiry, and no check is
to give it one. -/
def Shut (limiter : RateLimiter) (s : State β) (bucket : β) : Prop :=
  (∃ counter, s.store.keys bucket = some counter ∧ counter.expiresAt = none ∧
    limiter.limit ≤ counter.count) ∧ ∀ check ∈ s.waiting, check.bucket ≠ bucket

/-- A shut bucket opens only by a reset. -/
theorem Shut.step (h : Shut limiter s bucket) (hlimit : 1 ≤ limiter.limit) {action : Action β}
    (hreset : action ≠ .reset bucket true) : Shut limiter (step limiter s action) bucket := by
  obtain ⟨⟨counter, hkey, hnone, hfull⟩, hidle⟩ := h
  have hcount : s.store.count bucket = counter.count := by
    rw [Store.count, hkey]
    rfl
  cases action with
  | wait seconds =>
    exact ⟨⟨counter, s.store.keys_wait_of_forever hkey hnone, hnone, hfull⟩, hidle⟩
  | check other fate =>
    by_cases hfate : fate = .refused
    · rw [RateLimiting.step, count, if_pos hfate]
      exact ⟨⟨counter, hkey, hnone, hfull⟩, hidle⟩
    have hcounted : ∃ counter, (s.store.incr other).keys bucket = some counter ∧
        counter.expiresAt = none ∧ limiter.limit ≤ counter.count := by
      by_cases hother : bucket = other
      · rw [← hother, s.store.keys_incr_self, hkey, hcount]
        exact ⟨_, rfl, hnone, hfull.trans (Nat.le_succ _)⟩
      · rw [s.store.keys_incr_ne hother]
        exact ⟨counter, hkey, hnone, hfull⟩
    rw [RateLimiting.step]
    cases count_cases limiter s other hfate with
    | inl hfirst =>
      obtain ⟨hstate, _, hzero⟩ := hfirst
      rw [hstate]
      refine ⟨hcounted, fun check hcheck => ?_⟩
      cases List.mem_append.mp hcheck with
      | inl hbefore => exact hidle check hbefore
      | inr hnew =>
        -- the shut bucket's counter is there, so nobody counts it first
        rw [List.mem_singleton.mp hnew]
        intro hother
        change other = bucket at hother
        rw [hother, hcount] at hzero
        omega
    | inr htold =>
      obtain ⟨verdict, hstate, _⟩ := htold
      rw [hstate]
      exact ⟨hcounted, hidle⟩
  | expire index carried =>
    rw [RateLimiting.step]
    cases hcheck : s.waiting[index]? with
    | none => exact ⟨⟨counter, hkey, hnone, hfull⟩, hidle⟩
    | some check =>
      have hother : bucket ≠ check.bucket := (hidle check (List.mem_of_getElem? hcheck)).symm
      refine ⟨⟨counter, ?_, hnone, hfull⟩, fun w hw => hidle w (List.mem_of_mem_eraseIdx hw)⟩
      cases carried with
      | true => exact (s.store.keys_expire_ne hother).trans hkey
      | false => exact hkey
  | reset other carried =>
    refine ⟨⟨counter, ?_, hnone, hfull⟩, hidle⟩
    cases carried with
    | true =>
      have hother : bucket ≠ other := fun heq => hreset (by rw [heq])
      exact (s.store.keys_del_ne hother).trans hkey
    | false => exact hkey

/-- However long it takes. -/
theorem Shut.run (h : Shut limiter s bucket) (hlimit : 1 ≤ limiter.limit)
    {actions : List (Action β)} (hreset : .reset bucket true ∉ actions) :
    Shut limiter (run limiter s actions) bucket := by
  induction actions generalizing s with
  | nil => exact h
  | cons action rest ih =>
    rw [List.mem_cons, not_or] at hreset
    exact ih (h.step hlimit (Ne.symm hreset.1)) hreset.2

end

/-- Every check of a shut bucket that is heard is refused, as long as a `u32`
holds the count. -/
theorem Shut.exceeded {limiter : RateLimiter} {s : State β} {bucket : β}
    (h : Shut limiter s bucket) (hlimit : 1 ≤ limiter.limit)
    (hread : s.store.count bucket + 1 < 0x100000000) :
    afterIncr limiter.limit (reply s.store bucket .heard) = .answer .exceeded := by
  obtain ⟨⟨counter, hkey, _, hfull⟩, _⟩ := h
  have hcount : s.store.count bucket = counter.count := by
    rw [Store.count, hkey]
    rfl
  rw [reply, asU32, if_pos hread, afterIncr.eq_def]
  split
  next hone =>
    have := Option.some.inj hone
    omega
  next count _ heq =>
    have := Option.some.inj heq
    rw [if_pos (by omega)]
  next heq => cases heq

/-- The check that counts first loses its connection, and another is heard. -/
def lostExpire : List (Action String) :=
  [.check "ana" .heard, .expire 0 false, .check "ana" .heard, .wait 1000000]

/-- Then the bucket does not open within its five minutes, nor ever. -/
theorem lost_expire_shuts :
    (run ⟨1, 300⟩ State.empty lostExpire).waiting = [] ∧
      ¬Opens ⟨1, 300⟩ (run ⟨1, 300⟩ State.empty lostExpire) "ana" ∧
      Shut ⟨1, 300⟩ (run ⟨1, 300⟩ State.empty lostExpire) "ana" := by
  have hkey : (run ⟨1, 300⟩ State.empty lostExpire).store.keys "ana" = some ⟨2, none, 0⟩ := rfl
  have hwaiting : (run ⟨1, 300⟩ State.empty lostExpire).waiting = [] := rfl
  refine ⟨hwaiting, fun hopens => ?_, ⟨_, hkey, rfl, by decide⟩, fun check hcheck => ?_⟩
  · obtain ⟨at_, hat, _⟩ := hopens _ hkey
    cases hat
  · rw [hwaiting] at hcheck
    cases hcheck

end Kitaza.RateLimiting
