import Mathlib.Data.Int.Basic
import Mathlib.Logic.Function.Basic

/-!
# Counters that expire

A store of counters under keys. Counting creates a counter that is not there,
without an expiry; an expiry is a command of its own. A counter goes when it
is deleted or when its expiry has come. Every counter that is created begins
a new life, so that what happened to one is not mistaken for what happens to
the next under the same key.
-/

namespace Kitaza.CounterStore

/-- A counter. -/
structure Counter where
  /-- How often it was counted. -/
  count : ℕ
  /-- When it goes, if it ever does. -/
  expiresAt : Option ℕ
  /-- Which of all counters it is. -/
  life : ℕ
  deriving DecidableEq, Repr

/-- The store. -/
structure Store (κ : Type*) where
  /-- The time, in seconds. -/
  now : ℕ
  /-- The counters there are. -/
  keys : κ → Option Counter
  /-- How many counters have been created. -/
  lives : ℕ

variable {κ : Type*}

namespace Store

/-- A store nobody has used. -/
def empty : Store κ := ⟨0, fun _ => none, 0⟩

/-- How often the key has been counted in its present life. -/
def count (s : Store κ) (k : κ) : ℕ := (s.keys k).elim 0 Counter.count

/-- The life the next count under a key belongs to. -/
def life (s : Store κ) (k : κ) : ℕ := (s.keys k).elim s.lives Counter.life

/-- Time passes, and counters whose expiry has come go. -/
def wait (s : Store κ) (seconds : ℕ) : Store κ :=
  { s with
    now := s.now + seconds
    keys := fun k => (s.keys k).filter fun counter =>
      counter.expiresAt.all fun at_ => decide (s.now + seconds < at_) }

section

variable (s : Store κ) {j : κ}

/-- A counter after a while was there, and its expiry has not come. -/
theorem of_keys_wait {seconds : ℕ} {counter : Counter}
    (h : (s.wait seconds).keys j = some counter) :
    s.keys j = some counter ∧ ∀ at_, counter.expiresAt = some at_ → s.now + seconds < at_ := by
  obtain ⟨hkey, hall⟩ := Option.filter_eq_some_iff.mp h
  refine ⟨hkey, fun at_ hat => ?_⟩
  rw [hat] at hall
  simpa using hall

/-- A counter without an expiry outlasts any wait. -/
theorem keys_wait_of_forever {seconds : ℕ} {counter : Counter} (h : s.keys j = some counter)
    (hforever : counter.expiresAt = none) : (s.wait seconds).keys j = some counter := by
  apply Option.filter_eq_some_iff.mpr
  exact ⟨h, by rw [hforever]; rfl⟩

end

variable [DecidableEq κ]

/-- Put a counter under a key, or take it away. -/
def set (s : Store κ) (k : κ) (counter : Option Counter) : Store κ :=
  { s with keys := Function.update s.keys k counter }

/-- `INCR`: the reply is the count after it. -/
def incr (s : Store κ) (k : κ) : Store κ :=
  match s.keys k with
  | none => { s.set k (some ⟨1, none, s.lives⟩) with lives := s.lives + 1 }
  | some counter => s.set k (some { counter with count := counter.count + 1 })

/-- `EXPIRE`: no effect without a counter, and a deletion if no time is left. -/
def expire (s : Store κ) (k : κ) (seconds : ℤ) : Store κ :=
  match s.keys k with
  | none => s
  | some counter =>
    if seconds ≤ 0 then s.set k none
    else s.set k (some { counter with expiresAt := some (s.now + seconds.toNat) })

/-- `DEL`. -/
def del (s : Store κ) (k : κ) : Store κ := s.set k none

section

variable (s : Store κ) {k j : κ}

theorem keys_set (counter : Option Counter) :
    (s.set k counter).keys j = if j = k then counter else s.keys j := by
  exact Function.update_apply s.keys k counter j

@[simp] theorem now_set (counter : Option Counter) : (s.set k counter).now = s.now := rfl

@[simp] theorem lives_set (counter : Option Counter) : (s.set k counter).lives = s.lives := rfl

@[simp] theorem now_incr : (s.incr k).now = s.now := by
  rw [incr]
  split <;> rfl

@[simp] theorem now_expire (seconds : ℤ) : (s.expire k seconds).now = s.now := by
  rw [expire]
  split
  · rfl
  · split <;> rfl

@[simp] theorem lives_expire (seconds : ℤ) : (s.expire k seconds).lives = s.lives := by
  rw [expire]
  split
  · rfl
  · split <;> rfl

/-- Counting touches one key. -/
theorem keys_incr_ne (h : j ≠ k) : (s.incr k).keys j = s.keys j := by
  rw [incr]
  split
  · exact (keys_set s _).trans (if_neg h)
  · exact (keys_set s _).trans (if_neg h)

/-- Counting leaves a counter one higher, in the life it belongs to, with the
expiry it had. -/
theorem keys_incr_self :
    (s.incr k).keys k =
      some ⟨s.count k + 1, (s.keys k).bind Counter.expiresAt, s.life k⟩ := by
  cases h : s.keys k with
  | none =>
    rw [incr, h, count, life, h]
    exact (keys_set s _).trans (if_pos rfl)
  | some counter =>
    rw [incr, h, count, life, h]
    exact (keys_set s _).trans (if_pos rfl)

/-- Setting an expiry touches one key. -/
theorem keys_expire_ne {seconds : ℤ} (h : j ≠ k) : (s.expire k seconds).keys j = s.keys j := by
  rw [expire]
  split
  · rfl
  · split
    · exact (keys_set s _).trans (if_neg h)
    · exact (keys_set s _).trans (if_neg h)

/-- A deletion touches one key. -/
theorem keys_del_ne (h : j ≠ k) : (s.del k).keys j = s.keys j :=
  (keys_set s _).trans (if_neg h)

/-- A counter after `EXPIRE` is one that was there, in the same life, and has
the expiry it had or the one that was set. -/
theorem of_keys_expire {seconds : ℤ} {counter : Counter}
    (h : (s.expire k seconds).keys j = some counter) :
    ∃ old, s.keys j = some old ∧ counter.count = old.count ∧ counter.life = old.life ∧
      (j ≠ k → counter = old) ∧
      (j = k → 0 < seconds ∧ counter.expiresAt = some (s.now + seconds.toNat)) := by
  rw [expire] at h
  split at h
  next hnone =>
    refine ⟨counter, h, rfl, rfl, fun _ => rfl, fun hj => ?_⟩
    rw [hj, hnone] at h
    cases h
  next old hold =>
    split at h
    · rw [keys_set] at h
      split at h
      · cases h
      next hj => exact ⟨counter, h, rfl, rfl, fun _ => rfl, fun heq => absurd heq hj⟩
    next hpos =>
      rw [keys_set] at h
      split at h
      next hj =>
        cases h
        rw [hj]
        exact ⟨old, hold, rfl, rfl, fun hne => absurd rfl hne, fun _ => ⟨by omega, rfl⟩⟩
      next hj => exact ⟨counter, h, rfl, rfl, fun _ => rfl, fun heq => absurd heq hj⟩

/-- A counter after a deletion was there, under another key. -/
theorem of_keys_del {counter : Counter} (h : (s.del k).keys j = some counter) :
    j ≠ k ∧ s.keys j = some counter := by
  rw [del, keys_set] at h
  split at h
  · cases h
  next hj => exact ⟨hj, h⟩

end

end Store

/-- The lives of the counters there are have begun, each under one key. -/
structure Distinct (s : Store κ) : Prop where
  /-- Every life has begun. -/
  begun : ∀ k counter, s.keys k = some counter → counter.life < s.lives
  /-- No two keys share one. -/
  apart : ∀ k j counter other, s.keys k = some counter → s.keys j = some other →
    counter.life = other.life → k = j

namespace Distinct

variable {s : Store κ} {k : κ}

theorem empty : Distinct (Store.empty : Store κ) :=
  ⟨fun _ _ h => (by cases h), fun _ _ _ _ h => (by cases h)⟩

/-- Lives stay distinct where none begins. -/
theorem of_kept {s' : Store κ} (h : Distinct s) (hlives : s'.lives = s.lives)
    (hkept : ∀ j counter, s'.keys j = some counter →
      ∃ old, s.keys j = some old ∧ counter.life = old.life) : Distinct s' := by
  constructor
  · intro j counter hj
    obtain ⟨old, hold, hlife⟩ := hkept j counter hj
    rw [hlives, hlife]
    exact h.begun j old hold
  · intro j i counter other hj hi heq
    obtain ⟨old, hold, hlife⟩ := hkept j counter hj
    obtain ⟨old', hold', hlife'⟩ := hkept i other hi
    exact h.apart j i old old' hold hold' (by rw [← hlife, ← hlife', heq])

theorem wait (h : Distinct s) (seconds : ℕ) : Distinct (s.wait seconds) := by
  apply h.of_kept (show (s.wait seconds).lives = s.lives from rfl)
  intro j counter hj
  exact ⟨counter, (s.of_keys_wait hj).1, rfl⟩

/-- The life a count belongs to is no other key's. -/
theorem life_ne (h : Distinct s) {j : κ} {counter : Counter} (hj : s.keys j = some counter)
    (hne : j ≠ k) : counter.life ≠ s.life k := by
  intro heq
  cases hk : s.keys k with
  | none =>
    rw [Store.life, hk] at heq
    exact absurd (h.begun j counter hj) (by rw [heq]; exact Nat.lt_irrefl _)
  | some other =>
    rw [Store.life, hk] at heq
    exact hne (h.apart j k counter other hj hk heq)

variable [DecidableEq κ]

theorem expire (h : Distinct s) (seconds : ℤ) : Distinct (s.expire k seconds) := by
  apply h.of_kept (s.lives_expire seconds)
  intro j counter hj
  obtain ⟨old, hold, _, hlife, _⟩ := s.of_keys_expire hj
  exact ⟨old, hold, hlife⟩

theorem del (h : Distinct s) : Distinct (s.del k) := by
  apply h.of_kept (s.lives_set none)
  intro j counter hj
  exact ⟨counter, (s.of_keys_del hj).2, rfl⟩

/-- Counting begins at most one life. -/
theorem lives_incr (h : Distinct s) :
    s.lives ≤ (s.incr k).lives ∧ s.life k < (s.incr k).lives := by
  cases hk : s.keys k with
  | none =>
    rw [Store.incr, Store.life, hk]
    exact ⟨Nat.le_succ _, Nat.lt_succ_self _⟩
  | some counter =>
    rw [Store.incr, Store.life, hk]
    exact ⟨le_rfl, h.begun k counter hk⟩

theorem incr (h : Distinct s) : Distinct (s.incr k) := by
  obtain ⟨hlives, hlife⟩ := h.lives_incr (k := k)
  constructor
  · intro j counter hj
    by_cases hjk : j = k
    · rw [hjk, s.keys_incr_self, Option.some.injEq] at hj
      rw [← hj]
      exact hlife
    · rw [s.keys_incr_ne hjk] at hj
      exact Nat.lt_of_lt_of_le (h.begun j counter hj) hlives
  · intro j i counter other hj hi heq
    by_cases hjk : j = k
    · by_cases hik : i = k
      · rw [hjk, hik]
      · rw [hjk, s.keys_incr_self, Option.some.injEq] at hj
        rw [s.keys_incr_ne hik] at hi
        rw [← hj] at heq
        exact absurd heq.symm (h.life_ne hi hik)
    · rw [s.keys_incr_ne hjk] at hj
      by_cases hik : i = k
      · rw [hik, s.keys_incr_self, Option.some.injEq] at hi
        rw [← hi] at heq
        exact absurd heq (h.life_ne hj hjk)
      · rw [s.keys_incr_ne hik] at hi
        exact h.apart j i counter other hj hi heq

end Distinct

end Kitaza.CounterStore
