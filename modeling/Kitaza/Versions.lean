import Mathlib.Data.List.Basic

/-!
# A store and all its earlier states

The states of a store are numbered in the order of the writes. A value that
was read at some time, by somebody who still holds it, is one the store has
given since an earlier state; writes do not change that.
-/

namespace Kitaza.Versions

variable {σ ν : Type*}

/-- A store with its past. -/
structure Versioned (σ : Type*) where
  /-- The state it is in. -/
  now : σ
  /-- The states it was in. -/
  past : List σ

namespace Versioned

/-- A store without a past. -/
def initial (s : σ) : Versioned σ := ⟨s, []⟩

/-- The number of the state it is in. -/
def version (d : Versioned σ) : ℕ := d.past.length

/-- A state it is or was in. -/
def at? (d : Versioned σ) (k : ℕ) : Option σ := (d.past ++ [d.now])[k]?

/-- The store in another state. -/
def write (d : Versioned σ) (s : σ) : Versioned σ := ⟨s, d.past ++ [d.now]⟩

@[simp] theorem now_write (d : Versioned σ) (s : σ) : (d.write s).now = s := rfl

@[simp] theorem version_write (d : Versioned σ) (s : σ) : (d.write s).version = d.version + 1 := by
  simp [version, write]

@[simp] theorem at?_version (d : Versioned σ) : d.at? d.version = some d.now := by
  simp [at?, version]

theorem le_version {d : Versioned σ} {k : ℕ} {s : σ} (h : d.at? k = some s) : k ≤ d.version := by
  obtain ⟨hk, _⟩ := List.getElem?_eq_some_iff.mp h
  rw [List.length_append] at hk
  exact Nat.le_of_lt_succ hk

/-- A write leaves the numbering. -/
theorem at?_write {d : Versioned σ} {k : ℕ} (h : k ≤ d.version) (s : σ) :
    (d.write s).at? k = d.at? k := by
  have hk : k < (d.past ++ [d.now]).length := by
    rw [List.length_append]
    exact Nat.lt_succ_of_le h
  exact List.getElem?_append_left hk

/-- A state after a write is the one written, or an earlier one. -/
theorem at?_write_cases {d : Versioned σ} {k : ℕ} {s t : σ} (h : (d.write s).at? k = some t) :
    d.at? k = some t ∨ t = s := by
  by_cases hk : k ≤ d.version
  · left
    rwa [at?_write hk] at h
  · right
    have hlast : k = (d.write s).version := by
      have hle := le_version h
      rw [version_write] at hle ⊢
      omega
    rw [hlast, at?_version] at h
    exact (Option.some.inj h).symm

/-- Whatever happened between, the earlier states are still numbered as they
were. -/
def Extends (d d' : Versioned σ) : Prop :=
  d.version ≤ d'.version ∧ ∀ k, k ≤ d.version → d'.at? k = d.at? k

theorem Extends.refl (d : Versioned σ) : d.Extends d := ⟨Nat.le_refl _, fun _ _ => rfl⟩

theorem Extends.trans {d d' d'' : Versioned σ} (h : d.Extends d') (h' : d'.Extends d'') :
    d.Extends d'' := by
  refine ⟨Nat.le_trans h.1 h'.1, fun k hk => ?_⟩
  rw [h'.2 k (Nat.le_trans hk h.1), h.2 k hk]

theorem extends_write (d : Versioned σ) (s : σ) : d.Extends (d.write s) := by
  constructor
  · rw [version_write]
    exact Nat.le_succ _
  · exact fun k hk => at?_write hk s

/-- A value the store has given in a state since a numbered one. -/
def Since (d : Versioned σ) (floor : ℕ) (read : σ → ν) (value : ν) : Prop :=
  ∃ k s, floor ≤ k ∧ d.at? k = some s ∧ value = read s

theorem Since.mono {d d' : Versioned σ} {floor : ℕ} {read : σ → ν} {value : ν}
    (h : d.Since floor read value) (he : d.Extends d') : d'.Since floor read value := by
  obtain ⟨k, s, hk, hs, hv⟩ := h
  exact ⟨k, s, hk, (he.2 k (le_version hs)).trans hs, hv⟩

/-- A value given since a state was given since every earlier one. -/
theorem Since.of_le {d : Versioned σ} {floor floor' : ℕ} {read : σ → ν} {value : ν}
    (h : d.Since floor read value) (hle : floor' ≤ floor) : d.Since floor' read value := by
  obtain ⟨k, s, hk, hs, hv⟩ := h
  exact ⟨k, s, Nat.le_trans hle hk, hs, hv⟩

/-- The values given since a state, listed. -/
theorem since_iff_mem {d : Versioned σ} {floor : ℕ} {read : σ → ν} {value : ν} :
    d.Since floor read value ↔ value ∈ ((d.past ++ [d.now]).drop floor).map read := by
  rw [List.mem_map]
  constructor
  · rintro ⟨k, s, hk, hs, rfl⟩
    refine ⟨s, List.mem_iff_getElem?.mpr ⟨k - floor, ?_⟩, rfl⟩
    rw [List.getElem?_drop, Nat.add_sub_cancel' hk]
    exact hs
  · rintro ⟨s, hs, rfl⟩
    obtain ⟨k, hk⟩ := List.mem_iff_getElem?.mp hs
    rw [List.getElem?_drop] at hk
    exact ⟨floor + k, s, Nat.le_add_right _ _, hk, rfl⟩

/-- What the store gives now. -/
theorem since_now {d : Versioned σ} {floor : ℕ} (h : floor ≤ d.version) (read : σ → ν) :
    d.Since floor read (read d.now) := ⟨d.version, d.now, h, at?_version d, rfl⟩

end Versioned

end Kitaza.Versions
